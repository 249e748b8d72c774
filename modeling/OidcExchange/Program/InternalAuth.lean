import OidcExchange.Adapters.RateLimits
import OidcExchange.Interleaving.Program
import OidcExchange.Model.Audit

/-!
# Authenticating operators

The layer in front of the internal API: it consults the budget of the peer, evaluates the
credential, and records a failure. The three are separate operations, so that requests of one peer
interleave between them.

Left out: the response of a layer mounted without a gate, and log lines. A peer is the address of
the socket.
-/

set_option autoImplicit false

namespace OidcExchange

open Storage Interleaving Throttling

/-- What the layer reads of a request. -/
structure InternalRequest : Type where
  peer : Option String
  path : String
  bearer : Option String
  headers : Table String String

/-- A response; a body of the layer itself is an error with its description. -/
structure InternalResponse : Type where
  status : ℕ
  error : String
  errorDescription : String
  retryAfter : Option ℕ
  deriving DecidableEq

/-! ## Operations -/

/-- What the layer does: consult and consume the budget of a peer, have the credential evaluated,
let the request go on, and record an event. -/
inductive OperatorOp : Type
  | check (peer : String)
  | authenticate (request : InternalRequest)
  | consume (peer : String)
  | next (request : InternalRequest) (principal : OperatorPrincipal)
  | emit (event : SecurityEvent) (peer : Option String) (route : String)

abbrev OperatorAns : OperatorOp → Type
  | .check _ => Answer RateLimitDecision
  | .authenticate _ => Except OperatorAuthFailureReason OperatorPrincipal
  | .consume _ => Answer RateLimitDecision
  | .next _ _ => InternalResponse
  | .emit _ _ _ => Answer Unit

/-- The clock and the buckets of the peers. -/
structure OperatorWorld : Type where
  clock : ℕ
  buckets : PeerBuckets

/-- What the environment decides: the outcome of an evaluation, the response of the handlers,
whether an event is recorded, and nothing elsewhere. -/
inductive OperatorChoice : Type
  | proceed
  | evaluate (outcome : Except OperatorAuthFailureReason OperatorPrincipal)
  | respond (response : InternalResponse)
  | record (outcome : Answer Unit)

/-- An update of the limiter that has no answer has panicked. -/
def updateAnswer : Option RateLimitDecision → Answer RateLimitDecision
  | some decision => .ok decision
  | none => .error .panic

/-- One operation. -/
def OperatorWorld.exec (l : AdminAuthRateLimiter) (x : OperatorChoice) (_c : ℕ) (o : OperatorOp)
    (w : OperatorWorld) : Option (OperatorAns o × OperatorWorld) :=
  match o, x with
  | .check peer, .proceed =>
    let done := l.checkAt peer w.clock w.buckets
    some (updateAnswer done.1, { w with buckets := done.2 })
  | .authenticate _, .evaluate outcome => some (outcome, w)
  | .consume peer, .proceed =>
    let done := l.consumeAt peer w.clock w.buckets
    some (updateAnswer done.1, { w with buckets := done.2 })
  | .next _ _, .respond response => some (response, w)
  | .emit _ _ _, .record outcome => some (outcome, w)
  | _, _ => none

/-- The clock moves on. -/
def OperatorWorld.drift (later : ℕ) (w : OperatorWorld) : Option OperatorWorld :=
  if w.clock ≤ later then some { w with clock := later } else none

/-! ## The layer -/

/-- A step of the layer; a panic ends it without a response. -/
abbrev Gate (α : Type) : Type := Program OperatorAns (Fault Error) α

/-- SOURCE: server/src/middleware/internal_auth.rs:219-228 -/
def auditBlockingErrorResponse : InternalResponse :=
  ⟨500, "server_error", "internal server error", none⟩

/-- SOURCE: server/src/middleware/internal_auth.rs:230-247 -/
def unauthorizedResponse (reason : OperatorAuthFailureReason) : InternalResponse :=
  let description := match reason with
    | .missingCredential => "authentication required"
    | .invalidCredential => "invalid credential"
    | .notConfigured => "internal API authentication is not configured"
  ⟨401, "unauthorized", description, none⟩

/-- SOURCE: server/src/middleware/internal_auth.rs:110-122 -/
def slowDownResponse (retryAfterSecs : ℕ) : InternalResponse :=
  ⟨429, "slow_down", "too many requests; retry later", some retryAfterSecs⟩

/-- A mandatory event, and the response where it has been recorded.
SOURCE: server/src/middleware/internal_auth.rs:92-104 and 157-169 -/
def requireSecurityEvent (event : SecurityEvent) (request : InternalRequest)
    (response : InternalResponse) : Gate InternalResponse := do
  match ← Program.ask (OperatorOp.emit event request.peer request.path) with
  | .ok () => .done response
  | .error .panic => .raise .panic
  | .error (.error _) => .done auditBlockingErrorResponse

/-- The credential has been refused: it is recorded, and what the limiter says to that is not
looked at. SOURCE: server/src/middleware/internal_auth.rs:148-172 -/
def refuseOperator (request : InternalRequest) (reason : OperatorAuthFailureReason) :
    Gate InternalResponse :=
  let refused := requireSecurityEvent (.operatorAuthenticationFailed reason) request
    (unauthorizedResponse reason)
  match request.peer with
  | none => refused
  | some peer => do
    match ← Program.ask (OperatorOp.consume peer) with
    | .error .panic => .raise .panic
    | _ => refused

/-- SOURCE: server/src/middleware/internal_auth.rs:137-173 -/
def evaluateOperator (request : InternalRequest) : Gate InternalResponse := do
  match ← Program.ask (OperatorOp.authenticate request) with
  | .ok principal => Program.ask (OperatorOp.next request principal)
  | .error reason => refuseOperator request reason

/-- SOURCE: server/src/middleware/internal_auth.rs:48-173 -/
def internalAuthLayer (request : InternalRequest) : Gate InternalResponse :=
  match request.peer with
  | none => evaluateOperator request
  | some peer => do
    match ← Program.ask (OperatorOp.check peer) with
    | .ok .allow => evaluateOperator request
    | .ok (.deny retryAfterSecs) =>
      requireSecurityEvent .throttleExceeded request (slowDownResponse retryAfterSecs)
    | .error .panic => .raise .panic
    | .error (.error _) => .done auditBlockingErrorResponse

end OidcExchange
