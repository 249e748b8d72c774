import OidcExchange.Adapters.RateLimits
import OidcExchange.Interleaving.Program

/-!
# Throttling the public routes

The layer in front of the routes that handle credentials: it draws on the budget of the client
address before the request goes on, and records on a second budget that the response was an
authentication failure.

Left out: the error of a limiter whose lock is poisoned, which is treated as an admission, log
lines, and the shedding layer.
-/

set_option autoImplicit false

namespace OidcExchange

open Storage Interleaving Throttling

/-- SOURCE: core/src/domain/audit.rs:171-178 -/
def ClientAddr.rateLimitKey : ClientAddr → Option String
  | .peer address => some address
  | .forwarded address => some address
  | .reported address => some address
  | .asserted _ => none
  | .unknown => none

/-- What the layer reads of a request. -/
structure PublicRequest : Type where
  path : String
  context : Option (ClientAddr × Option String)

/-- What the layer reads and writes of a response. -/
structure PublicResponse : Type where
  status : ℕ
  body : List UInt8
  retryAfter : Option ℕ
  deriving DecidableEq

/-! ## Operations -/

/-- What the layer does: draw on the limiter, let the request go on, record that it was
throttled. -/
inductive PublicOp : Type
  | checkAndConsume (key : ThrottleKey)
  | next (request : PublicRequest)
  | emitThrottleExceeded (clientAddr : ClientAddr) (userAgent : Option String)

/-- The decision of the limiter, with the instant at which it read its clock. -/
structure Charge : Type where
  instant : ℕ
  decision : RateLimitDecision

abbrev PublicAns : PublicOp → Type
  | .checkAndConsume _ => Charge
  | .next _ => PublicResponse
  | .emitThrottleExceeded _ _ => Unit

/-- The clock and the limiter. -/
structure PublicWorld : Type where
  clock : ℕ
  state : Table ThrottleKey Bucket

/-- What the environment decides: the response of the handlers, and nothing elsewhere. -/
inductive PublicChoice : Type
  | proceed
  | respond (response : PublicResponse)

/-- One operation. -/
def PublicWorld.exec (l : FixedWindowRateLimiter) (x : PublicChoice) (_c : ℕ) (o : PublicOp)
    (w : PublicWorld) : Option (PublicAns o × PublicWorld) :=
  match o, x with
  | .checkAndConsume key, .proceed =>
    let done := l.checkAt key w.clock w.state
    some ({ instant := w.clock, decision := done.1 }, { w with state := done.2 })
  | .next _, .respond response => some (response, w)
  | .emitThrottleExceeded _ _, .proceed => some ((), w)
  | _, _ => none

/-- The clock moves on. -/
def PublicWorld.drift (later : ℕ) (w : PublicWorld) : Option PublicWorld :=
  if w.clock ≤ later then some { w with clock := later } else none

/-! ## The layer -/

/-- Responses are inspected up to this length. SOURCE: server/src/middleware/public_throttle.rs:131 -/
def inspectedBodyBytes : ℕ := 64 * 1024

/-- `oauthError` is the `error` member that the JSON parser finds in a body.
SOURCE: server/src/middleware/public_throttle.rs:114-146 -/
def isPublicAuthenticationFailure (oauthError : List UInt8 → Option String)
    (response : PublicResponse) : Bool × PublicResponse :=
  if response.status = 401 ∨ response.status = 403 then (true, response)
  else if response.status ≠ 400 then (false, response)
  else if inspectedBodyBytes < response.body.length then
    (false, { response with body := ("\x7b\"error\":\"server_error\",\"error_description\":" ++
      "\"response processing failed\"\x7d").toUTF8.toList })
  else (oauthError response.body == some "invalid_grant", response)

/-- SOURCE: server/src/middleware/public_throttle.rs:148-165 -/
def throttleResponse (retryAfterSecs : ℕ) : PublicResponse where
  status := 429
  body := ("\x7b\"error\":\"slow_down\",\"error_description\":" ++
    "\"too many authentication attempts\"\x7d").toUTF8.toList
  retryAfter := some (max retryAfterSecs 1)

/-- The routes whose requests are counted. SOURCE: server/src/middleware/public_throttle.rs:64 -/
def throttledPaths : List String := ["/token", "/revoke", "/nonce"]

/-- A step of the layer; none of them fails. -/
abbrev Layer (α : Type) : Type := Program PublicAns Empty α

/-- The address whose budgets a request draws on, with what is recorded of its client.
SOURCE: server/src/middleware/public_throttle.rs:62-73 -/
def PublicRequest.counted (request : PublicRequest) :
    Option (String × ClientAddr × Option String) :=
  if throttledPaths.contains request.path then
    request.context.bind fun context =>
      context.1.rateLimitKey.map fun address => (address, context.1, context.2)
  else none

/-- An authentication failure is recorded; what the limiter says to that is not looked at.
SOURCE: server/src/middleware/public_throttle.rs:80-87 -/
def recordFailure (oauthError : List UInt8 → Option String) (address : String)
    (response : PublicResponse) : Layer PublicResponse :=
  let inspected := isPublicAuthenticationFailure oauthError response
  if inspected.1 then
    Program.perform (PublicOp.checkAndConsume (.clientAddrFailure address)) fun _ =>
      .done inspected.2
  else .done inspected.2

/-- SOURCE: server/src/middleware/public_throttle.rs:56-112 -/
def publicThrottleLayer (oauthError : List UInt8 → Option String) (request : PublicRequest) :
    Layer PublicResponse :=
  match request.counted with
  | none => Program.ask (PublicOp.next request)
  | some (address, clientAddr, userAgent) => do
    let charge ← Program.ask (PublicOp.checkAndConsume (.clientAddr address))
    match charge.decision with
    | .allow => Program.ask (PublicOp.next request) >>= recordFailure oauthError address
    | .deny retryAfterSecs =>
      Program.perform (PublicOp.emitThrottleExceeded clientAddr userAgent) fun _ =>
        .done (throttleResponse retryAfterSecs)

end OidcExchange
