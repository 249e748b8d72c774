import OidcExchange.Interleaving.Program
import OidcExchange.Program.VerificationMaterial

/-!
# Verifying tokens in the admin interface

Calls verify tokens concurrently, on one thread: what a call does without waiting is one operation.
The material is cached for a while; loading it is one request that every caller awaits. A token that
fails as it would after a rotation of the keys forces a refresh, unless its key identifier has
failed one before or a refresh was forced a moment ago.

What the exchange serves changes while calls run; a request brings documents that were served since
it was started. A request carries a ticket, which is kept for the statements alone: its number and
how often the documents had changed when it was started.
-/

set_option autoImplicit false

namespace OidcExchange

open Interleaving

/-- SOURCE: apps/admin-ui/src/lib/auth.ts:12 -/
def cacheTtlMs : ℕ := 300000

/-- SOURCE: apps/admin-ui/src/lib/auth.ts:30 -/
def refreshCooldownMs : ℕ := 30000

/-- SOURCE: apps/admin-ui/src/lib/auth.ts:31 -/
def maxNegativeKids : ℕ := 128

/-- What the exchange serves: the discovery document and the key set. -/
structure ServedDocuments : Type where
  discovery : Value
  jwks : Value

/-- The ticket of a request for material. -/
structure MaterialTicket : Type where
  number : ℕ
  mark : ℕ
  deriving DecidableEq

/-- The request that is under way, and what it has brought.
SOURCE: apps/admin-ui/src/lib/auth.ts:70 -/
structure MaterialRequest : Type where
  ticket : MaterialTicket
  outcome : Option (Except AuthError VerificationMaterial)

/-- The clock in milliseconds, what was served, newest first, the state of the module, and the
requests that were concluded. SOURCE: apps/admin-ui/src/lib/auth.ts:69-72 -/
structure AuthWorld : Type where
  clock : ℕ
  served : List ServedDocuments
  cachedMaterial : Option VerificationMaterial
  materialRequest : Option MaterialRequest
  lastRefreshAt : Option ℕ
  negativeKids : List (String × ℕ)
  requests : ℕ
  concluded : List (MaterialTicket × Except AuthError VerificationMaterial)

/-! ## Operations -/

/-- What becomes of a failure: no refresh, with the request that is under way, or a refresh that is
forced at an instant, with its request. -/
inductive RefreshDecision : Type
  | denied (pending : Option MaterialTicket)
  | forced (ticket : MaterialTicket) (instant : ℕ)

/-- What a call does: get the material or a request for it, await a request, verify a token with
material, of a request that it awaited for a refresh or not, decide on a refresh, and remember a key
identifier. -/
inductive AuthOp : Type
  | getMaterial
  | awaitMaterial (ticket : MaterialTicket)
  | verify (token : String) (material : VerificationMaterial) (refreshed : Option MaterialTicket)
  | decideRefresh (kid : String)
  | rememberNegativeKid (kid : String)

abbrev AuthAns : AuthOp → Type
  | .getMaterial => VerificationMaterial ⊕ MaterialTicket
  | .awaitMaterial _ => Except AuthError VerificationMaterial
  | .verify _ _ _ => Except AuthError Value
  | .decideRefresh _ => RefreshDecision
  | .rememberNegativeKid _ => Unit

namespace AuthWorld

variable (w : AuthWorld)

/-- The module as it is loaded. -/
def new (clock : ℕ) (served : List ServedDocuments) : AuthWorld where
  clock := clock
  served := served
  cachedMaterial := none
  materialRequest := none
  lastRefreshAt := none
  negativeKids := []
  requests := 0
  concluded := []

/-- What was served at some time since the documents had changed so often. -/
def servedSince (mark : ℕ) : List ServedDocuments := w.served.take (w.served.length - mark + 1)

/-- The cached material, while it is fresh. SOURCE: apps/admin-ui/src/lib/auth.ts:311-313 -/
def freshMaterial : Option VerificationMaterial :=
  w.cachedMaterial.filter fun material => w.clock - material.cachedAt < cacheTtlMs

/-- The request under way, started if there is none.
SOURCE: apps/admin-ui/src/lib/auth.ts:314-324 -/
def joinRequest : MaterialTicket × AuthWorld :=
  match w.materialRequest with
  | some request => (request.ticket, w)
  | none =>
    let ticket := { number := w.requests, mark := w.served.length }
    (ticket, { w with materialRequest := some ⟨ticket, none⟩, requests := w.requests + 1 })

/-- SOURCE: apps/admin-ui/src/lib/auth.ts:390-394 -/
def canRefresh (kid : String) : Bool :=
  (w.negativeKids.lookup kid).isNone &&
    w.lastRefreshAt.all fun last => refreshCooldownMs ≤ w.clock - last

/-- What follows a failure that a rotation would explain.
SOURCE: apps/admin-ui/src/lib/auth.ts:413-418 -/
def decideRefresh (kid : String) : RefreshDecision × AuthWorld :=
  if w.canRefresh kid then
    let joined := { w with lastRefreshAt := some w.clock }.joinRequest
    (.forced joined.1 w.clock, joined.2)
  else (.denied (w.materialRequest.map MaterialRequest.ticket), w)

/-- The newest identifiers are kept. SOURCE: apps/admin-ui/src/lib/auth.ts:383-388 -/
def rememberNegativeKid (kid : String) : AuthWorld :=
  let kids := w.negativeKids.filter (·.1 ≠ kid) ++ [(kid, w.clock)]
  { w with negativeKids := kids.drop (kids.length - maxNegativeKids) }

/-- One operation. -/
def exec (ui : AdminUi) (o : AuthOp) (w : AuthWorld) : Option (AuthAns o × AuthWorld) :=
  match o with
  | .getMaterial =>
    match w.freshMaterial with
    | some material => some (.inl material, w)
    | none => some (.inr w.joinRequest.1, w.joinRequest.2)
  | .awaitMaterial ticket => (w.concluded.lookup ticket).map fun outcome => (outcome, w)
  | .verify token material _ => some (ui.verifyWithMaterial token material w.clock, w)
  | .decideRefresh kid => some (w.decideRefresh kid)
  | .rememberNegativeKid kid => some ((), w.rememberNegativeKid kid)

end AuthWorld

/-- How the world moves on: time passes, the exchange serves other documents, the request under way
brings the documents at two places of those served since it was started, or fails, and it is
concluded. -/
inductive AuthDrift : Type
  | tick (later : ℕ)
  | serve (documents : ServedDocuments)
  | load (discovery jwks : ℕ)
  | fail (e : AuthError)
  | conclude

namespace AuthWorld

/-- The request under way has its outcome, and material that it brings is cached.
SOURCE: apps/admin-ui/src/lib/auth.ts:315-319 -/
def arrive (request : MaterialRequest) (outcome : Except AuthError VerificationMaterial)
    (w : AuthWorld) : AuthWorld :=
  { w with
    materialRequest := some { request with outcome := some outcome }
    cachedMaterial := outcome.toOption.or w.cachedMaterial }

/-- The documents at two places of those that a request can bring. -/
def fetched (ui : AdminUi) (request : MaterialRequest) (discovery jwks : ℕ) (w : AuthWorld) :
    Option (Except AuthError VerificationMaterial) := do
  let served := w.servedSince request.ticket.mark
  some (ui.loadVerificationMaterial (← served[discovery]?).discovery (← served[jwks]?).jwks w.clock)

/-- The request that is still waiting for its documents. -/
def loading (w : AuthWorld) : Option MaterialRequest :=
  w.materialRequest.filter fun request => request.outcome.isNone

def drift (ui : AdminUi) (k : AuthDrift) (w : AuthWorld) : Option AuthWorld :=
  match k with
  | .tick later => if w.clock ≤ later then some { w with clock := later } else none
  | .serve documents => some { w with served := documents :: w.served }
  | .load discovery jwks => do
    let request ← w.loading
    some (w.arrive request (← w.fetched ui request discovery jwks))
  | .fail e => do
    let request ← w.loading
    some (w.arrive request (.error e))
  | .conclude => do
    let request ← w.materialRequest
    some { w with
      materialRequest := none
      concluded := (request.ticket, ← request.outcome) :: w.concluded }

end AuthWorld

/-! ## Calls -/

/-- A call that verifies a token. -/
abbrev AuthCall (α : Type) : Type := Program AuthAns AuthError α

/-- The material, loaded or not. SOURCE: apps/admin-ui/src/lib/auth.ts:310-325 -/
def getVerificationMaterial : AuthCall VerificationMaterial := do
  match ← Program.ask AuthOp.getMaterial with
  | .inl material => pure material
  | .inr ticket => Program.ask (AuthOp.awaitMaterial ticket) >>= Program.ofExcept

/-- What the second check of a token ends in. SOURCE: apps/admin-ui/src/lib/auth.ts:419-424 -/
def concludeRefreshed (kid : String) : Except AuthError Value → AuthCall Value
  | .ok payload => pure payload
  | .error e => Program.perform (AuthOp.rememberNegativeKid kid) fun _ => .raise e

/-- The token is checked with the material of a request under way, or of a refresh.
SOURCE: apps/admin-ui/src/lib/auth.ts:413-424 -/
def afterDecision (token kid : String) (e : AuthError) : RefreshDecision → AuthCall Value
  | .denied none => .raise e
  | .denied (some ticket) => do
    let material ← Program.ask (AuthOp.awaitMaterial ticket) >>= Program.ofExcept
    Program.ask (AuthOp.verify token material (some ticket)) >>= Program.ofExcept
  | .forced ticket _ => do
    let refreshed ← Program.ask (AuthOp.awaitMaterial ticket) >>= Program.ofExcept
    Program.ask (AuthOp.verify token refreshed (some ticket)) >>= concludeRefreshed kid

/-- Whether a failure is one that a rotation of the keys would explain.
SOURCE: apps/admin-ui/src/lib/auth.ts:396-398, 407, 411 -/
def rotationFailure (kid : String) (material : VerificationMaterial) (e : AuthError) : Bool :=
  !material.kids.contains kid || e == .signatureVerificationFailed

/-- What the first check of a token ends in. SOURCE: apps/admin-ui/src/lib/auth.ts:408-425 -/
def concludeFirst (token kid : String) (material : VerificationMaterial) :
    Except AuthError Value → AuthCall Value
  | .ok payload => pure payload
  | .error e =>
    if rotationFailure kid material e then
      Program.ask (AuthOp.decideRefresh kid) >>= afterDecision token kid e
    else .raise e

/-- Only a token of bounded length is looked at. SOURCE: apps/admin-ui/src/lib/auth.ts:401 -/
def checkTokenLength (token : String) : Except AuthError Unit :=
  throwUnless (decide (0 < unitLength token ∧ unitLength token ≤ maxTokenBytes)) "JWT is invalid"

/-- SOURCE: apps/admin-ui/src/lib/auth.ts:400-426 -/
def AdminUi.verifyAccessToken (ui : AdminUi) (token : String) : AuthCall Value := do
  Program.ofExcept (checkTokenLength token)
  let header ← Program.ofExcept (ui.parseBoundedHeader token)
  let material ← getVerificationMaterial
  Program.ofExcept (throwUnless (material.discovery.algorithms.contains header.alg)
    "JWT algorithm is not allowed")
  Program.ask (AuthOp.verify token material none) >>= concludeFirst token header.kid material

end OidcExchange
