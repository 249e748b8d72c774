import OidcExchange.Interleaving.Handler
import OidcExchange.Program.AccessToken
import OidcExchange.Program.Requests

/-!
# Revoking a presented token

A refresh token is looked up by its hash and the session it names is removed in a second
operation; an access token is validated and the family its `sid` names is removed in one. Both
are calls of a service that also redeems, exchanges and administers.
-/

set_option autoImplicit false

namespace OidcExchange

open Storage Interleaving Service

/-! ## Operations -/

/-- The operations of the core together with the liveness lookup that only revocation uses. -/
inductive RevokeOp : Type
  | port (o : Op)
  | getSessionByRefreshToken (tokenHash : String)

/-- The type of the answer to an operation. -/
abbrev RevokeAns : RevokeOp → Type
  | .port o => Ans o
  | .getSessionByRefreshToken _ => Answer (Option Session)

/-- A call over these operations. -/
abbrev RevokeService (ε α : Type) : Type := Program RevokeAns (Fault ε) α

/-- A port of the core, as an operation here. -/
def portHandler : Handler Ans RevokeAns := fun o => Program.ask (RevokeOp.port o)

/-- A call of the core, as a call here. -/
abbrev ported {ε α : Type} (p : Service ε α) : RevokeService ε α := p.interp portHandler

/-- SOURCE: core/src/ports/repository.rs:94-101 -/
abbrev Port.getSessionByRefreshToken (tokenHash : String) :
    RevokeService Error (Option Session) :=
  Program.ask (RevokeOp.getSessionByRefreshToken tokenHash) >>= Program.ofExcept

/-- The answer and the world after one operation. SOURCE: adapters/src/lmdb/mod.rs:343-372 -/
def revokeExec (d : Deployment) (x : Choice) (c : ℕ) (o : RevokeOp) (w : World) :
    Option (RevokeAns o × World) :=
  match o with
  | .port o => exec d x c o w
  | .getSessionByRefreshToken h => fallible w x (.ok (w.sessions.lookup h), w)

/-- The operations of a deployment as a semantics for pools of calls. -/
def revokeSemantics (d : Deployment) : Semantics RevokeAns World Choice Drift where
  exec := revokeExec d
  drift := drift

/-! ## The flow -/

/-- SOURCE: core/src/service/revoke.rs:13-27 -/
structure RevokeRequest : Type where
  token : String
  tokenTypeHint : Option String
  clientAddr : ClientAddr
  userAgent : Option String

/-- SOURCE: core/src/service/revoke.rs:11 -/
def tokenHashHexLen : ℕ := 64

section Flow

variable {Bytes : Type} (W : Wire Bytes) (K : KeyManager Bytes) (d : Deployment)

/-- The record of a rejected credential. SOURCE: core/src/service/revoke.rs:197-211 -/
def emitRevokeRejection (request : RevokeRequest) : Service Error Unit :=
  emitSecurityEvent d .authenticationFailed (.failure .authenticationFailed) none none
    request.clientAddr request.userAgent

/-- Revoke the family a valid access token names. SOURCE: core/src/service/revoke.rs:66-127 -/
def revokeAccessToken (request : RevokeRequest) : Service Error Unit := do
  let now ← Port.now
  match validateAccessToken W K d now request.token with
  | .error .panic => .raise .panic
  | .error (.error _) => emitRevokeRejection d request
  | .ok claims => do
    assert (!claims.sid.isEmpty)
    if isValidFamilyId claims.sid = false then emitRevokeRejection d request
    else do
      assert (!claims.sub.isEmpty)
      let sessionsRevoked ← Port.revokeFamily claims.sid
      emitSecurityEventWithDetail d .sessionRevoked .success (some claims.sub) none
        request.clientAddr request.userAgent (reuseDetail claims.sid sessionsRevoked)

/-- Remove the session that was found and record it. SOURCE: core/src/service/revoke.rs:153-177 -/
def revokeFound (request : RevokeRequest) (tokenHash : String) (session : Session) :
    Service Error Unit := do
  assert (!session.userId.isEmpty)
  assert (session.refreshTokenHash == tokenHash)
  Port.revokeSession tokenHash
  emitSecurityEvent d .sessionRevoked .success (some session.userId) none request.clientAddr
    request.userAgent

/-- Hash and revoke a presented refresh token. SOURCE: core/src/service/revoke.rs:129-190 -/
def revokeRefreshToken (request : RevokeRequest) : RevokeService Error Unit := do
  let tokenHash := d.digest request.token
  ported (assert (tokenHash.length == tokenHashHexLen))
  match ← Port.getSessionByRefreshToken tokenHash with
  | some session => ported (revokeFound d request tokenHash session)
  | none => ported (emitRevokeRejection d request)

/-- SOURCE: core/src/service/revoke.rs:40-62 -/
def revoke (request : RevokeRequest) : RevokeService Error Unit := do
  ported (assert (!request.token.isEmpty))
  if request.tokenTypeHint = some "access_token" then ported (revokeAccessToken W K d request)
  else revokeRefreshToken d request

/-! ## The service -/

/-- A request to the service. -/
inductive TokenRequest : Type
  | served (request : Request)
  | revoke (request : RevokeRequest)

/-- What a request returns. -/
inductive TokenReply : Type
  | served (response : Response)
  | revoked

/-- The call a request starts. -/
def answerToken : TokenRequest → RevokeService Error TokenReply
  | .served request => .served <$> ported (serve d request)
  | .revoke request => (fun _ => .revoked) <$> revoke W K d request

/-- The state of a running service. -/
abbrev TokenPool : Type := Pool RevokeAns TokenRequest (Fault Error) TokenReply World

/-- One scheduling step of the service. -/
abbrev TokenAct : Type := Act TokenRequest Choice Drift

/-- The world of the service together with its history. -/
abbrev TokenMoment : Type := Moment RevokeAns TokenRequest World

/-- The service as a transition system. -/
def tokenService : System TokenPool TokenAct :=
  Pool.system (revokeSemantics d) (answerToken W K d)

/-- The service before any request, on an empty store. -/
def TokenPool.start (clock : Instant) : TokenPool := Pool.initial (World.empty clock)

end Flow

end OidcExchange
