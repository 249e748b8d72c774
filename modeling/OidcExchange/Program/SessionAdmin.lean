import OidcExchange.Program.Revoke

/-!
# Revoking sessions as an administrator

One session of a user is named by an identifier that is derived from its family: the user's
sessions are listed, the one with that identifier is found, and its family is removed. Or all
sessions of a user are removed at once. Both are calls of a service that also redeems, exchanges,
administers users and revokes presented tokens.

The identifier of a family is a digest and a parameter.
-/

set_option autoImplicit false

namespace OidcExchange

open Storage Interleaving Service

/-! ## Operations -/

/-- The operations of the service that revokes tokens together with the listing of sessions. -/
inductive AdminOp : Type
  | token (o : RevokeOp)
  | listLiveSessions (userId : String) (now : Instant) (limit : ℕ)

/-- The type of the answer to an operation. -/
abbrev AdminAns : AdminOp → Type
  | .token o => RevokeAns o
  | .listLiveSessions _ _ _ => Answer (List Session)

/-- A call over these operations. -/
abbrev AdminService (ε α : Type) : Type := Program AdminAns (Fault ε) α

/-- An operation of the smaller service, as an operation here. -/
def tokenHandler : Handler RevokeAns AdminAns := fun o => Program.ask (AdminOp.token o)

/-- A call of the smaller service, as a call here. -/
abbrev tokened {ε α : Type} (p : RevokeService ε α) : AdminService ε α := p.interp tokenHandler

/-- A call of the core, as a call here. -/
abbrev administered {ε α : Type} (p : Service ε α) : AdminService ε α := tokened (ported p)

/-- A user's sessions that have not expired, the newest first and at most so many.
SOURCE: core/src/ports/repository.rs:133-148 -/
def World.listLiveSessions (w : World) (userId : String) (now : Instant) (limit : ℕ) :
    List Session :=
  (((w.sessions.entries.map Sigma.snd).filter fun s =>
    s.userId == userId && decide (now < s.expiresAt)).insertionSort
      fun a b => b.createdAt ≤ a.createdAt).take limit

/-- SOURCE: core/src/ports/repository.rs:133-148 -/
abbrev Port.listLiveSessions (userId : String) (now : Instant) (limit : ℕ) :
    AdminService Error (List Session) :=
  Program.ask (AdminOp.listLiveSessions userId now limit) >>= Program.ofExcept

/-- The answer and the world after one operation. -/
def adminExec (d : Deployment) (x : Choice) (c : ℕ) (o : AdminOp) (w : World) :
    Option (AdminAns o × World) :=
  match o with
  | .token o => revokeExec d x c o w
  | .listLiveSessions userId now limit =>
    fallible w x (.ok (w.listLiveSessions userId now limit), w)

/-- The operations of a deployment as a semantics for pools of calls. -/
def adminSemantics (d : Deployment) : Semantics AdminAns World Choice Drift where
  exec := adminExec d
  drift := drift

/-! ## The flows -/

/-- SOURCE: core/src/service/user_admin.rs:14 -/
def maxListedSessions : ℕ := 50

variable (d : Deployment) (sessionIdForFamily : String → String)

/-- SOURCE: core/src/service/user_admin.rs:140-147 -/
def loadLiveUser (userId : String) : Service Error User := do
  match ← Port.getUserById userId with
  | some user =>
    if user.status = .deleted then fail (.notFound ("user not found: " ++ userId)) else .done user
  | none => fail (.notFound ("user not found: " ++ userId))

/-- The family of the first listed session with the identifier.
SOURCE: core/src/service/user_admin.rs:172-177 -/
def findFamily (sessions : List Session) (sessionId : String) : Option String :=
  ((sessions.filter fun s => !s.familyId.isEmpty).find? fun s =>
    sessionIdForFamily s.familyId == sessionId).map Session.familyId

/-- The record of a mutation with its detail. SOURCE: core/src/service/user_admin.rs:184-201 -/
def emitAdminMutationWithDetail (kind : AdminMutationKind) (user : User)
    (operator : OperatorPrincipal) (detail : Table String Value) : Service Error Unit := do
  let event ← attributed ((SecurityEvent.adminMutation kind).intoAuditEvent .success
    (some user.id) (some user.provider) .unknown none) operator
  emitMandatoryAuditEvent d { event with detail := detail }

/-- SOURCE: core/src/service/user_admin.rs:179-201 -/
def revokeListedFamily (operator : OperatorPrincipal) (user : User) (sessionId familyId : String) :
    Service Error Unit := do
  let removed ← Port.revokeFamily familyId
  if removed = 0 then fail (.notFound ("session not found: " ++ sessionId))
  else (emitAdminMutationWithDetail d .sessionRevoked user operator
    ((∅ : Table String Value).insert "session_id" (.string sessionId)))

/-- SOURCE: core/src/service/user_admin.rs:158-202 -/
def adminRevokeUserSession (operator : OperatorPrincipal) (userId sessionId : String) :
    AdminService Error Unit := do
  let user ← administered (loadLiveUser userId)
  let now ← administered Port.now
  let sessions ← Port.listLiveSessions userId now maxListedSessions
  match findFamily sessionIdForFamily sessions sessionId with
  | some familyId => administered (revokeListedFamily d operator user sessionId familyId)
  | none => administered (fail (.notFound ("session not found: " ++ sessionId)))

/-- SOURCE: core/src/service/user_admin.rs:208-235 -/
def adminRevokeUserSessions (operator : OperatorPrincipal) (userId : String) :
    Service Error ℕ := do
  let user ← loadLiveUser userId
  let revoked ← Port.revokeAllUserSessions userId
  emitAdminMutationWithDetail d .sessionsRevoked user operator
    ((∅ : Table String Value).insert "sessions_revoked" (.number revoked 0))
  .done revoked

/-! ## The service -/

/-- A request to the service. -/
inductive AdminRequest : Type
  | token (request : TokenRequest)
  | revokeUserSession (operator : OperatorPrincipal) (userId sessionId : String)
  | revokeUserSessions (operator : OperatorPrincipal) (userId : String)

/-- What a request returns. -/
inductive AdminReply : Type
  | token (reply : TokenReply)
  | revoked
  | allRevoked (count : ℕ)

section Service

variable {Bytes : Type} (W : Wire Bytes) (K : KeyManager Bytes)

/-- The call a request starts. -/
def answerAdmin : AdminRequest → AdminService Error AdminReply
  | .token request => .token <$> tokened (answerToken W K d request)
  | .revokeUserSession operator userId sessionId =>
    (fun _ => .revoked) <$> adminRevokeUserSession d sessionIdForFamily operator userId sessionId
  | .revokeUserSessions operator userId =>
    .allRevoked <$> administered (adminRevokeUserSessions d operator userId)

/-- The state of a running service. -/
abbrev AdminPool : Type := Pool AdminAns AdminRequest (Fault Error) AdminReply World

/-- One scheduling step of the service. -/
abbrev AdminAct : Type := Act AdminRequest Choice Drift

/-- The world of the service together with its history. -/
abbrev AdminMoment : Type := Moment AdminAns AdminRequest World

/-- The service as a transition system. -/
def adminService : System AdminPool AdminAct :=
  Pool.system (adminSemantics d) (answerAdmin d sessionIdForFamily W K)

/-- The service before any request, on an empty store. -/
def AdminPool.start (clock : Instant) : AdminPool := Pool.initial (World.empty clock)

end Service

end OidcExchange
