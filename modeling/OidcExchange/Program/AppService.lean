import OidcExchange.Program.UserAdmin
import OidcExchange.Program.SessionAdmin

/-!
# The whole service

Every entry point of the core service as one kind of call: signing in, redeeming and revoking
tokens, and the administrative calls that create, read, change and delete users, their claims
and their sessions. The calls interleave over the ports in any order.

Left out: the listing of users and the statistics, which only read.
-/

set_option autoImplicit false

namespace OidcExchange

open Storage Interleaving Service

variable (d : Deployment) (sessionIdForFamily : String → String)

/-! ## Users -/

/-- SOURCE: core/src/service/user_admin.rs:81-102 -/
def adminCreateUser (operator : OperatorPrincipal) (newUser : NewUser) : Service Error User := do
  let user ← await (Port.createUser newUser)
  emitAdminMutationAuditEvent d .created user .success operator
  notifyQuietly (.created user)
  .done user

/-- SOURCE: core/src/service/user_admin.rs:108-110 -/
def adminGetUser (userId : String) : Service Error (Option User) := Port.getUserById userId

/-! ## Claims -/

/-- SOURCE: core/src/service/user_admin.rs:378-388 -/
def adminGetClaims (userId : String) : Service Error (Table String Value) := do
  match ← Port.getUserById userId with
  | none => fail (.notFound ("user not found: " ++ userId))
  | some user => .done user.claims

/-- Read the user, write its new claims, record the operation: what the three mutations of the
claims share. -/
def replaceClaims (operator : OperatorPrincipal) (userId : String)
    (next : User → Table String Value) (operation : String) : Service Error Unit := do
  match ← Port.getUserById userId with
  | none => fail (.notFound ("user not found: " ++ userId))
  | some existing => do
    let _ ← updateUser userId (claimsPatch (next existing))
    emitClaimsAuditEvent d operator existing operation

/-- SOURCE: core/src/service/user_admin.rs:395-429 -/
def adminSetClaims (operator : OperatorPrincipal) (userId : String)
    (claims : Table String Value) : Service Error Unit := do
  ensureNoReservedClaims claims
  replaceClaims d operator userId (fun _ => claims) "set_claims"

/-- SOURCE: core/src/service/user_admin.rs:479-506 -/
def adminClearClaims (operator : OperatorPrincipal) (userId : String) : Service Error Unit :=
  replaceClaims d operator userId (fun _ => ∅) "clear_claims"

/-- A merge of claims is a replacement by the merged map. -/
theorem adminMergeClaims_eq (operator : OperatorPrincipal) (userId : String)
    (claims : Table String Value) :
    adminMergeClaims d operator userId claims = (ensureNoReservedClaims claims >>= fun _ =>
      replaceClaims d operator userId (fun user => mergedClaims user.claims claims)
        "merge_claims") := rfl

/-! ## Sessions -/

/-- SOURCE: core/src/domain/session.rs:107-118 -/
structure SessionSummary : Type where
  id : String
  provider : String
  userAgent : Option String
  ipAddress : Option String
  location : Option SessionLocation
  createdAt : Instant
  expiresAt : Instant

/-- SOURCE: core/src/domain/session.rs:137-149 -/
def SessionSummary.ofSession (s : Session) : SessionSummary where
  id := sessionIdForFamily s.familyId
  provider := s.provider
  userAgent := s.userAgent
  ipAddress := s.ipAddress
  location := s.location
  createdAt := s.createdAt
  expiresAt := s.expiresAt

/-- SOURCE: core/src/service/user_admin.rs:116-137 -/
def adminListUserSessions (userId : String) :
    AdminService Error (Option (List SessionSummary)) := do
  match ← administered (Port.getUserById userId) with
  | none => .done none
  | some user =>
    if user.status = .deleted then .done none
    else do
      let now ← administered Port.now
      let sessions ← Port.listLiveSessions userId now maxListedSessions
      .done (some ((sessions.filter fun s => !s.familyId.isEmpty).map
        (SessionSummary.ofSession sessionIdForFamily)))

/-! ## The service -/

/-- A request to the service. -/
inductive AppRequest : Type
  | admin (request : AdminRequest)
  | createUser (operator : OperatorPrincipal) (newUser : NewUser)
  | getUser (userId : String)
  | getClaims (userId : String)
  | setClaims (operator : OperatorPrincipal) (userId : String) (claims : Table String Value)
  | mergeClaims (operator : OperatorPrincipal) (userId : String) (claims : Table String Value)
  | clearClaims (operator : OperatorPrincipal) (userId : String)
  | listUserSessions (userId : String)

/-- What a request returns. -/
inductive AppReply : Type
  | admin (reply : AdminReply)
  | created (user : User)
  | user (user : Option User)
  | claims (claims : Table String Value)
  | claimsWritten
  | sessions (sessions : Option (List SessionSummary))

section Service

variable {Bytes : Type} (W : Wire Bytes) (K : KeyManager Bytes)

/-- The call a request starts. -/
def answerApp : AppRequest → AdminService Error AppReply
  | .admin request => .admin <$> answerAdmin d sessionIdForFamily W K request
  | .createUser operator newUser => .created <$> administered (adminCreateUser d operator newUser)
  | .getUser userId => .user <$> administered (adminGetUser userId)
  | .getClaims userId => .claims <$> administered (adminGetClaims userId)
  | .setClaims operator userId claims =>
    (fun _ => .claimsWritten) <$> administered (adminSetClaims d operator userId claims)
  | .mergeClaims operator userId claims =>
    (fun _ => .claimsWritten) <$> administered (adminMergeClaims d operator userId claims)
  | .clearClaims operator userId =>
    (fun _ => .claimsWritten) <$> administered (adminClearClaims d operator userId)
  | .listUserSessions userId => .sessions <$> adminListUserSessions sessionIdForFamily userId

/-- The state of a running service. -/
abbrev AppPool : Type := Pool AdminAns AppRequest (Fault Error) AppReply World

/-- One scheduling step of the service. -/
abbrev AppAct : Type := Act AppRequest Choice Drift

/-- The world of the service together with its history. -/
abbrev AppMoment : Type := Moment AdminAns AppRequest World

/-- The service as a transition system. -/
def appService : System AppPool AppAct :=
  Pool.system (adminSemantics d) (answerApp d sessionIdForFamily W K)

/-- The service before any request, on an empty store. -/
def AppPool.start (clock : Instant) : AppPool := Pool.initial (World.empty clock)

end Service

end OidcExchange
