import Mathlib.Data.List.Sort
import OidcExchange.Program.Claims
import OidcExchange.Program.Service

/-!
# Administrative updates of a user

The validated patch that updating and deleting a user share, and the versioned
read-modify-write with a bounded retry behind `update_user`.
-/

set_option autoImplicit false

namespace OidcExchange

open Storage Interleaving Service

/-- The lowest reserved key of a claims map. SOURCE: core/src/service/claims.rs:72-76 -/
def findReservedClaimKey (claims : Table String Value) : Option String :=
  (claims.keys.insertionSort (· ≤ ·)).find? isReservedClaim

/-- A claims map with a reserved name is refused before anything is read.
SOURCE: core/src/service/user_admin.rs:66-76 -/
def ensureNoReservedClaims (claims : Table String Value) : Service Error Unit :=
  match findReservedClaimKey claims with
  | some key => fail (.invalidRequest ("claim name \"" ++ key ++
      "\" is reserved by the token protocol and cannot be written"))
  | none => .done ()

/-! ## The versioned update -/

/-- SOURCE: adapters/src/sqlite/mod.rs:235 -/
def updateMaxAttempts : ℕ := 5

/-- The record with the patched fields, stamped and one version on.
SOURCE: adapters/src/sqlite/mod.rs:602-620 -/
def applyPatch (patch : UserPatch) (now : Instant) (user : User) : User where
  id := user.id
  externalId := user.externalId
  provider := user.provider
  email := patch.email.orElse fun _ => user.email
  displayName := patch.displayName.orElse fun _ => user.displayName
  metadata := patch.metadata.getD user.metadata
  claims := patch.claims.getD user.claims
  status := patch.status.getD user.status
  version := user.version + 1
  createdAt := user.createdAt
  updatedAt := now

/-- One read-patch-write cycle; no value when another writer was faster.
SOURCE: adapters/src/sqlite/mod.rs:592-663 -/
def updateAttempt (userId : String) (patch : UserPatch) : Service Error (Option User) := do
  match ← Port.getUserById userId with
  | none => fail (.storeError ("user not found: " ++ userId))
  | some read => do
    let now ← Port.now
    let user := applyPatch patch now read
    let written ← Port.writeUser userId read.version user
    .done (if written then some user else none)

/-- Retry a cycle while the budget lasts. SOURCE: adapters/src/sqlite/mod.rs:242-260 -/
def retryOnVersionConflict (userId : String) (attempt : Service Error (Option User)) :
    ℕ → Service Error User
  | 0 => fail (.conflict ("update_user for " ++ userId ++ " exhausted the retry budget (" ++
      updateMaxAttempts.repr ++ " attempts) racing concurrent version conflicts"))
  | budget + 1 => do
    match ← attempt with
    | some user => .done user
    | none => retryOnVersionConflict userId attempt budget

/-- SOURCE: adapters/src/sqlite/mod.rs:590-664 -/
def updateUser (userId : String) (patch : UserPatch) : Service Error User :=
  retryOnVersionConflict userId (updateAttempt userId patch) updateMaxAttempts

/-! ## The service -/

variable (d : Deployment)

/-- Whether a patch moves the user into a status that ends its sessions.
SOURCE: core/src/service/user_admin.rs:272-279 -/
def enteredSuspendedOrDeleted (current : UserStatus) (patch : UserPatch) : Bool :=
  match patch.status with
  | some target => target != current && (target == .suspended || target == .deleted)
  | none => false

/-- The claims of a patch are checked like every written claim.
SOURCE: core/src/service/user_admin.rs:246-251 -/
def ensurePatchClaims (patch : UserPatch) : Service Error Unit :=
  match patch.claims with
  | some claims => ensureNoReservedClaims claims
  | none => .done ()

/-- A status change must be legal from the status that was read.
SOURCE: core/src/service/user_admin.rs:261-270 -/
def ensureTransition (current : UserStatus) (patch : UserPatch) : Service Error Unit :=
  match patch.status with
  | some target =>
    if current.canTransitionTo target then .done ()
    else fail (.invalidRequest ("invalid status transition: " ++ current.debugName ++ " -> " ++
      target.debugName))
  | none => .done ()

/-- Fetch, validate, write, and end the sessions when the status changed to `Suspended`
or `Deleted`. SOURCE: core/src/service/user_admin.rs:245-285 -/
def applyValidatedPatch (userId : String) (patch : UserPatch) : Service Error User := do
  ensurePatchClaims patch
  match ← Port.getUserById userId with
  | none => fail (.notFound ("user not found: " ++ userId))
  | some current => do
    ensureTransition current.status patch
    let user ← updateUser userId patch
    if enteredSuspendedOrDeleted current.status patch then do
      let _ ← Port.revokeAllUserSessions userId
      .done user
    else .done user

/-- Stamp the acting operator onto an event. SOURCE: core/src/service/user_admin.rs:40-54 -/
def attributed (event : AuditEvent) (operator : OperatorPrincipal) :
    Service Error AuditEvent := do
  assert operator.invariants
  assert event.operator.isNone
  .done { event with operator := some operator }

/-- SOURCE: core/src/service/user_admin.rs:568-590 -/
def emitAdminMutationAuditEvent (kind : AdminMutationKind) (user : User)
    (outcome : AuditOutcome) (operator : OperatorPrincipal) : Service Error Unit := do
  let event ← attributed ((SecurityEvent.adminMutation kind).intoAuditEvent outcome
    (some user.id) (some user.provider) .unknown none) operator
  emitMandatoryAuditEvent d event

/-- The names of the fields a patch sets. SOURCE: core/src/service/user_admin.rs:300-315 -/
def changedFields (patch : UserPatch) : List String :=
  (if patch.email.isSome then ["email"] else []) ++
    (if patch.displayName.isSome then ["display_name"] else []) ++
    (if patch.metadata.isSome then ["metadata"] else []) ++
    (if patch.claims.isSome then ["claims"] else []) ++
    (if patch.status.isSome then ["status"] else [])

/-- A notification whose failure is only logged. -/
def notifyQuietly (notice : UserSyncNotice) : Service Error Unit := do
  match ← Port.notify notice with
  | .error .panic => .raise .panic
  | _ => .done ()

/-- SOURCE: core/src/service/user_admin.rs:294-337 -/
def adminUpdateUser (operator : OperatorPrincipal) (userId : String) (patch : UserPatch) :
    Service Error User := do
  let user ← applyValidatedPatch userId patch
  let mutationKind : AdminMutationKind :=
    if patch.status = some .suspended then .suspended else .updated
  emitAdminMutationAuditEvent d mutationKind user .success operator
  notifyQuietly (.updated user (changedFields patch))
  .done user

/-- The patch a deletion applies. SOURCE: core/src/service/user_admin.rs:353-359 -/
def deletePatch : UserPatch where
  email := none
  displayName := none
  metadata := none
  claims := none
  status := some .deleted

/-- SOURCE: core/src/service/user_admin.rs:347-374 -/
def adminDeleteUser (operator : OperatorPrincipal) (userId : String) : Service Error Unit := do
  let user ← applyValidatedPatch userId deletePatch
  emitAdminMutationAuditEvent d .deleted user .success operator
  notifyQuietly (.deleted userId)

/-! ## Merging claims into a user

The administrative merge: the service reads the claims, merges the new ones in memory and
writes the whole map through the versioned update, which reads the user again.
-/

section

open Storage Interleaving Service

/-- SOURCE: core/src/service/user_admin.rs:449-452 -/
def mergedClaims (existing claims : Table String Value) : Table String Value :=
  existing.merge claims fun _ value => some value

/-- SOURCE: core/src/service/user_admin.rs:454-460 -/
def claimsPatch (claims : Table String Value) : UserPatch where
  email := none
  displayName := none
  metadata := none
  claims := some claims
  status := none

variable (d : Deployment)

/-- The record of a claims mutation. SOURCE: core/src/service/user_admin.rs:509-566 -/
def emitClaimsAuditEvent (operator : OperatorPrincipal) (user : User) (operation : String) :
    Service Error Unit := do
  let event ← attributed ((SecurityEvent.adminMutation .updated).intoAuditEvent .success
    (some user.id) (some user.provider) .unknown none) operator
  emitMandatoryAuditEvent d
    { event with detail := event.detail.insert "operation" (.string operation) }

/-- SOURCE: core/src/service/user_admin.rs:437-470 -/
def adminMergeClaims (operator : OperatorPrincipal) (userId : String)
    (claims : Table String Value) : Service Error Unit := do
  ensureNoReservedClaims claims
  match ← Port.getUserById userId with
  | none => fail (.notFound ("user not found: " ++ userId))
  | some user => do
    let _ ← updateUser userId (claimsPatch (mergedClaims user.claims claims))
    emitClaimsAuditEvent d operator user "merge_claims"

/-! ## Merges on one user -/

/-- A merge that an operator asks for. -/
structure MergeRequest : Type where
  operator : OperatorPrincipal
  claims : Table String Value

/-- Any number of merges into the claims of one user, and no other writer. -/
abbrev MergePool : Type := Pool Ans MergeRequest (Fault Error) Unit World

/-- The moments of such a pool. -/
abbrev MergeMoment : Type := Moment Ans MergeRequest World

/-- The merges into one user as a transition system. -/
def mergeService (userId : String) : System MergePool (Act MergeRequest Choice Drift) :=
  Pool.system (portSemantics d) fun request =>
    adminMergeClaims d request.operator userId request.claims

end

end OidcExchange
