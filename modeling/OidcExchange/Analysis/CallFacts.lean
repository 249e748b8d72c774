import OidcExchange.Interleaving.Discipline
import OidcExchange.Program.Requests

/-!
# What a call has done when it acts

A call of the service writes the session store or a user only after it has read and
drawn certain things. This module says, for every operation that writes, what the
past of the call then contains (`Ready`), and what the past contains when the call
ends (`Outcome`). Both speak of the call alone; that the programs comply is proved
flow by flow in the modules after this one.
-/

set_option autoImplicit false

namespace OidcExchange

open Storage Interleaving Service

/-- What a call has performed so far, newest first. -/
abbrev Past : Type := List (Performed Ans)

/-- The operation writes neither sessions nor a stored user. -/
def Op.Quiet : Op → Prop
  | .rotateRefreshToken _ _ => False
  | .storeRefreshToken _ => False
  | .revokeSession _ => False
  | .revokeFamily _ => False
  | .revokeAllUserSessions _ => False
  | .writeUser _ _ _ => False
  | _ => True

/-- The operation tries to put a live session into the store. -/
def Op.Installs : Op → Prop
  | .rotateRefreshToken _ _ => True
  | .storeRefreshToken _ => True
  | _ => False

/-- A quiet operation installs nothing. -/
theorem Op.Quiet.not_installs {o : Op} (h : o.Quiet) : ¬ o.Installs := by
  cases o <;> simp_all [Op.Quiet, Op.Installs]

namespace Past

/-- The first thing a call performed. -/
def first (past : Past) : Option (Performed Ans) := past.getLast?

/-- The call has not tried to install a session. -/
def NoInstall (past : Past) : Prop := ∀ e ∈ past, ¬ e.1.Installs

@[simp] theorem first_singleton (e : Performed Ans) : first [e] = some e := rfl

/-- The first thing a call performed stays the first. -/
theorem first_cons {past : Past} {e : Performed Ans} (h : first past = some e)
    (e' : Performed Ans) : first (e' :: past) = some e := by
  cases past with
  | nil => exact absurd h (by simp [first])
  | cons a rest => exact h

theorem first_append {past : Past} {e : Performed Ans} (h : first past = some e) (more : Past) :
    first (more ++ past) = some e := by
  induction more with
  | nil => exact h
  | cons a more ih => exact first_cons ih a

theorem mem_of_first {past : Past} {e : Performed Ans} (h : first past = some e) : e ∈ past :=
  List.mem_of_getLast? h

theorem first_since {P : Op → Prop} {past past' : Past} {e : Performed Ans}
    (h : first past = some e) (hsince : Program.Since P past past') : first past' = some e := by
  obtain ⟨more, rfl, -⟩ := hsince
  exact first_append h more

@[simp] theorem noInstall_nil : NoInstall [] := by simp [NoInstall]

@[simp] theorem noInstall_cons (e : Performed Ans) (past : Past) :
    NoInstall (e :: past) ↔ ¬ e.1.Installs ∧ NoInstall past := by
  simp [NoInstall]

theorem NoInstall.since {past past' : Past} (h : NoInstall past)
    (hsince : Program.Since Op.Quiet past past') : NoInstall past' := by
  obtain ⟨more, rfl, hall⟩ := hsince
  intro e he
  rcases List.mem_append.mp he with he | he
  · exact (hall e he).not_installs
  · exact h e he

end Past

open Past

variable (d : Deployment)

/-! ## Redeeming a refresh token -/

/-- The first thing the call learned is that the presented token is the live generation
`live`, or was replaced by it so recently that grace is granted. -/
def Presented (req : RefreshRequest) (past : Past) (live : Session) : Prop :=
  first past = some ⟨.resolveRefreshToken (d.digest req.refreshToken), .ok (.live live)⟩ ∨
    ∃ retiredAt now,
      first past = some ⟨.resolveRefreshToken (d.digest req.refreshToken),
        .ok (.superseded live retiredAt)⟩ ∧
      ⟨.now, now⟩ ∈ past ∧ withinGrace now retiredAt d.refreshRotationGrace = true

/-- The family a replacement of `live` gets. -/
def FamilyOf (past : Past) (live : Session) (familyId : String) : Prop :=
  isValidFamilyId familyId = true ∧
    ((live.familyId = "" ∧ ⟨.newFamilyId, familyId⟩ ∈ past) ∨
      (live.familyId ≠ "" ∧ familyId = live.familyId))

/-- The call has minted `r` as the next generation after `live` from the draw `raw`. -/
def Minted (past : Past) (live : Session) (raw : String) (r : Session) : Prop :=
  ∃ familyId rotatedAt,
    r = replacementOf live (d.digest raw) familyId (live.generation + 1) rotatedAt ∧
    ⟨.randomToken, raw⟩ ∈ past ∧ FamilyOf past live familyId ∧
    (d.overflowChecks = true → live.generation.toNat + 1 < 2 ^ 32)

/-- The call has seen the user `userId` active. -/
def SawActive (past : Past) (userId : String) : Prop :=
  ∃ user, ⟨.getUserById userId, .ok (some user)⟩ ∈ past ∧ user.status = .active

/-- What a refresh has done when it swaps the generation `h` for `r`. -/
structure RotateReady (req : RefreshRequest) (past : Past) (h : String) (r : Session) : Prop where
  rotation : d.refreshRotation = true
  minted : ∃ live raw, Presented d req past live ∧ h = live.refreshTokenHash ∧
    Minted d past live raw r ∧ SawActive past live.userId
  alone : NoInstall past

/-- The first thing the call learned is that the presented token is a retired one of
family `familyId`, superseded at `retiredAt` or long gone. -/
def ReusePresented (req : RefreshRequest) (past : Past) (familyId userId : String) : Prop :=
  (∃ retiredAt, first past = some ⟨.resolveRefreshToken (d.digest req.refreshToken),
      .ok (.retired familyId userId retiredAt)⟩) ∨
    ∃ live retiredAt now,
      first past = some ⟨.resolveRefreshToken (d.digest req.refreshToken),
        .ok (.superseded live retiredAt)⟩ ∧
      live.familyId = familyId ∧ live.userId = userId ∧ ⟨.now, now⟩ ∈ past ∧
      withinGrace now retiredAt d.refreshRotationGrace = false

/-- What a refresh has done when it revokes a family. -/
structure ReuseReady (req : RefreshRequest) (past : Past) (familyId : String) : Prop where
  rotation : d.refreshRotation = true
  presented : ∃ userId, ReusePresented d req past familyId userId
  valid : isValidFamilyId familyId = true

/-- The call redeemed the presented token: it won the swap from `live` to `r`, and the
response carries the token of `r` and names its family. -/
structure Redeemed (req : RefreshRequest) (past : Past) (response : TokenResponse) : Prop where
  won : ∃ live raw r, Presented d req past live ∧ Minted d past live raw r ∧
    ⟨.rotateRefreshToken live.refreshTokenHash r, .ok true⟩ ∈ past ∧
    response.refreshToken = some raw ∧ response.accessToken.claims.sid = r.familyId

/-- What a refresh has done when it ends, with rotation on. -/
structure RefreshOutcome (req : RefreshRequest) (past : Past)
    (result : Except (Fault Error) Response) : Prop where
  /-- Only a won swap returns tokens. -/
  redeemed : ∀ response, result = .ok response →
    ∃ tokens, response = .tokens tokens ∧ Redeemed d req past tokens
  /-- A token that is presented is looked up first. -/
  resolved : req.refreshToken ≠ "" →
    ∃ ans, first past = some ⟨.resolveRefreshToken (d.digest req.refreshToken), ans⟩
  /-- A call that found its token superseded has read the clock. -/
  clocked : ∀ live retiredAt, first past = some ⟨.resolveRefreshToken (d.digest req.refreshToken),
    .ok (.superseded live retiredAt)⟩ → ∃ now, ⟨.now, now⟩ ∈ past
  /-- A call that learned of a reuse has revoked the family. -/
  reused : ∀ familyId userId, ReusePresented d req past familyId userId →
    isValidFamilyId familyId = true → userId ≠ "" →
    (∃ live, Presented d req past live) ∨ ∃ ans, ⟨.revokeFamily familyId, ans⟩ ∈ past

/-! ## Exchanging credentials -/

/-- The call has seen `user` active, by finding it or by creating it. -/
def Admitted (past : Past) (user : User) : Prop :=
  (∃ externalId provider,
      ⟨.getUserByExternalId externalId provider, .ok (some user)⟩ ∈ past ∧
      user.status = .active) ∨
    ∃ newUser, ⟨.createUser newUser, .ok user⟩ ∈ past

/-- What an exchange has done when it stores the session `s`. -/
structure StoreReady (req : ExchangeRequest) (past : Past) (s : Session) : Prop where
  minted : ∃ user raw familyId expiresAt createdAt,
    s = firstGeneration req user (d.digest raw) familyId expiresAt createdAt ∧
    Admitted past user ∧ ⟨.randomToken, raw⟩ ∈ past ∧ ⟨.newFamilyId, familyId⟩ ∈ past ∧
    isValidFamilyId familyId = true
  alone : NoInstall past

/-- The call has stored a session under `h`. -/
def StoredHere (past : Past) (h : String) : Prop :=
  ∃ s, ⟨.storeRefreshToken s, .ok ()⟩ ∈ past ∧ s.refreshTokenHash = h

/-! ## Updating a user -/

/-- The user and the patch an administrative request applies. -/
def Request.patch? : Request → Option (String × UserPatch)
  | .refresh _ => none
  | .exchange _ => none
  | .adminUpdateUser _ userId patch => some (userId, patch)
  | .adminDeleteUser _ userId => some (userId, deletePatch)

/-- The record the call read first, on which it validated its patch. -/
def Validated (past : Past) (userId : String) (patch : UserPatch) (current : User) : Prop :=
  first past = some ⟨.getUserById userId, .ok (some current)⟩ ∧
    ∀ target, patch.status = some target → current.status.canTransitionTo target = true

/-- The call has not written the user yet. -/
def Unwritten (past : Past) : Prop :=
  ∀ userId version user, ⟨.writeUser userId version user, .ok true⟩ ∉ past

/-- What an update has done when it writes `user` over version `version`. -/
structure WriteReady (userId : String) (patch : UserPatch) (past : Past) (version : ℕ)
    (user : User) : Prop where
  validated : ∃ current, Validated past userId patch current
  patched : ∃ read now, ⟨.getUserById userId, .ok (some read)⟩ ∈ past ∧
    version = read.version ∧ user = applyPatch patch now read
  unwritten : Unwritten past

/-- The call has written the patched user. -/
def Wrote (past : Past) (userId : String) (patch : UserPatch) : Prop :=
  ∃ read now version, ⟨.writeUser userId version (applyPatch patch now read), .ok true⟩ ∈ past

/-- What an update has done when it ends the sessions of the user. -/
structure EndReady (userId : String) (patch : UserPatch) (past : Past) : Prop where
  validated : ∃ current, Validated past userId patch current ∧
    enteredSuspendedOrDeleted current.status patch = true
  wrote : Wrote past userId patch

/-- What an administrative update has done when it ends. -/
structure PatchOutcome (userId : String) (patch : UserPatch) (past : Past)
    (result : Except (Fault Error) Response) : Prop where
  /-- A call that returns has written the patch and, when the status it first read
  differs from a target that ends sessions, has revoked them all. -/
  applied : ∀ response, result = .ok response →
    ∃ current, Validated past userId patch current ∧ Wrote past userId patch ∧
      (enteredSuspendedOrDeleted current.status patch = true →
        ∃ count, ⟨.revokeAllUserSessions userId, .ok count⟩ ∈ past)

/-! ## The discipline of the service -/

/-- What the past of a call contains when it performs an operation. -/
def Ready (request : Request) (past : Past) : Op → Prop
  | .rotateRefreshToken h r => ∃ req, request = .refresh req ∧ RotateReady d req past h r
  | .storeRefreshToken s => ∃ req, request = .exchange req ∧ StoreReady d req past s
  | .revokeSession h => ∃ req, request = .exchange req ∧ StoredHere past h
  | .revokeFamily f => ∃ req, request = .refresh req ∧ ReuseReady d req past f
  | .revokeAllUserSessions u => ∃ patch, request.patch? = some (u, patch) ∧ EndReady u patch past
  | .writeUser u v x => ∃ patch, request.patch? = some (u, patch) ∧ WriteReady u patch past v x
  | _ => True

/-- What the past of a call contains when it ends. -/
def Outcome (request : Request) (past : Past) (result : Except (Fault Error) Response) : Prop :=
  match request with
  | .refresh req => d.refreshRotation = true → RefreshOutcome d req past result
  | .exchange _ => True
  | .adminUpdateUser _ userId patch => PatchOutcome userId patch past result
  | .adminDeleteUser _ userId => PatchOutcome userId deletePatch past result

/-- A quiet operation is always admitted. -/
theorem ready_of_quiet (request : Request) (past : Past) (o : Op) (h : o.Quiet) :
    Ready d request past o := by
  cases o <;> simp_all [Op.Quiet, Ready]

/-! ## Steps every flow takes -/

section Steps

variable {ε α β : Type} {ready : Past → Op → Prop} {past : Past}
  {post : Past → Except (Fault ε) α → Prop}

@[simp] theorem obeys_fail (e : ε) :
    (fail e : Service ε α).Obeys ready post past ↔ post past (.error (.error e)) := Iff.rfl

/-- An assertion either holds and the call goes on, or the call panics. -/
theorem obeys_assert {b : Bool} {f : Unit → Service ε α}
    (htrue : b = true → (f ()).Obeys ready post past)
    (hfalse : b = false → post past (.error .panic)) :
    (Service.assert b >>= f).Obeys ready post past := by
  cases b with
  | true => exact htrue rfl
  | false => exact hfalse rfl

@[simp] theorem assert_only {P : Op → Prop} (b : Bool) :
    (Service.assert b : Service ε Unit).Only P := by
  cases b <;> trivial

@[simp] theorem expect_only {P : Op → Prop} (x : Option β) :
    (Service.expect x : Service ε β).Only P := by
  cases x <;> trivial

@[simp] theorem fail_only {P : Op → Prop} (e : ε) : (fail e : Service ε α).Only P := trivial

end Steps

/-! ## Quiet parts -/

theorem addU64_only {ε : Type} {P : Op → Prop} (a b : UInt64) :
    (addU64 d a b : Service ε UInt64).Only P := by
  unfold addU64
  split <;> simp

/-- A sum either fits and the call goes on, or the call panics. -/
theorem obeys_addU64 {ε α : Type} {ready : Past → Op → Prop} {past : Past}
    {post : Past → Except (Fault ε) α → Prop} {a b : UInt64} {f : UInt64 → Service ε α}
    (hfits : ¬ (d.overflowChecks = true ∧ 2 ^ 64 ≤ a.toNat + b.toNat) →
      (f (a + b)).Obeys ready post past)
    (hoverflow : d.overflowChecks = true ∧ 2 ^ 64 ≤ a.toNat + b.toNat →
      post past (.error .panic)) :
    (addU64 d a b >>= f).Obeys ready post past := by
  unfold addU64
  split
  · rename_i h
    exact hoverflow h
  · rename_i h
    exact hfits h

theorem emitMandatoryAuditEvent_only_of {P : Op → Prop} {event : AuditEvent}
    (hemit : P (.emit event)) : (emitMandatoryAuditEvent d event).Only P := by
  refine ⟨hemit, ?_⟩
  rintro ((error | _) | _)
  · show (if d.durability.isEnforce = true then _ else _ : Service Error Unit).Only P
    split <;> trivial
  · trivial
  · trivial

theorem emitMandatoryAuditEvent_only (event : AuditEvent) :
    (emitMandatoryAuditEvent d event).Only Op.Quiet :=
  emitMandatoryAuditEvent_only_of d trivial

theorem emitAudit_only_of {P : Op → Prop} {event : AuditEvent} (hemit : P (.emit event)) :
    (emitAudit d event).Only P := by
  unfold emitAudit
  split
  · trivial
  · refine ⟨hemit, ?_⟩
    rintro ((error | _) | _)
    · show (if event.severity.level ≤ d.blockingThreshold.level then _ else _ :
        Service Error Unit).Only P
      split <;> trivial
    · trivial
    · trivial

theorem emitAudit_only (event : AuditEvent) : (emitAudit d event).Only Op.Quiet :=
  emitAudit_only_of d trivial

/-- Building an access token reads the clock and asks for a signature. -/
theorem buildAccessToken_only_of {P : Op → Prop} (hnow : P .now)
    (hsign : ∀ algorithm type keyId claims, P (.sign algorithm type keyId claims))
    (user : User) (familyId : String) : (buildAccessToken d user familyId).Only P := by
  refine (assert_only _).bind fun _ => (assert_only _).bind fun _ => ?_
  refine ⟨hnow, fun now => (addU64_only d _ _).bind fun exp => ?_⟩
  refine ⟨hsign _ _ _ _, ?_⟩
  rintro (e | signature) <;> trivial

theorem buildAccessToken_only (user : User) (familyId : String) :
    (buildAccessToken d user familyId).Only Op.Quiet :=
  buildAccessToken_only_of d trivial (fun _ _ _ _ => trivial) user familyId

end OidcExchange
