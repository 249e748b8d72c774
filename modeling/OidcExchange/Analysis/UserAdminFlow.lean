import OidcExchange.Analysis.CallFacts

/-!
# The administrative flow complies

An update reads the user, validates its patch on what it read, and writes only the
patch applied to a record it read; it ends the sessions only after the write, and
always when the status it validated differs from a target that ends sessions.
-/

set_option autoImplicit false

namespace OidcExchange

open Storage Interleaving Service Past
open Program (Since)

variable (d : Deployment) {past : Past} {request : Request} {userId : String} {patch : UserPatch}

/-- A patch that passed has a legal target. -/
theorem ensureTransition_obeys {ready : Past → Op → Prop} (current : UserStatus)
    (patch : UserPatch) :
    (ensureTransition current patch).Obeys ready (fun past' result => past' = past ∧
      (result = .ok () → ∀ target, patch.status = some target →
        current.canTransitionTo target = true)) past := by
  unfold ensureTransition
  split
  · rename_i target htarget
    split
    · rename_i hlegal
      refine ⟨rfl, fun _ target' h => ?_⟩
      obtain rfl : target = target' := by simpa [htarget] using h
      exact hlegal
    · exact ⟨rfl, by simp⟩
  · rename_i hnone
    exact ⟨rfl, fun _ target h => by simp [hnone] at h⟩

theorem ensurePatchClaims_only {P : Op → Prop} : (ensurePatchClaims patch).Only P := by
  unfold ensurePatchClaims ensureNoReservedClaims
  split
  · split <;> trivial
  · trivial

/-- A program that performs nothing leaves the past as it is. -/
theorem ensurePatchClaims_obeys {ready : Past → Op → Prop} (patch : UserPatch) :
    (ensurePatchClaims patch).Obeys ready (fun past' _ => past' = past) past := by
  unfold ensurePatchClaims ensureNoReservedClaims
  split
  · split <;> rfl
  · rfl

/-! ## The versioned update -/

/-- What is known before a cycle of the update: the patch was validated, and nothing has
been written. -/
structure Updating (userId : String) (patch : UserPatch) (current : User) (past : Past) :
    Prop where
  validated : Validated past userId patch current
  unwritten : Unwritten past

theorem Validated.cons {current : User} (h : Validated past userId patch current)
    (e : Performed Ans) : Validated (e :: past) userId patch current :=
  ⟨first_cons h.1 e, h.2⟩

theorem Unwritten.cons {e : Performed Ans} (h : Unwritten past)
    (hne : ∀ u v x, e ≠ ⟨.writeUser u v x, .ok true⟩) : Unwritten (e :: past) := by
  intro u v x hmem
  rcases List.mem_cons.mp hmem with he | hmem
  · exact hne u v x he.symm
  · exact h u v x hmem

/-- One cycle writes at most once, and a cycle that yields a user has written it. -/
theorem updateAttempt_obeys {current : User} (hpatch : request.patch? = some (userId, patch))
    (h : Updating userId patch current past) :
    (updateAttempt userId patch).Obeys (Ready d request)
      (fun past' result => match result with
        | .ok (some _) => Validated past' userId patch current ∧ Wrote past' userId patch
        | .ok none => Updating userId patch current past'
        | .error _ => True) past := by
  have hready := ready_of_quiet d request
  refine ⟨hready _ _ trivial, ?_⟩
  rintro (e | (_ | read))
  · trivial
  · trivial
  · refine ⟨hready _ _ trivial, fun now => ?_⟩
    have hvalidated := (h.validated.cons ⟨.getUserById userId, .ok (some read)⟩).cons ⟨.now, now⟩
    have hunwritten : Unwritten (⟨.now, now⟩ :: ⟨.getUserById userId, .ok (some read)⟩ :: past) :=
      (h.unwritten.cons (by simp)).cons (by simp)
    refine ⟨⟨patch, hpatch, ⟨current, hvalidated⟩, ⟨read, now, by simp, rfl, rfl⟩, hunwritten⟩, ?_⟩
    rintro (e | (_ | _))
    · trivial
    · exact ⟨hvalidated.cons _, hunwritten.cons (by simp)⟩
    · exact ⟨hvalidated.cons _, read, now, read.version, List.mem_cons_self ..⟩

/-- The update retries a cycle while the budget lasts, and a user it yields was
written. -/
theorem retryOnVersionConflict_obeys {current : User}
    (hpatch : request.patch? = some (userId, patch)) (budget : ℕ)
    (h : Updating userId patch current past) :
    (retryOnVersionConflict userId (updateAttempt userId patch) budget).Obeys (Ready d request)
      (fun past' result => ∀ user, result = .ok user →
        Validated past' userId patch current ∧ Wrote past' userId patch) past := by
  induction budget generalizing past with
  | zero => simp [retryOnVersionConflict]
  | succ budget ih =>
    refine (updateAttempt_obeys d hpatch h).bind ?_ (by simp)
    rintro past' (_ | user) hpost
    · exact ih hpost
    · rintro _ ⟨⟩
      exact hpost

/-! ## The validated patch -/

/-- What a call that applies a patch has done when it yields a user. -/
def Applied (userId : String) (patch : UserPatch) (past : Past) : Prop :=
  ∃ current, Validated past userId patch current ∧ Wrote past userId patch ∧
    (enteredSuspendedOrDeleted current.status patch = true →
      ∃ count, ⟨.revokeAllUserSessions userId, .ok count⟩ ∈ past)

theorem applyValidatedPatch_obeys (hpatch : request.patch? = some (userId, patch)) :
    (applyValidatedPatch userId patch).Obeys (Ready d request)
      (fun past' result => ∀ user, result = .ok user → Applied userId patch past') [] := by
  have hready := ready_of_quiet d request
  refine (ensurePatchClaims_obeys patch).bind ?_ (by simp)
  rintro _ _ rfl
  refine ⟨hready _ _ trivial, ?_⟩
  rintro (e | (_ | current))
  · rintro _ ⟨⟩
  · rintro _ ⟨⟩
  · refine (ensureTransition_obeys current.status patch).bind ?_ (by simp)
    rintro _ _ ⟨rfl, hlegal⟩
    have hupdating : Updating userId patch current [⟨.getUserById userId, .ok (some current)⟩] :=
      ⟨⟨rfl, hlegal rfl⟩, by simp [Unwritten]⟩
    refine (retryOnVersionConflict_obeys d hpatch updateMaxAttempts hupdating).bind ?_ (by simp)
    intro past₁ user hwrote
    obtain ⟨hvalidated, hwritten⟩ := hwrote user rfl
    show (if enteredSuspendedOrDeleted current.status patch = true then _ else _ :
      Service Error User).Obeys _ _ _
    split
    · rename_i hends
      refine ⟨⟨patch, hpatch, ⟨current, hvalidated, hends⟩, hwritten⟩, ?_⟩
      rintro (e | count)
      · rintro _ ⟨⟩
      · rintro _ _
        obtain ⟨read, now, version, hmem⟩ := hwritten
        exact ⟨current, hvalidated.cons _, ⟨read, now, version, List.mem_cons_of_mem _ hmem⟩,
          fun _ => ⟨count, List.mem_cons_self ..⟩⟩
    · rename_i hstays
      rintro _ _
      exact ⟨current, hvalidated, hwritten, fun h => absurd h hstays⟩

/-! ## The two requests -/

theorem Applied.since {P : Op → Prop} {past' : Past} (h : Applied userId patch past)
    (hsince : Since P past past') : Applied userId patch past' := by
  obtain ⟨current, hvalidated, ⟨read, now, version, hmem⟩, hends⟩ := h
  refine ⟨current, ⟨first_since hvalidated.1 hsince, hvalidated.2⟩,
    ⟨read, now, version, hsince.mem hmem⟩, fun h => ?_⟩
  obtain ⟨count, hcount⟩ := hends h
  exact ⟨count, hsince.mem hcount⟩

theorem emitAdminMutationAuditEvent_only (kind : AdminMutationKind) (user : User)
    (outcome : AuditOutcome) (operator : OperatorPrincipal) :
    (emitAdminMutationAuditEvent d kind user outcome operator).Only Op.Quiet := by
  refine Program.Only.bind ?_ fun event => emitMandatoryAuditEvent_only d event
  exact (assert_only _).bind fun _ => (assert_only _).bind fun _ => trivial

theorem notifyQuietly_only (notice : UserSyncNotice) : (notifyQuietly notice).Only Op.Quiet := by
  refine ⟨trivial, ?_⟩
  rintro ((error | _) | _) <;> trivial

/-- **Every administrative update complies.** -/
theorem adminUpdateUser_obeys (operator : OperatorPrincipal)
    (hpatch : request.patch? = some (userId, patch)) :
    (adminUpdateUser d operator userId patch).Obeys (Ready d request)
      (fun past' result => ∀ user, result = .ok user → Applied userId patch past') [] := by
  have hready := ready_of_quiet d request
  refine (applyValidatedPatch_obeys d hpatch).bind ?_ (by simp)
  intro past₁ user happlied
  refine ((emitAdminMutationAuditEvent_only d _ _ _ _).obeys hready).bind ?_ (by simp)
  intro past₂ _ h₂
  refine ((notifyQuietly_only _).obeys hready).bind ?_ (by simp)
  intro past₃ _ h₃ _ _
  exact (happlied user rfl).since (h₂.trans h₃)

/-- **Every administrative deletion complies.** -/
theorem adminDeleteUser_obeys (operator : OperatorPrincipal)
    (hpatch : request.patch? = some (userId, deletePatch)) :
    (adminDeleteUser d operator userId).Obeys (Ready d request)
      (fun past' result => ∀ u, result = .ok u → Applied userId deletePatch past') [] := by
  have hready := ready_of_quiet d request
  refine (applyValidatedPatch_obeys d hpatch).bind ?_ (by simp)
  intro past₁ user happlied
  refine ((emitAdminMutationAuditEvent_only d _ _ _ _).obeys hready).bind ?_ (by simp)
  intro past₂ _ h₂
  refine ((notifyQuietly_only _).obeys hready).mono ?_
  intro past₃ _ h₃ _ _
  exact (happlied user rfl).since (h₂.trans h₃)

end OidcExchange
