import OidcExchange.Analysis.Accounts
import OidcExchange.Analysis.Undisturbed

/-!
# Sessions that have ended

A hash that was installed and is not live is never live again. A call that suspends or
deletes a user therefore ends the sessions of the user for good once its revocation is
answered. It revokes exactly when the status it read first was not yet its target: a
suspension that is retried after its status was committed returns without revoking.
-/

set_option autoImplicit false

namespace OidcExchange

open Storage Interleaving Service Past

/-- The session was installed and its hash is not live. -/
structure Dead (m : ServiceMoment) (s : Session) : Prop where
  installed : ∃ c, (c, s) ∈ installs m
  gone : m.world.sessions.lookup s.refreshTokenHash = none

variable {d : Deployment} {m : ServiceMoment} {c : ℕ} {x : Choice} {o : Op} {ans : Ans o}
  {w : World} {s : Session}

/-- An installed session stays installed. -/
theorem installs_subset_performed (m : ServiceMoment) (c : ℕ) (o : Op) (ans : Ans o) (w : World) :
    installs m ⊆ installs (m.performed c o ans w) :=
  Moment.collect_subset_performed installOf m c o ans w

theorem Dead.shrink {m' : ServiceMoment} (h : Dead m s) (hi : installs m' = installs m)
    (hw : m.world.Shrinks m'.world) : Dead m' s where
  installed := hi ▸ h.installed
  gone := by
    cases hk : m'.world.sessions.lookup s.refreshTokenHash with
    | none => rfl
    | some t => exact absurd (hw.sessions _ t hk) (by simp [h.gone])

/-- A live row after an operation was live before, or has just been installed under its
hash. -/
theorem live_of_performed {d : Deployment} (hex : exec d x c o m.world = some (ans, w)) {h : String}
    {t : Session} (ht : w.sessions.lookup h = some t) :
    m.world.sessions.lookup h = some t ∨
      (installs (m.performed c o ans w) = (c, t) :: installs m ∧ t.refreshTokenHash = h) := by
  cases storeStep_of_exec hex with
  | drew raw _ => exact .inl ht
  | drewFamily familyId _ _ => exact .inl ht
  | stored t' =>
    change (m.world.sessions.insert t'.refreshTokenHash t').lookup h = some t at ht
    rw [Table.lookup_insert_ite] at ht
    split at ht
    · rename_i heq
      obtain rfl := Option.some.inj ht
      exact .inr ⟨Moment.collect_performed_some installOf m _ rfl, heq.symm⟩
    · exact .inl ht
  | rotated k r live retired _ _ _ _ =>
    change ((m.world.sessions.erase k).insert r.refreshTokenHash r).lookup h = some t at ht
    rw [Table.lookup_insert_ite] at ht
    split at ht
    · rename_i heq
      obtain rfl := Option.some.inj ht
      exact .inr ⟨Moment.collect_performed_some installOf m _ rfl, heq.symm⟩
    · exact .inl (lookup_of_erase ht)
  | shrank _ hshrinks => exact .inl (hshrinks.sessions h t ht)

/-- **A dead hash stays dead**: it cannot be installed again. -/
theorem Dead.performs (hl' : Lineage d (m.performed c o ans w)) (h : Dead m s)
    (hex : exec d x c o m.world = some (ans, w)) : Dead (m.performed c o ans w) s where
  installed := by
    obtain ⟨c', hc'⟩ := h.installed
    exact ⟨c', installs_subset_performed m c o ans w hc'⟩
  gone := by
    obtain ⟨c', hinstalled⟩ := h.installed
    cases hk : w.sessions.lookup s.refreshTokenHash with
    | none => exact hk
    | some t =>
      obtain hbefore | ⟨hi, hhash⟩ := live_of_performed hex hk
      · rw [h.gone] at hbefore
        exact absurd hbefore (by simp)
      · -- the hash would be installed twice
        have hnodup := hl'.hashes_nodup
        rw [hi, List.map_cons, List.nodup_cons] at hnodup
        exact absurd (List.mem_map.mpr ⟨_, hinstalled, hhash.symm⟩) hnodup.1

/-- A dead session, kept dead by every step. -/
def deadProtocol (d : Deployment) (s : Session) : Protocol (portSemantics d) (Ready d) where
  inv m := (Lineage d m ∧ Truthful m) ∧ Dead m s
  allowed _ _ _ _ := True
  begins h hunseen := ⟨(lineageProtocol d).begins h.1 hunseen, h.2.shrink rfl (.refl _)⟩
  performs h hrunning hready _ hex :=
    have hl := (lineageProtocol d).performs h.1 hrunning hready trivial hex
    ⟨hl, h.2.performs hl.1 hex⟩
  ends h hrunning := ⟨(lineageProtocol d).ends h.1 hrunning, h.2.shrink rfl (.refl _)⟩
  drifts h hdrift :=
    ⟨(lineageProtocol d).drifts h.1 hdrift, h.2.shrink rfl (shrinks_of_drift hdrift).1⟩

/-- A dead session is dead in every state that follows. -/
theorem dead_of_run {meets meets' : ServicePool → ServiceAct → Prop} {clock : Instant}
    {p q : ServicePool} {as as' : List ServiceAct}
    (hrun : (service d).Run meets (ServicePool.start clock) as p) (h : Dead p.toMoment s)
    (hrun' : (service d).Run meets' p as' q) : Dead q.toMoment s :=
  ((deadProtocol d s).run (serve_obeys d) (hrun'.mono fun _ _ _ _ _ _ _ => trivial)
    (compliant_of_run d hrun) ⟨lineage_of_run hrun, h⟩).2

/-! ## A call that ends sessions -/

/-- Call `c` has revoked the sessions of the user. -/
def HasRevoked (m : ServiceMoment) (c : ℕ) (userId : String) : Prop :=
  ∃ count, ⟨.revokeAllUserSessions userId, .ok count⟩ ∈ m.past c

/-- Every row of `before` was installed, and those of the user are dead once call `c` has
revoked. -/
structure EndsSessions (before : Table String Session) (c : ℕ) (userId : String)
    (m : ServiceMoment) : Prop where
  installed : ∀ h t, before.lookup h = some t → t.refreshTokenHash = h ∧ ∃ c', (c', t) ∈ installs m
  ended : HasRevoked m c userId → ∀ h t, before.lookup h = some t → t.userId = userId → Dead m t

/-- What call `c` ends stays ended. -/
def endProtocol (d : Deployment) (before : Table String Session) (c : ℕ) (userId : String) :
    Protocol (portSemantics d) (Ready d) where
  inv m := (Lineage d m ∧ Truthful m) ∧ EndsSessions before c userId m
  allowed _ _ _ _ := True
  begins h hunseen := ⟨(lineageProtocol d).begins h.1 hunseen, h.2.installed,
    fun hrevoked k t ht huser => (h.2.ended hrevoked k t ht huser).shrink rfl (.refl _)⟩
  performs := fun {m c' i x o ans w} h hrunning hready _ hex => by
    have hl := (lineageProtocol d).performs h.1 hrunning hready trivial hex
    have hinstalled : ∀ k t, before.lookup k = some t → t.refreshTokenHash = k ∧
        ∃ c'', (c'', t) ∈ installs (m.performed c' o ans w) := by
      intro k t ht
      obtain ⟨hhash, c'', hmem⟩ := h.2.installed k t ht
      exact ⟨hhash, c'', installs_subset_performed m c' o ans w hmem⟩
    refine ⟨hl, hinstalled, ?_⟩
    rintro ⟨count, hmem⟩ k t ht huser
    by_cases hbefore : HasRevoked m c userId
    · exact (h.2.ended hbefore k t ht huser).performs hl.1 hex
    · -- the call revokes in this very step
      have hnow : c' = c ∧ (⟨o, ans⟩ : Performed Ans) =
          ⟨.revokeAllUserSessions userId, .ok count⟩ := by
        by_cases hc : c' = c
        · subst hc
          rw [Moment.past_performed_self] at hmem
          rcases List.mem_cons.mp hmem with heq | hmem
          · exact ⟨rfl, heq.symm⟩
          · exact absurd ⟨count, hmem⟩ hbefore
        · rw [Moment.past_performed_other _ hc] at hmem
          exact absurd ⟨count, hmem⟩ hbefore
      obtain ⟨rfl, heq⟩ := hnow
      obtain ⟨rfl, hans⟩ := Sigma.mk.inj heq
      obtain rfl := eq_of_heq hans
      obtain ⟨hhash, c'', hinst⟩ := hinstalled k t ht
      refine ⟨⟨c'', hinst⟩, ?_⟩
      show w.sessions.lookup t.refreshTokenHash = none
      cases hk : w.sessions.lookup t.refreshTokenHash with
      | none => rfl
      | some t' =>
        -- the row under the hash is the installed session, and it was deleted
        obtain ⟨c₁, hinst'⟩ := hl.1.installed_of_live hk
        obtain ⟨-, rfl⟩ := hl.1.install_unique hinst hinst' (hl.1.live _ t' hk).1.symm
        exact absurd huser (revokeAllUserSessions_leaves (d := d) (c := c') hex _ t hk)
  ends h hrunning := ⟨(lineageProtocol d).ends h.1 hrunning, h.2.installed,
    fun hrevoked k t ht huser => (h.2.ended hrevoked k t ht huser).shrink rfl (.refl _)⟩
  drifts h hdrift := ⟨(lineageProtocol d).drifts h.1 hdrift, h.2.installed,
    fun hrevoked k t ht huser =>
      (h.2.ended hrevoked k t ht huser).shrink rfl (shrinks_of_drift hdrift).1⟩

/-- The request ends the sessions of the user, given the user it read first: it deletes
the user, or suspends a user that was not suspended. -/
def EndsSessionsOf (request : Request) (userId : String) (past : Past) : Prop :=
  ∃ patch, request.patch? = some (userId, patch) ∧
    (patch.status = some .deleted ∨ patch.status = some .suspended ∧
      ∀ current, first past = some ⟨.getUserById userId, .ok (some current)⟩ →
        current.status ≠ .suspended)

/-- A call that ends sessions has revoked them when it returns. -/
theorem hasRevoked_of_returned {q : ServicePool} {request : Request} {userId : String}
    {a : Response} (hcompliant : Compliant d q) (hreturned : q.Returned c request a)
    (hends : EndsSessionsOf request userId (q.toMoment.past c)) :
    HasRevoked q.toMoment c userId := by
  obtain ⟨patch, hpatch, hends⟩ := hends
  have happlied : ∃ current, Validated (q.toMoment.past c) userId patch current ∧
      Wrote (q.toMoment.past c) userId patch ∧
      (enteredSuspendedOrDeleted current.status patch = true → HasRevoked q.toMoment c userId) := by
    have houtcome := hcompliant.returned hreturned
    cases request with
    | refresh req => exact absurd hpatch (by simp [Request.patch?])
    | exchange req => exact absurd hpatch (by simp [Request.patch?])
    | adminUpdateUser _ id patch' =>
      obtain ⟨rfl, rfl⟩ : id = userId ∧ patch' = patch := by simpa [Request.patch?] using hpatch
      exact houtcome.applied a rfl
    | adminDeleteUser _ id =>
      obtain ⟨rfl, rfl⟩ : id = userId ∧ deletePatch = patch := by
        simpa [Request.patch?] using hpatch
      exact houtcome.applied a rfl
  obtain ⟨current, ⟨hfirst, hlegal⟩, -, hrevoked⟩ := happlied
  refine hrevoked ?_
  obtain hdeleted | ⟨hsuspended, hnot⟩ := hends
  · have hne := (UserStatus.canTransitionTo_iff _ _).mp (hlegal _ hdeleted)
    simp [enteredSuspendedOrDeleted, hdeleted, Ne.symm hne]
  · simp [enteredSuspendedOrDeleted, hsuspended, Ne.symm (hnot current hfirst)]

/-- **Suspension and deletion end sessions**: when a call that deletes the user, or that
found the user not yet suspended and suspends it, has returned, no session of the user that
was live before the call began is live, then or later. -/
theorem sessions_ended {d : Deployment} {meets meets' : ServicePool → ServiceAct → Prop}
    {clock : Instant} {p q : ServicePool} {as as' : List ServiceAct} {c : ℕ} {request : Request}
    {userId : String} {a : Response}
    (hrun : (service d).Run meets (ServicePool.start clock) as p) (hnew : p.calls c = none)
    (hrun' : (service d).Run meets' p as' q) (hreturned : q.Returned c request a)
    (hends : EndsSessionsOf request userId (q.toMoment.past c)) :
    ∀ h s, p.world.sessions.lookup h = some s → s.userId = userId →
      q.world.sessions.lookup h = none := by
  have hcompliant := compliant_of_run d hrun
  have hl := lineage_of_run hrun
  have hbegun : EndsSessions p.world.sessions c userId p.toMoment := by
    refine ⟨fun h t ht => ⟨(hl.1.live h t ht).1, hl.1.installed_of_live ht⟩, ?_⟩
    rintro ⟨count, hmem⟩
    rw [(hcompliant.unseen c hnew).past] at hmem
    exact absurd hmem (by simp)
  obtain ⟨-, hinstalled, hended⟩ := (endProtocol d p.world.sessions c userId).run (serve_obeys d)
    (hrun'.mono fun _ _ _ _ _ _ _ => trivial) hcompliant ⟨hl, hbegun⟩
  intro h s hs huser
  have hdead := hended (hasRevoked_of_returned (hcompliant.run (serve_obeys d) hrun') hreturned
    hends) h s hs huser
  rw [← (hinstalled h s hs).1]
  exact hdead.gone

/-! ## A suspension that is retried -/

namespace Sample

/-- The session of the token `a` is live. -/
def sessionLive (p : ServicePool) : Bool :=
  (p.world.sessions.lookup (digest "a")).any fun s => s.userId == theUser

/-- Call `c` has returned to an administrator. -/
def adminReturned (c : ℕ) (p : ServicePool) : Bool :=
  match p.calls c with
  | some ⟨.adminUpdateUser _ u patch, .done _⟩ => u == theUser && patch.status == some .suspended
  | some ⟨.adminDeleteUser _ u, .done _⟩ => u == theUser
  | _ => false

theorem live_of_test {p : ServicePool} (h : sessionLive p = true) :
    ∃ s, p.world.sessions.lookup (digest "a") = some s ∧ s.userId = theUser := by
  obtain ⟨s, hs, huser⟩ := (Option.any_eq_true _ _).mp h
  exact ⟨s, hs, by simpa using huser⟩

theorem adminReturned_of_test {c : ℕ} {p : ServicePool} (h : adminReturned c p = true) :
    ∃ request patch a, p.Returned c request a ∧ request.patch? = some (theUser, patch) ∧
      (patch.status = some .suspended ∨ patch.status = some .deleted) := by
  unfold adminReturned at h
  split at h
  · rename_i operator u patch a hc
    simp only [Bool.and_eq_true, beq_iff_eq] at h
    obtain ⟨rfl, hstatus⟩ := h
    exact ⟨_, patch, a, hc, rfl, .inl hstatus⟩
  · rename_i operator u a hc
    obtain rfl : u = theUser := by simpa using h
    exact ⟨_, deletePatch, a, hc, rfl, .inr rfl⟩
  · exact absurd h (by simp)

/-- Call `c` has deleted the user. -/
def userDeleted (c : ℕ) (p : ServicePool) : Bool :=
  match p.calls c with
  | some ⟨.adminDeleteUser _ u, .done _⟩ => u == theUser
  | _ => false

theorem returned_of_userDeleted {c : ℕ} {p : ServicePool} (h : userDeleted c p = true) :
    ∃ operator a, p.Returned c (.adminDeleteUser operator theUser) a := by
  unfold userDeleted at h
  split at h
  · rename_i operator u a hc
    obtain rfl : u = theUser := by simpa using h
    exact ⟨operator, a, hc⟩
  · cases h

/-- An administrator suspends the user. -/
def suspend : Request := .adminUpdateUser operator theUser (statusPatch .suspended)

/-- A sign-in, and a suspension whose revocation fails. -/
def halfSuspended : List ServiceAct :=
  signIn "a" ++ call 1 suspend (updateChoices ++ [.fail (.storeError "timeout")])

end Sample

/-- A session ends with the deletion of its user. -/
theorem sessions_ended_by_deletion : ∃ as as' p q s,
    (service (Sample.deployment false)).Run System.anyStep (ServicePool.start 0) as p ∧
    (service (Sample.deployment false)).Run System.anyStep p as' q ∧
    p.world.sessions.lookup (Sample.digest "a") = some s ∧
    q.world.sessions.lookup (Sample.digest "a") = none := by
  have hrun : ((service (Sample.deployment false)).follow (ServicePool.start 0)
      (Sample.signIn "a")).any (fun p => Sample.sessionLive p && (p.calls 1).isNone &&
        ((service (Sample.deployment false)).follow p (Sample.call 1
          (.adminDeleteUser Sample.operator Sample.theUser)
          (Sample.updateChoices ++ [.proceed, .proceed, .proceed]))).any fun q =>
            Sample.userDeleted 1 q) = true := by
    decide +kernel
  obtain ⟨p, hrun, htest⟩ := System.Run.of_follow_any hrun
  simp only [Bool.and_eq_true] at htest
  obtain ⟨⟨hlive, hnew⟩, hrest⟩ := htest
  obtain ⟨q, hrun', hreturned⟩ := System.Run.of_follow_any hrest
  obtain ⟨s, hs, huser⟩ := Sample.live_of_test hlive
  obtain ⟨operator, a, hc⟩ := Sample.returned_of_userDeleted hreturned
  exact ⟨_, _, p, q, s, hrun, hrun', hs, sessions_ended hrun (by simpa using hnew) hrun' hc
    ⟨deletePatch, rfl, .inl rfl⟩ _ s hs huser⟩

/-- **A suspension that is retried after its status was committed returns and leaves the
session live.** -/
theorem session_survives_retry : ∃ as p as' q c request patch a s,
    (service (Sample.deployment false)).Run System.anyStep (ServicePool.start 0) as p ∧
    p.calls c = none ∧
    (service (Sample.deployment false)).Run System.anyStep p as' q ∧
    q.Returned c request a ∧ request.patch? = some (Sample.theUser, patch) ∧
    (patch.status = some .suspended ∨ patch.status = some .deleted) ∧
    p.world.sessions.lookup (Sample.digest "a") = some s ∧ s.userId = Sample.theUser ∧
    q.world.sessions.lookup (Sample.digest "a") ≠ none := by
  have hrun : ((service (Sample.deployment false)).follow (ServicePool.start 0)
      Sample.halfSuspended).any (fun p => Sample.sessionLive p && (p.calls 2).isNone &&
        ((service (Sample.deployment false)).follow p (Sample.call 2 Sample.suspend
          (Sample.updateChoices ++ [.proceed, .proceed]))).any fun q =>
            Sample.sessionLive q && Sample.adminReturned 2 q) = true := by
    decide +kernel
  obtain ⟨p, hrun, htest⟩ := System.Run.of_follow_any hrun
  simp only [Bool.and_eq_true] at htest
  obtain ⟨⟨hlive, hnew⟩, hrest⟩ := htest
  obtain ⟨q, hrun', htest'⟩ := System.Run.of_follow_any hrest
  obtain ⟨hlive', hreturned⟩ := Bool.and_eq_true _ _ ▸ htest'
  obtain ⟨s, hs, huser⟩ := Sample.live_of_test hlive
  obtain ⟨s', hs', -⟩ := Sample.live_of_test hlive'
  obtain ⟨request, patch, a, hreturned, hpatch, hstatus⟩ := Sample.adminReturned_of_test hreturned
  exact ⟨_, p, _, q, 2, request, patch, a, s, hrun, by simpa using hnew, hrun', hreturned, hpatch,
    hstatus, hs, huser, by simp [hs']⟩

end OidcExchange
