import OidcExchange.Analysis.Accounts
import OidcExchange.Analysis.Undisturbed

/-!
# The lifecycle of a user

An update validates its transition on the record it read first and commits on a record
it read later. The version of the row makes the second read exact; nothing makes the
first one so. A status change is legal at its commit unless a deletion was committed in
between, and in a run without such a deletion a deleted user stays deleted.
-/

set_option autoImplicit false

namespace OidcExchange

open Storage Interleaving Service Past

/-- Whatever was read of a user is an older version of the stored row, or that row. -/
def Versioned (m : ServiceMoment) : Prop :=
  ∀ c userId user, .performed c (.getUserById userId) (.ok (some user)) ∈ m.history →
    ∃ row, m.world.users.lookup userId = some row ∧ user.version ≤ row.version ∧
      (user.version = row.version → user = row)

/-- Call `c` has validated a change of the user to the status `target` and has yet to
commit it. -/
def Pending (m : ServiceMoment) (c : ℕ) (userId : String) (target : UserStatus) : Prop :=
  ∃ request patch current, m.Running c request ∧ request.patch? = some (userId, patch) ∧
    patch.status = some target ∧ Validated (m.past c) userId patch current ∧
    Unwritten (m.past c)

/-- The operation commits a record of the user over the row `row`. -/
structure Commits (m : ServiceMoment) (x : Choice) (o : Op) (userId : String)
    (row user : User) : Prop where
  operation : o = .writeUser userId row.version user
  succeeds : x = .proceed
  stored : m.world.users.lookup userId = some row

/-- A deletion is committed only while no other status is pending for the user. -/
def DeletesAlone (m : ServiceMoment) (_c : ℕ) (x : Choice) (o : Op) : Prop :=
  ∀ userId row user, Commits m x o userId row user → user.status = .deleted →
    ∀ c target, target ≠ .deleted → ¬ Pending m c userId target

/-- While a user is deleted, no other status is pending for it. -/
def Shielded (m : ServiceMoment) : Prop :=
  ∀ userId row, m.world.users.lookup userId = some row → row.status = .deleted →
    ∀ c target, target ≠ .deleted → ¬ Pending m c userId target

/-- Every user of the first world is in the second, with the same status or one that the
first status can change to. -/
def StatusLegal (w w' : World) : Prop :=
  ∀ userId row, w.users.lookup userId = some row →
    ∃ row', w'.users.lookup userId = some row' ∧
      (row'.status = row.status ∨ row.status.canTransitionTo row'.status = true)

variable {d : Deployment} {m : ServiceMoment} {c : ℕ} {x : Choice} {o : Op} {ans : Ans o}
  {w : World} {userId : String}

/-! ## Versions -/

/-- A committed row is one version on from the row it replaces. -/
theorem version_overwritten (stored user : User) :
    (stored.overwritten user).version = stored.version + 1 := rfl

/-- Every operation keeps the reads exact. -/
theorem Versioned.performs (hv : Versioned m) (hex : exec d x c o m.world = some (ans, w)) :
    Versioned (m.performed c o ans w) := by
  -- what holds of an old read holds after the operation
  have hold : ∀ id user, (∃ row, m.world.users.lookup id = some row ∧ user.version ≤ row.version ∧
      (user.version = row.version → user = row)) →
      ∃ row, w.users.lookup id = some row ∧ user.version ≤ row.version ∧
        (user.version = row.version → user = row) := by
    rintro id user ⟨row, hrow, hle, heq⟩
    cases userStep_of_exec hex with
    | created new fresh hfresh _ _ =>
      refine ⟨row, ?_, hle, heq⟩
      show (m.world.users.insert fresh.id fresh).lookup id = some row
      rw [Table.lookup_insert_ite, if_neg, hrow]
      rintro rfl
      rw [hfresh] at hrow
      exact absurd hrow (by simp)
    | wrote id' written stored hstored =>
      show ∃ row, (m.world.users.insert id' (stored.overwritten written)).lookup id = some row ∧ _
      rw [Table.lookup_insert_ite]
      split
      · rename_i hid
        subst hid
        obtain rfl := Option.some.inj (hrow.symm.trans hstored)
        refine ⟨_, rfl, ?_, ?_⟩
        · rw [version_overwritten]
          omega
        · rw [version_overwritten]
          omega
      · exact ⟨row, hrow, hle, heq⟩
    | kept _ _ hsame => exact ⟨row, hsame ▸ hrow, hle, heq⟩
  intro c' id user hmem
  rcases List.mem_cons.mp hmem with heq | hmem
  · cases heq
    have hrow := stored_of_getUserById hex
    exact hold id user ⟨user, hrow, Nat.le_refl _, fun _ => rfl⟩
  · exact hold id user (hv c' id user hmem)

/-! ## Pending changes -/

/-- A change that is pending after an operation was pending before, or the call has just
read the user in a status that is not `Deleted`. -/
theorem Pending.of_performed {c' : ℕ} {target : UserStatus}
    (h : Pending (m.performed c o ans w) c' userId target) :
    Pending m c' userId target ∨
      ∃ current, (⟨o, ans⟩ : Performed Ans) = ⟨.getUserById userId, .ok (some current)⟩ ∧
        current.status ≠ .deleted := by
  obtain ⟨request, patch, current, hrunning, hpatch, htarget, hvalidated, hunwritten⟩ := h
  have hrunning' : m.Running c' request :=
    ⟨by simpa using hrunning.asked, by simpa using hrunning.open_⟩
  by_cases hc : c = c'
  · subst hc
    rw [Moment.past_performed_self] at hvalidated hunwritten
    cases hpast : m.past c with
    | nil =>
      right
      rw [hpast] at hvalidated
      refine ⟨current, Option.some.inj hvalidated.1, ?_⟩
      simpa using hvalidated.2 target htarget
    | cons e rest =>
      left
      rw [hpast] at hvalidated hunwritten
      refine ⟨request, patch, current, hrunning', hpatch, htarget, ?_, ?_⟩
      · rw [hpast]
        exact ⟨hvalidated.1, hvalidated.2⟩
      · rw [hpast]
        exact fun u v y hmem => hunwritten u v y (List.mem_cons_of_mem _ hmem)
  · left
    rw [Moment.past_performed_other _ hc] at hvalidated hunwritten
    exact ⟨request, patch, current, hrunning', hpatch, htarget, hvalidated, hunwritten⟩

/-- A call that has just begun has nothing pending. -/
theorem Pending.of_begin {request : Request} {c' : ℕ} {target : UserStatus}
    (hunseen : m.Unseen c) (h : Pending (m.begin c request) c' userId target) :
    Pending m c' userId target := by
  obtain ⟨request', patch, current, hrunning, hpatch, htarget, hvalidated, hunwritten⟩ := h
  have hc : c ≠ c' := by
    rintro rfl
    rw [Moment.past_begin, hunseen.past] at hvalidated
    exact absurd hvalidated.1 (by simp [first])
  refine ⟨request', patch, current, ⟨?_, ?_⟩, hpatch, htarget, hvalidated, hunwritten⟩
  · intro i
    have := hrunning.asked i
    simpa [Ne.symm hc] using this
  · simpa using hrunning.open_

/-- Ending a call makes nothing pending. -/
theorem Pending.of_ended {c' : ℕ} {target : UserStatus}
    (h : Pending (m.ended c) c' userId target) : Pending m c' userId target := by
  obtain ⟨request, patch, current, hrunning, hrest⟩ := h
  refine ⟨request, patch, current, ⟨?_, ?_⟩, hrest⟩
  · simpa using hrunning.asked
  · have := hrunning.open_
    simp only [Moment.ended_history, List.mem_cons, not_or] at this
    exact this.2

theorem Pending.of_drifted {c' : ℕ} {target : UserStatus}
    (h : Pending (m.drifted w) c' userId target) : Pending m c' userId target := by
  obtain ⟨request, patch, current, hrunning, hrest⟩ := h
  exact ⟨request, patch, current, ⟨hrunning.asked, hrunning.open_⟩, hrest⟩

/-- A write that is answered `true` is a commit. -/
theorem commits_of_exec {version : ℕ} {user : User}
    (hex : exec d x c (.writeUser userId version user) m.world = some (.ok true, w)) :
    ∃ row, Commits m x (.writeUser userId version user) userId row user ∧
      w = { m.world with users := m.world.users.insert userId (row.overwritten user) } := by
  have hproceed : x = .proceed := by
    cases x with
    | proceed => rfl
    | fail e => exact absurd (Prod.mk.inj (Option.some.inj hex)).1 (by simp)
    | _ => exact absurd hex (by simp [exec, fallible])
  cases userStep_of_exec hex with
  | wrote _ _ row hrow => exact ⟨row, ⟨rfl, hproceed, hrow⟩, rfl⟩
  | kept _ hnot _ => exact absurd hnot (by simp [writtenOf])

/-- Every operation that does not delete past a pending change keeps deleted users
shielded. -/
theorem Shielded.performs (hs : Shielded m) (halone : DeletesAlone m c x o)
    (hex : exec d x c o m.world = some (ans, w)) : Shielded (m.performed c o ans w) := by
  intro id row hrow hdeleted c' target htarget hpending
  obtain hbefore | ⟨current, heq, hactive⟩ := hpending.of_performed
  · cases userStep_of_exec hex with
    | created new fresh _ _ hactive =>
      change (m.world.users.insert fresh.id fresh).lookup id = some row at hrow
      rw [Table.lookup_insert_ite] at hrow
      split at hrow
      · obtain rfl := Option.some.inj hrow
        rw [hactive] at hdeleted
        exact absurd hdeleted (by decide)
      · exact hs id row hrow hdeleted c' target htarget hbefore
    | wrote id' written stored hstored =>
      obtain ⟨stored', hcommits, hw⟩ := commits_of_exec hex
      change (m.world.users.insert id' (stored.overwritten written)).lookup id = some row at hrow
      rw [Table.lookup_insert_ite] at hrow
      split at hrow
      · rename_i hid
        subst hid
        obtain rfl := Option.some.inj hrow
        exact halone id stored' written hcommits hdeleted c' target htarget hbefore
      · exact hs id row hrow hdeleted c' target htarget hbefore
    | kept _ _ hsame =>
      exact hs id row (hsame ▸ hrow) hdeleted c' target htarget hbefore
  · -- the call has just read the row, and it was not deleted
    obtain ⟨rfl, hans⟩ := Sigma.mk.inj heq
    obtain rfl := eq_of_heq hans
    have hread := stored_of_getUserById hex
    cases userStep_of_exec hex with
    | kept _ _ hsame =>
      change w.users.lookup id = some row at hrow
      rw [hsame, hread] at hrow
      obtain rfl := Option.some.inj hrow
      exact hactive hdeleted

/-- **A commit of a shielded user is legal**: it keeps the status or changes it as the
lifecycle permits. -/
theorem status_legal_of_write (hv : Versioned m) (hs : Shielded m) {request : Request}
    {row user : User} (hrunning : m.Running c request)
    (hready : Ready d request (m.past c) (.writeUser userId row.version user))
    (hrow : m.world.users.lookup userId = some row) :
    user.status = row.status ∨ row.status.canTransitionTo user.status = true := by
  obtain ⟨patch, hpatch, ⟨current, hvalidated⟩, ⟨read, now, hread, hversion, rfl⟩, hunwritten⟩ :=
    hready
  -- the record that is patched is the stored row
  obtain ⟨row', hrow', -, hexact⟩ := hv c userId read ((Moment.mem_past ..).mp hread)
  obtain rfl := Option.some.inj (hrow.symm.trans hrow')
  obtain rfl := hexact hversion.symm
  show patch.status.getD read.status = read.status ∨ _
  cases htarget : patch.status with
  | none => exact .inl rfl
  | some target =>
    show target = read.status ∨ read.status.canTransitionTo
      (patch.status.getD read.status) = true
    by_cases hdeleted : read.status = .deleted
    · left
      by_contra hne
      exact hs userId read hrow hdeleted c target (fun h => hne (h.trans hdeleted.symm))
        ⟨request, patch, current, hrunning, hpatch, htarget, hvalidated, hunwritten⟩
    · right
      simpa using hdeleted

/-- Versions and shields, kept by every step that does not delete past a pending
change. -/
def lifecycleProtocol (d : Deployment) : Protocol (portSemantics d) (Ready d) where
  inv m := Versioned m ∧ Shielded m
  allowed := DeletesAlone
  begins := fun {m c i} h hunseen =>
    ⟨fun c' id user hmem => h.1 c' id user (by simpa using hmem),
      fun id row hrow hdeleted c' target htarget hpending =>
        h.2 id row hrow hdeleted c' target htarget (hpending.of_begin hunseen)⟩
  performs h _ _ halone hex := ⟨h.1.performs hex, h.2.performs halone hex⟩
  ends := fun {m c i} h _ =>
    ⟨fun c' id user hmem => h.1 c' id user (by simpa using hmem),
      fun id row hrow hdeleted c' target htarget hpending =>
        h.2 id row hrow hdeleted c' target htarget hpending.of_ended⟩
  drifts := fun {m k w} h hdrift => by
    have hsame := (shrinks_of_drift hdrift).2
    refine ⟨fun c' id user hmem => ?_, fun id row hrow => ?_⟩
    · rw [Moment.drifted_world, hsame]
      exact h.1 c' id user hmem
    · rw [Moment.drifted_world, hsame] at hrow
      exact fun hdeleted c' target htarget hpending =>
        h.2 id row hrow hdeleted c' target htarget hpending.of_drifted

/-! ## Runs -/

theorem StatusLegal.refl (w : World) : StatusLegal w w :=
  fun _ row hrow => ⟨row, hrow, .inl rfl⟩

/-- What leaves the users alone changes no status. -/
theorem StatusLegal.of_same {w w' : World} (h : w'.users = w.users) : StatusLegal w w' :=
  fun _ row hrow => ⟨row, h ▸ hrow, .inl rfl⟩

/-- Every step that keeps the lifecycle changes statuses only as it permits. -/
theorem statusLegal_of_step {p q : ServicePool} {a : ServiceAct} (hcompliant : Compliant d p)
    (hv : Versioned p.toMoment) (hs : Shielded p.toMoment)
    (hstep : (service d).step p a = some q) : StatusLegal p.world q.world := by
  obtain ⟨_, _, -, -, hm, -⟩ | ⟨c, x, i, o, next, ans, w, -, hc, hex, hm, -⟩ |
    ⟨_, w, -, hdrift, hm, -⟩ := Pool.step_cases hstep
  · have hw := congrArg Moment.world hm
    rw [Disciplined.settle_world] at hw
    exact .of_same (hw ▸ rfl)
  · have hw := congrArg Moment.world hm
    rw [Disciplined.settle_world, Moment.performed_world] at hw
    rw [hw]
    have hready := hcompliant.ready_next hc
    have hrunning := hcompliant.running hc
    cases userStep_of_exec (c := c) hex with
    | created new fresh hfresh _ _ =>
      intro id row hrow
      refine ⟨row, ?_, .inl rfl⟩
      show (p.world.users.insert fresh.id fresh).lookup id = some row
      rw [Table.lookup_insert_ite, if_neg, hrow]
      rintro rfl
      rw [hfresh] at hrow
      exact absurd hrow (by simp)
    | wrote id' written stored hstored =>
      have hlegal := status_legal_of_write hv hs hrunning hready hstored
      intro id row hrow
      show ∃ row', (p.world.users.insert id' (stored.overwritten written)).lookup id =
        some row' ∧ _
      rw [Table.lookup_insert_ite]
      split
      · rename_i hid
        subst hid
        obtain rfl := Option.some.inj (hrow.symm.trans hstored)
        exact ⟨_, rfl, hlegal⟩
      · exact ⟨row, hrow, .inl rfl⟩
    | kept _ _ hsame => exact .of_same hsame
  · have hw := congrArg Moment.world hm
    rw [Moment.drifted_world] at hw
    exact .of_same (hw ▸ (shrinks_of_drift hdrift).2)

/-- The users that are deleted in the first world are deleted in the second. -/
def KeepsDeleted (w w' : World) : Prop :=
  ∀ userId row, w.users.lookup userId = some row → row.status = .deleted →
    ∃ row', w'.users.lookup userId = some row' ∧ row'.status = .deleted

theorem StatusLegal.keepsDeleted {w w' : World} (h : StatusLegal w w') : KeepsDeleted w w' := by
  intro userId row hrow hdeleted
  obtain ⟨row', hrow', heq | hlegal⟩ := h userId row hrow
  · exact ⟨row', hrow', heq.trans hdeleted⟩
  · rw [UserStatus.canTransitionTo_iff] at hlegal
    exact absurd hdeleted hlegal

/-- **Deleted is absorbing in every run without a deletion past a pending change**: every
step of the run changes statuses only as the lifecycle permits, and a user that is deleted
stays deleted. -/
theorem deleted_absorbing {d : Deployment} {clock : Instant} {p q : ServicePool}
    {as as' : List ServiceAct}
    (hrun : (service d).Run (Pool.Under DeletesAlone) (ServicePool.start clock) as p)
    (hrun' : (service d).Run (Pool.Under DeletesAlone) p as' q) :
    (∀ a q', (service d).step q a = some q' → StatusLegal q.world q'.world) ∧
      KeepsDeleted p.world q.world := by
  have hstart : (lifecycleProtocol d).inv (ServicePool.start clock).toMoment := by
    constructor
    · simp [Versioned, ServicePool.start, Pool.initial]
    · simp [Shielded, ServicePool.start, Pool.initial, World.empty]
  have hp := (lifecycleProtocol d).run (serve_obeys d) hrun (Disciplined.initial _) hstart
  have hq := (lifecycleProtocol d).run (serve_obeys d) hrun' (compliant_of_run d hrun) hp
  have hcompliant := (compliant_of_run d hrun).run (serve_obeys d) hrun'
  refine ⟨fun a q' => statusLegal_of_step hcompliant hq.1 hq.2, ?_⟩
  refine hrun'.relates (I := fun s => Compliant d s ∧ (lifecycleProtocol d).inv s.toMoment)
    (R := fun s t => KeepsDeleted s.world t.world)
    (fun s => (StatusLegal.refl s.world).keepsDeleted) ?_ ?_ ⟨compliant_of_run d hrun, hp⟩
  · intro s t u hst htu userId row hrow hdeleted
    obtain ⟨row', hrow', hdeleted'⟩ := hst userId row hrow hdeleted
    exact htu userId row' hrow' hdeleted'
  · rintro s a t ⟨hs, hinv⟩ hmeets hstep
    exact ⟨⟨hs.step (serve_obeys d) hstep,
        (lifecycleProtocol d).step hs hinv hmeets hstep⟩,
      (statusLegal_of_step hs hinv.1 hinv.2 hstep).keepsDeleted⟩

/-! ## A deletion past a pending change -/

namespace Sample

/-- No call has been asked to update a user. -/
def nobodyUpdates (p : ServicePool) : Bool :=
  p.history.all fun e => match e with
    | .began _ (.adminUpdateUser _ _ _) => false
    | _ => true

/-- Where nobody updates a user, nothing but a deletion is pending. -/
theorem deletesAlone_of_test {p : ServicePool} (htest : nobodyUpdates p = true)
    (a : ServiceAct) : p.Under DeletesAlone a := by
  rintro c x o - userId row user - - c' target htarget
    ⟨request, patch, current, hrunning, hpatch, hstatus, -⟩
  have hbegan := (hrunning.asked request).mpr rfl
  have hno := List.all_eq_true.mp htest _ hbegan
  cases request with
  | adminUpdateUser _ _ _ => exact absurd hno (by simp)
  | adminDeleteUser _ id =>
    obtain ⟨rfl, rfl⟩ : id = userId ∧ deletePatch = patch := by simpa [Request.patch?] using hpatch
    exact htarget (Option.some.inj hstatus).symm
  | _ => exact absurd hpatch (by simp [Request.patch?])

/-- Call 1 validates a suspension, call 2 deletes the user, and call 1 has read the user
again. -/
def deletedMeanwhile : List ServiceAct :=
  signIn "a" ++
    call 1 (.adminUpdateUser operator theUser (statusPatch .suspended)) [.proceed] ++
    call 2 (.adminDeleteUser operator theUser)
      (updateChoices ++ [.proceed, .proceed, .proceed]) ++
    [.advance 1 .proceed, .advance 1 .proceed]

theorem status_of_test {status : UserStatus} {p : ServicePool} (h : statusIs status p = true) :
    ∃ row, p.world.users.lookup theUser = some row ∧ row.status = status := by
  obtain ⟨row, hrow, hstatus⟩ := (Option.any_eq_true _ _).mp h
  exact ⟨row, hrow, by simpa using hstatus⟩

end Sample

/-- The user is deleted by a call that nobody disturbs, and stays so. -/
theorem deleted_absorbing_alone : ∃ as p q,
    (service (Sample.deployment false)).Run (Pool.Under DeletesAlone) (ServicePool.start 0) as p ∧
    (service (Sample.deployment false)).Run (Pool.Under DeletesAlone) p
      (Sample.refreshing 2 "a" "b" |>.take 4) q ∧
    (∃ row, p.world.users.lookup Sample.theUser = some row ∧ row.status = .deleted) ∧
    (∀ a q', (service (Sample.deployment false)).step q a = some q' →
      StatusLegal q.world q'.world) ∧
    KeepsDeleted p.world q.world := by
  have hrun : ((service (Sample.deployment false)).followWhen
      (fun p _ => Sample.nobodyUpdates p) (ServicePool.start 0)
      (Sample.signIn "a" ++ Sample.call 1 (.adminDeleteUser Sample.operator Sample.theUser)
        Sample.updateChoices)).any (fun p => Sample.statusIs .deleted p &&
          ((service (Sample.deployment false)).followWhen (fun p _ => Sample.nobodyUpdates p) p
            (Sample.refreshing 2 "a" "b" |>.take 4)).any fun _ => true) = true := by
    decide +kernel
  obtain ⟨p, hrun, htest⟩ :=
    System.Run.of_followWhen_any (fun _ _ h => Sample.deletesAlone_of_test h _) hrun
  obtain ⟨hdeleted, hrest⟩ := Bool.and_eq_true _ _ ▸ htest
  obtain ⟨q, hrun', -⟩ :=
    System.Run.of_followWhen_any (fun _ _ h => Sample.deletesAlone_of_test h _) hrest
  exact ⟨_, p, q, hrun, hrun', Sample.status_of_test hdeleted, deleted_absorbing hrun hrun'⟩

/-- **A deletion past a pending change is undone**: the pending commit makes a deleted user
suspended. -/
theorem deleted_revived : ∃ as p a q,
    (service (Sample.deployment false)).Run System.anyStep (ServicePool.start 0) as p ∧
    (service (Sample.deployment false)).step p a = some q ∧
    ¬ StatusLegal p.world q.world ∧ ¬ KeepsDeleted p.world q.world := by
  have hrun : ((service (Sample.deployment false)).follow (ServicePool.start 0)
      Sample.deletedMeanwhile).any (fun p => Sample.statusIs .deleted p &&
        ((service (Sample.deployment false)).step p (.advance 1 .proceed)).any
          (Sample.statusIs .suspended)) = true := by
    decide +kernel
  obtain ⟨p, hrun, htest⟩ := System.Run.of_follow_any hrun
  obtain ⟨hdeleted, hrest⟩ := Bool.and_eq_true _ _ ▸ htest
  obtain ⟨q, hstep, hsuspended⟩ := (Option.any_eq_true _ _).mp hrest
  obtain ⟨row, hrow, hrowDeleted⟩ := Sample.status_of_test hdeleted
  obtain ⟨row', hrow', hrowSuspended⟩ := Sample.status_of_test hsuspended
  have hkeeps : ¬ KeepsDeleted p.world q.world := by
    intro hkeeps
    obtain ⟨row'', hrow'', hstill⟩ := hkeeps _ row hrow hrowDeleted
    obtain rfl := Option.some.inj (hrow'.symm.trans hrow'')
    rw [hrowSuspended] at hstill
    exact absurd hstill (by decide)
  exact ⟨_, p, _, q, hrun, hstep, fun hlegal => hkeeps hlegal.keepsDeleted, hkeeps⟩

end OidcExchange
