import OidcExchange.Analysis.SessionEnd
import OidcExchange.Analysis.UserLifecycle

/-!
# Sessions and the suspension of their user

A suspension commits the status and then revokes the sessions. Between the two the call
owes the revocation, and while it does, a session that is stored will still be removed.
A session stored later, by an exchange that had read the user active before, is not. A
run without such a store leaves no session of a suspended user live once the calls that
suspend it have returned.
-/

set_option autoImplicit false

namespace OidcExchange

open Storage Interleaving Service Past

/-- The request suspends the user. -/
def Suspends (request : Request) (userId : String) : Prop :=
  ∃ patch, request.patch? = some (userId, patch) ∧ patch.status = some .suspended

/-- Call `c` found the user not suspended and has committed a suspension, and it has yet to
revoke the sessions. -/
structure Owes (m : ServiceMoment) (c : ℕ) (userId : String) : Prop where
  asked : ∃ request, .began c request ∈ m.history ∧ Suspends request userId
  entered : ∃ current, first (m.past c) = some ⟨.getUserById userId, .ok (some current)⟩ ∧
    current.status ≠ .suspended
  committed : ¬ Unwritten (m.past c)
  unpaid : ¬ HasRevoked m c userId

/-- No session of the user is live. -/
def NoSession (w : World) (userId : String) : Prop :=
  ∀ h s, w.sessions.lookup h = some s → s.userId ≠ userId

/-- A session of a suspended user is stored only while a revocation is owed, and a user
becomes suspended only by a call that did not find it suspended. -/
def SuspensionsMeet (m : ServiceMoment) (c : ℕ) (x : Choice) (o : Op) : Prop :=
  (∀ s row, o = .storeRefreshToken s → x = .proceed →
    m.world.users.lookup s.userId = some row → row.status = .suspended →
      ∃ c', Owes m c' s.userId) ∧
  ∀ userId row user current, Commits m x o userId row user → row.status ≠ .suspended →
    user.status = .suspended →
    first (m.past c) = some ⟨.getUserById userId, .ok (some current)⟩ →
      current.status ≠ .suspended

/-- A revocation of a user's sessions follows a commit. -/
def RevokesLast (m : ServiceMoment) : Prop :=
  ∀ c userId, HasRevoked m c userId → ¬ Unwritten (m.past c)

/-- A suspended user has no live session, or a revocation is owed. -/
def SuspensionHolds (m : ServiceMoment) : Prop :=
  ∀ userId row, m.world.users.lookup userId = some row → row.status = .suspended →
    (∃ c, Owes m c userId) ∨ NoSession m.world userId

variable {d : Deployment} {m : ServiceMoment} {c : ℕ} {x : Choice} {o : Op} {ans : Ans o}
  {w : World} {userId : String}

/-! ## What one operation does -/

theorem NoSession.shrink {w' : World} (h : NoSession w userId) (hw : w.Shrinks w') :
    NoSession w' userId :=
  fun k s hs => h k s (hw.sessions k s hs)

/-- What call `c` has done it has done after another operation. -/
theorem not_unwritten_performed {c' : ℕ} (h : ¬ Unwritten (m.past c')) :
    ¬ Unwritten ((m.performed c o ans w).past c') := by
  intro hun
  apply h
  intro u v y hmem
  refine hun u v y ?_
  by_cases hc : c = c'
  · subst hc
    rw [Moment.past_performed_self]
    exact List.mem_cons_of_mem _ hmem
  · rw [Moment.past_performed_other _ hc]
    exact hmem

/-- A debt is paid by the revocation of the call that owes it, and by nothing else. -/
theorem Owes.performs {c' : ℕ} (h : Owes m c' userId) :
    Owes (m.performed c o ans w) c' userId ∨
      ∃ count, (⟨o, ans⟩ : Performed Ans) = ⟨.revokeAllUserSessions userId, .ok count⟩ := by
  by_cases hpaid : ∃ count,
      (⟨o, ans⟩ : Performed Ans) = ⟨.revokeAllUserSessions userId, .ok count⟩
  · exact .inr hpaid
  left
  obtain ⟨⟨request, hbegan, hsuspends⟩, ⟨current, hfirst, hstatus⟩, hcommitted, hunpaid⟩ := h
  refine ⟨⟨request, List.mem_cons_of_mem _ hbegan, hsuspends⟩, ⟨current, ?_, hstatus⟩,
    not_unwritten_performed hcommitted, ?_⟩
  · by_cases hc : c = c'
    · subst hc
      rw [Moment.past_performed_self]
      exact first_cons hfirst _
    · rw [Moment.past_performed_other _ hc]
      exact hfirst
  · rintro ⟨count, hmem⟩
    by_cases hc : c = c'
    · subst hc
      rw [Moment.past_performed_self] at hmem
      rcases List.mem_cons.mp hmem with heq | hmem
      · exact hpaid ⟨count, heq.symm⟩
      · exact hunpaid ⟨count, hmem⟩
    · rw [Moment.past_performed_other _ hc] at hmem
      exact hunpaid ⟨count, hmem⟩

/-- Where no session of the user is live, an operation makes one live only by storing it. -/
theorem NoSession.performs (hl : Lineage d m) (htruth : Truthful m) {request : Request}
    (hready : Ready d request (m.past c) o) (hex : exec d x c o m.world = some (ans, w))
    (h : NoSession m.world userId) :
    NoSession w userId ∨ ∃ s, o = .storeRefreshToken s ∧ x = .proceed ∧ s.userId = userId := by
  cases storeStep_of_exec hex with
  | drew raw _ => exact .inl h
  | drewFamily familyId _ _ => exact .inl h
  | stored s =>
    by_cases huser : s.userId = userId
    · right
      refine ⟨s, rfl, ?_, huser⟩
      cases x with
      | proceed => rfl
      | fail e => exact absurd (Prod.mk.inj (Option.some.inj hex)).1 (by simp)
      | _ => exact absurd hex (by simp [exec, fallible])
    · left
      intro k t ht
      change (m.world.sessions.insert s.refreshTokenHash s).lookup k = some t at ht
      rw [Table.lookup_insert_ite] at ht
      split at ht
      · obtain rfl := Option.some.inj ht
        exact huser
      · exact h k t ht
  | rotated k r live retired hlive _ _ _ =>
    left
    -- the replacement belongs to the user of the live generation it replaces
    obtain ⟨hsucc, -⟩ := succeeds_of_rotateReady hl htruth hready hlive
    intro k' t ht
    change ((m.world.sessions.erase k).insert r.refreshTokenHash r).lookup k' = some t at ht
    rw [Table.lookup_insert_ite] at ht
    split at ht
    · obtain rfl := Option.some.inj ht
      exact hsucc.same.userId ▸ h k live hlive
    · exact h k' t (lookup_of_erase ht)
  | shrank _ hshrinks => exact .inl (h.shrink hshrinks)

/-- Every operation of a compliant call keeps revocations last. -/
theorem RevokesLast.performs {request : Request} (hr : RevokesLast m)
    (hready : Ready d request (m.past c) o) : RevokesLast (m.performed c o ans w) := by
  rintro c' id ⟨count, hmem⟩
  by_cases hbefore : HasRevoked m c' id
  · exact not_unwritten_performed (hr c' id hbefore)
  apply not_unwritten_performed
  by_cases hc : c = c'
  · subst hc
    rw [Moment.past_performed_self] at hmem
    rcases List.mem_cons.mp hmem with heq | hmem
    · obtain ⟨rfl, -⟩ := Sigma.mk.inj heq
      obtain ⟨patch, -, -, ⟨read, now, version, hwrote⟩⟩ := hready
      exact fun hun => hun _ _ _ hwrote
    · exact absurd ⟨count, hmem⟩ hbefore
  · rw [Moment.past_performed_other _ hc] at hmem
    exact absurd ⟨count, hmem⟩ hbefore

/-- A call that makes the user suspended owes the revocation from then on. -/
theorem owes_of_commit (hv : Versioned m) (hr : RevokesLast m) (hmeet : SuspensionsMeet m c x o)
    {request : Request} {row user : User} (hrunning : m.Running c request)
    (hcommits : Commits m x o userId row user) (hready : Ready d request (m.past c) o)
    (hactive : row.status ≠ .suspended) (hsuspended : user.status = .suspended) :
    Owes (m.performed c (.writeUser userId row.version user) (.ok true) w) c userId := by
  obtain ⟨rfl, -, hrow⟩ := id hcommits
  obtain ⟨patch, hpatch, ⟨current, hvalidated⟩, ⟨read, now, hread, hversion, rfl⟩, hunwritten⟩ :=
    hready
  -- the patch itself suspends, because the record it was applied to is the stored row
  obtain ⟨row', hrow', -, hexact⟩ := hv c userId read ((Moment.mem_past ..).mp hread)
  obtain rfl := Option.some.inj (hrow.symm.trans hrow')
  obtain rfl := hexact hversion.symm
  have htarget : patch.status = some .suspended := by
    cases hpatched : patch.status with
    | none =>
      have : read.status = .suspended := by simpa [applyPatch, hpatched] using hsuspended
      exact absurd this hactive
    | some target =>
      have : target = .suspended := by simpa [applyPatch, hpatched] using hsuspended
      rw [this]
  refine ⟨⟨request, ?_, patch, hpatch, htarget⟩, ⟨current, ?_, ?_⟩, ?_, ?_⟩
  · exact List.mem_cons_of_mem _ ((hrunning.asked request).mpr rfl)
  · rw [Moment.past_performed_self]
    exact first_cons hvalidated.1 _
  · exact hmeet.2 userId read _ current hcommits hactive hsuspended hvalidated.1
  · rw [Moment.past_performed_self]
    exact fun hun => hun _ _ _ (List.mem_cons_self ..)
  · rintro ⟨count, hmem⟩
    rw [Moment.past_performed_self] at hmem
    rcases List.mem_cons.mp hmem with heq | hmem
    · exact absurd (Sigma.mk.inj heq).1 (by simp)
    · exact hr c userId ⟨count, hmem⟩ hunwritten

/-- Every operation that meets the condition keeps the suspensions. -/
theorem SuspensionHolds.performs (hl : Lineage d m) (htruth : Truthful m) (hv : Versioned m)
    (hr : RevokesLast m) (hs : SuspensionHolds m) {request : Request}
    (hrunning : m.Running c request) (hready : Ready d request (m.past c) o)
    (hmeet : SuspensionsMeet m c x o) (hex : exec d x c o m.world = some (ans, w)) :
    SuspensionHolds (m.performed c o ans w) := by
  -- a user that was suspended before the operation
  have hkept : ∀ id row, m.world.users.lookup id = some row → row.status = .suspended →
      (∃ c', Owes (m.performed c o ans w) c' id) ∨ NoSession w id := by
    intro id row hrow hsuspended
    have hpaid : (∃ count, (⟨o, ans⟩ : Performed Ans) =
        ⟨.revokeAllUserSessions id, .ok count⟩) → NoSession w id := by
      rintro ⟨count, heq⟩
      obtain ⟨rfl, hans⟩ := Sigma.mk.inj heq
      obtain rfl := eq_of_heq hans
      exact revokeAllUserSessions_leaves hex
    obtain ⟨c', howes⟩ | hnone := hs id row hrow hsuspended
    · exact howes.performs.imp (fun h => ⟨c', h⟩) hpaid
    · obtain hnone | ⟨s, rfl, rfl, rfl⟩ := hnone.performs hl htruth hready hex
      · exact .inr hnone
      · obtain ⟨c', howes⟩ := hmeet.1 s row rfl rfl hrow hsuspended
        exact howes.performs.imp (fun h => ⟨c', h⟩) hpaid
  intro id row hrow hsuspended
  change w.users.lookup id = some row at hrow
  cases userStep_of_exec hex with
  | created new fresh _ _ hactive =>
    change (m.world.users.insert fresh.id fresh).lookup id = some row at hrow
    rw [Table.lookup_insert_ite] at hrow
    split at hrow
    · obtain rfl := Option.some.inj hrow
      rw [hactive] at hsuspended
      exact absurd hsuspended (by decide)
    · exact hkept id row hrow hsuspended
  | wrote id' written stored hstored =>
    obtain ⟨stored', hcommits, hw⟩ := commits_of_exec hex
    obtain rfl := Option.some.inj (hstored.symm.trans hcommits.stored)
    change (m.world.users.insert id' (stored.overwritten written)).lookup id = some row at hrow
    rw [Table.lookup_insert_ite] at hrow
    split at hrow
    · rename_i hid
      subst hid
      obtain rfl := Option.some.inj hrow
      by_cases hbefore : stored.status = .suspended
      · exact hkept id stored hstored hbefore
      · exact .inl ⟨c, owes_of_commit hv hr hmeet hrunning hcommits hready hbefore hsuspended⟩
    · exact hkept id row hrow hsuspended
  | kept _ _ hsame => exact hkept id row (hsame ▸ hrow) hsuspended

/-! ## Runs -/

theorem Owes.of_history {m' : ServiceMoment} {c : ℕ} (h : Owes m c userId)
    (hbegan : ∀ request, .began c request ∈ m.history → .began c request ∈ m'.history)
    (hpast : m'.past c = m.past c) : Owes m' c userId := by
  obtain ⟨⟨request, hmem, hsuspends⟩, hentered, hcommitted, hunpaid⟩ := h
  refine ⟨⟨request, hbegan request hmem, hsuspends⟩, hpast ▸ hentered, hpast ▸ hcommitted, ?_⟩
  rintro ⟨count, hrevoked⟩
  exact hunpaid ⟨count, hpast ▸ hrevoked⟩

/-- Suspensions, kept by every step that meets the condition. -/
def suspensionProtocol (d : Deployment) : Protocol (portSemantics d) (Ready d) where
  inv m := (Lineage d m ∧ Truthful m) ∧ Versioned m ∧ RevokesLast m ∧ SuspensionHolds m
  allowed := SuspensionsMeet
  begins := fun {m c i} h hunseen => by
    refine ⟨(lineageProtocol d).begins h.1 hunseen,
      fun c' id user hmem => h.2.1 c' id user (by simpa using hmem), h.2.2.1, ?_⟩
    intro userId row hrow hsuspended
    refine (h.2.2.2 userId row hrow hsuspended).imp ?_ id
    rintro ⟨c', howes⟩
    exact ⟨c', howes.of_history (fun _ hmem => List.mem_cons_of_mem _ hmem) rfl⟩
  performs h hrunning hready hmeet hex :=
    ⟨(lineageProtocol d).performs h.1 hrunning hready trivial hex, h.2.1.performs hex,
      h.2.2.1.performs hready,
      h.2.2.2.performs h.1.1 h.1.2 h.2.1 h.2.2.1 hrunning hready hmeet hex⟩
  ends := fun {m c i} h hrunning => by
    refine ⟨(lineageProtocol d).ends h.1 hrunning,
      fun c' id user hmem => h.2.1 c' id user (by simpa using hmem), h.2.2.1, ?_⟩
    intro userId row hrow hsuspended
    refine (h.2.2.2 userId row hrow hsuspended).imp ?_ id
    rintro ⟨c', howes⟩
    exact ⟨c', howes.of_history (fun _ hmem => List.mem_cons_of_mem _ hmem) rfl⟩
  drifts := fun {m k w} h hdrift => by
    obtain ⟨hshrinks, hsame⟩ := shrinks_of_drift hdrift
    refine ⟨(lineageProtocol d).drifts h.1 hdrift, fun c' id user hmem => ?_, h.2.2.1, ?_⟩
    · rw [Moment.drifted_world, hsame]
      exact h.2.1 c' id user hmem
    · intro id row hrow hsuspended
      rw [Moment.drifted_world, hsame] at hrow
      refine (h.2.2.2 id row hrow hsuspended).imp ?_ fun hnone => hnone.shrink hshrinks
      rintro ⟨c', howes⟩
      exact ⟨c', howes.of_history (fun _ hmem => hmem) rfl⟩

/-- Every call that was asked to suspend the user has returned. -/
def SuspendersReturned (p : ServicePool) (userId : String) : Prop :=
  ∀ c request, .began c request ∈ p.history → Suspends request userId →
    ∃ a, p.Returned c request a

/-- A call that has returned owes nothing. -/
theorem not_owes_of_returned {p : ServicePool} (hcompliant : Compliant d p)
    (hreturned : SuspendersReturned p userId) (c : ℕ) : ¬ Owes p.toMoment c userId := by
  rintro ⟨⟨request, hbegan, hsuspends⟩, ⟨current, hfirst, hstatus⟩, -, hunpaid⟩
  obtain ⟨a, ha⟩ := hreturned c request hbegan hsuspends
  obtain ⟨patch, hpatch, htarget⟩ := hsuspends
  refine hunpaid (hasRevoked_of_returned hcompliant ha ⟨patch, hpatch, .inr ⟨htarget, ?_⟩⟩)
  intro current' hfirst'
  have : current' = current := by
    have := hfirst'.symm.trans hfirst
    simpa using this
  exact this ▸ hstatus

/-- **No session outlives a suspension that it does not slip past**: in every run that meets
the condition, once the calls that suspend the user have returned, either the user is not
suspended or none of its sessions is live, and none stored so far is ever live again. -/
theorem no_session_outlives_suspension {d : Deployment} {clock : Instant} {p : ServicePool}
    {as : List ServiceAct} {userId : String}
    (hrun : (service d).Run (Pool.Under SuspensionsMeet) (ServicePool.start clock) as p)
    (hreturned : SuspendersReturned p userId) :
    (∀ row, p.world.users.lookup userId = some row → row.status ≠ .suspended) ∨
      NoSession p.world userId ∧
        ∀ meets as' q, (service d).Run meets p as' q →
          ∀ c s, (c, s) ∈ installs p.toMoment → s.userId = userId →
            q.world.sessions.lookup s.refreshTokenHash = none := by
  have hstart : (suspensionProtocol d).inv (ServicePool.start clock).toMoment := by
    refine ⟨lineage_start d clock, ?_, ?_, ?_⟩
    · simp [Versioned, ServicePool.start, Pool.initial]
    · simp [RevokesLast, HasRevoked, Moment.past, ServicePool.start, Pool.initial]
    · simp [SuspensionHolds, ServicePool.start, Pool.initial, World.empty]
  obtain ⟨⟨hl, -⟩, -, -, hholds⟩ :=
    (suspensionProtocol d).run (serve_obeys d) hrun (Disciplined.initial _) hstart
  by_cases hsuspended : ∃ row, p.world.users.lookup userId = some row ∧ row.status = .suspended
  · right
    obtain ⟨row, hrow, hstatus⟩ := hsuspended
    have hnone : NoSession p.world userId := by
      obtain ⟨c, howes⟩ | hnone := hholds userId row hrow hstatus
      · exact absurd howes (not_owes_of_returned (compliant_of_run d hrun) hreturned c)
      · exact hnone
    refine ⟨hnone, fun meets as' q hrun' c s hinstalled huser => ?_⟩
    -- a session that is not live now is dead from now on
    have hdead : Dead p.toMoment s := by
      refine ⟨⟨c, hinstalled⟩, ?_⟩
      cases hk : p.world.sessions.lookup s.refreshTokenHash with
      | none => rfl
      | some t =>
        obtain ⟨c', hinstalled'⟩ := hl.installed_of_live hk
        obtain ⟨-, rfl⟩ := hl.install_unique hinstalled hinstalled' (hl.live _ t hk).1.symm
        exact absurd huser (hnone _ s hk)
    exact (dead_of_run hrun hdead hrun').gone
  · left
    exact fun row hrow hstatus => hsuspended ⟨row, hrow, hstatus⟩

/-! ## A session that outlives the suspension -/

namespace Sample

/-- Sessions are stored and suspensions committed only where nothing stands against it. -/
def suspensionsMeet (p : ServicePool) : ServiceAct → Bool
  | .advance c _ =>
    match p.calls c with
    | some ⟨_, .perform (.storeRefreshToken s) _⟩ =>
      (p.world.users.lookup s.userId).all fun row => row.status != .suspended
    | some ⟨_, .perform (.writeUser _ _ user) _⟩ =>
      user.status != .suspended ||
        match first (p.past c) with
        | some ⟨.getUserById _, .ok (some current)⟩ => current.status != .suspended
        | _ => true
    | _ => true
  | _ => true

theorem suspensionsMeet_of_test {p : ServicePool} {a : ServiceAct}
    (htest : suspensionsMeet p a = true) : p.Under SuspensionsMeet a := by
  rintro c x o ⟨rfl, i, next, hc⟩
  simp only [suspensionsMeet, hc] at htest
  constructor
  · rintro s row rfl - hrow hsuspended
    simp [hrow, hsuspended] at htest
  · rintro userId row user current ⟨rfl, -, -⟩ - hsuspended hfirst
    have hmoment : first (p.past c) = some ⟨.getUserById userId, .ok (some current)⟩ := hfirst
    simpa [hmoment, hsuspended] using htest

/-- Only call 1 has been asked to change a user. -/
def onlyCallOne (p : ServicePool) : Bool :=
  p.history.all fun e => match e with
    | .began c (.adminUpdateUser _ _ _) => c == 1
    | .began _ (.adminDeleteUser _ _) => false
    | _ => true

/-- Call 1 has suspended the user and returned. -/
def suspenderReturned (p : ServicePool) : Bool :=
  match p.calls 1 with
  | some ⟨.adminUpdateUser _ u patch, .done _⟩ => u == theUser && patch.status == some .suspended
  | _ => false

theorem suspenderReturned_of_test {p : ServicePool} (h : suspenderReturned p = true) :
    ∃ request a, p.Returned 1 request a ∧ Suspends request theUser := by
  unfold suspenderReturned at h
  split at h
  · rename_i operator u patch a hc
    simp only [Bool.and_eq_true, beq_iff_eq] at h
    obtain ⟨rfl, hstatus⟩ := h
    exact ⟨_, a, hc, patch, rfl, hstatus⟩
  · exact absurd h (by simp)

theorem suspendersReturned_of_test {p : ServicePool} {checks : Bool}
    (hcompliant : Compliant (deployment checks) p) (honly : onlyCallOne p = true)
    (hreturned : suspenderReturned p = true) : SuspendersReturned p theUser := by
  rintro c request hbegan ⟨patch, hpatch, -⟩
  obtain ⟨request', a, hreturned, -⟩ := suspenderReturned_of_test hreturned
  have hone := List.all_eq_true.mp honly _ hbegan
  cases request with
  | adminUpdateUser operator id patch =>
    obtain rfl : c = 1 := by simpa using hone
    obtain rfl := (hcompliant.asked 1 _ hreturned _).mp hbegan
    exact ⟨a, hreturned⟩
  | adminDeleteUser operator id => exact absurd hone (by simp)
  | _ => exact absurd hpatch (by simp [Request.patch?])

/-- Call 0 registers the user, call 1 suspends it and revokes its sessions, and call 0
stores the session and responds. -/
def slippedPast : List ServiceAct :=
  call 0 (.exchange login) registerChoices ++
    call 1 suspend (updateChoices ++ [.proceed, .proceed, .proceed]) ++
    (storeChoices "a" theFamily ++ respondChoices).map (.advance 0)

/-- The administrator reactivates the user. -/
def reactivated : List ServiceAct :=
  call 2 (.adminUpdateUser operator theUser (statusPatch .active))
    (updateChoices ++ [.proceed, .proceed])

/-- Call `c` has returned tokens to the client that signed in or presented `raw`. -/
def issued (c : ℕ) (raw : Option String) (p : ServicePool) : Bool :=
  match p.calls c with
  | some ⟨.exchange _, .done (.tokens _)⟩ => raw == none
  | some ⟨.refresh req, .done (.tokens _)⟩ => raw == some req.refreshToken
  | _ => false

theorem exchanged_of_test {c : ℕ} {p : ServicePool} (h : issued c none p = true) :
    ∃ req tokens, p.Returned c (.exchange req) (.tokens tokens) := by
  unfold issued at h
  split at h
  · rename_i req tokens hc
    exact ⟨req, tokens, hc⟩
  · exact absurd h (by simp)
  · exact absurd h (by simp)

theorem refreshed_of_test {c : ℕ} {raw : String} {p : ServicePool}
    (h : issued c (some raw) p = true) :
    ∃ req tokens, p.Returned c (.refresh req) (.tokens tokens) ∧ req.refreshToken = raw := by
  unfold issued at h
  split at h
  · exact absurd h (by simp)
  · rename_i req tokens hc
    obtain rfl : raw = req.refreshToken := by simpa using h
    exact ⟨req, tokens, hc, rfl⟩
  · exact absurd h (by simp)

end Sample

/-- A session that a suspension does end, in a run that meets the condition. -/
theorem no_session_outlives_suspension_alone : ∃ as p c s,
    (service (Sample.deployment false)).Run (Pool.Under SuspensionsMeet)
      (ServicePool.start 0) as p ∧
    Sample.statusIs .suspended p = true ∧ (c, s) ∈ installs p.toMoment ∧
    s.userId = Sample.theUser ∧ NoSession p.world Sample.theUser := by
  have hrun : ((service (Sample.deployment false)).followWhen Sample.suspensionsMeet
      (ServicePool.start 0) (Sample.signIn "a" ++ Sample.call 1 Sample.suspend
        (Sample.updateChoices ++ [.proceed, .proceed, .proceed]))).any
      (fun p => Sample.statusIs .suspended p && Sample.onlyCallOne p && Sample.suspenderReturned p &&
        (installs p.toMoment).any fun e => e.2.userId == Sample.theUser) = true := by
    decide +kernel
  obtain ⟨p, hrun, htest⟩ :=
    System.Run.of_followWhen_any (fun _ _ h => Sample.suspensionsMeet_of_test h) hrun
  simp only [Bool.and_eq_true, List.any_eq_true, beq_iff_eq] at htest
  obtain ⟨⟨⟨hsuspended, honly⟩, hreturned⟩, ⟨c, s⟩, hinstalled, huser⟩ := htest
  refine ⟨_, p, c, s, hrun, hsuspended, hinstalled, huser, ?_⟩
  obtain hnot | ⟨hnone, -⟩ := no_session_outlives_suspension hrun
    (Sample.suspendersReturned_of_test (compliant_of_run _ hrun) honly hreturned)
  · obtain ⟨row, hrow, hstatus⟩ := Sample.status_of_test hsuspended
    exact absurd hstatus (hnot row hrow)
  · exact hnone

/-- **A sign-in that slips past the suspension leaves a live session of a suspended user**,
which is redeemed once the user is reactivated. -/
theorem session_outlives_suspension : ∃ as p as' q req tokens request a s req' tokens',
    (service (Sample.deployment false)).Run System.anyStep (ServicePool.start 0) as p ∧
    p.Returned 0 (.exchange req) (.tokens tokens) ∧
    p.Returned 1 request a ∧ Suspends request Sample.theUser ∧
    (∃ row, p.world.users.lookup Sample.theUser = some row ∧ row.status = .suspended) ∧
    p.world.sessions.lookup (Sample.digest "a") = some s ∧ s.userId = Sample.theUser ∧
    (service (Sample.deployment false)).Run System.anyStep p as' q ∧
    (∃ row, q.world.users.lookup Sample.theUser = some row ∧ row.status = .active) ∧
    q.Returned 3 (.refresh req') (.tokens tokens') ∧ req'.refreshToken = "a" := by
  have hrun : ((service (Sample.deployment false)).follow (ServicePool.start 0)
      Sample.slippedPast).any (fun p => Sample.statusIs .suspended p && Sample.sessionLive p &&
        Sample.suspenderReturned p && Sample.issued 0 none p &&
        ((service (Sample.deployment false)).follow p
          (Sample.reactivated ++ Sample.refreshing 3 "a" "b")).any fun q =>
            Sample.statusIs .active q && Sample.issued 3 (some "a") q) = true := by
    decide +kernel
  obtain ⟨p, hrun, htest⟩ := System.Run.of_follow_any hrun
  simp only [Bool.and_eq_true] at htest
  obtain ⟨⟨⟨⟨hsuspended, hlive⟩, hreturned⟩, hissued⟩, hrest⟩ := htest
  obtain ⟨q, hrun', htest'⟩ := System.Run.of_follow_any hrest
  obtain ⟨hactive, hrefreshed⟩ := Bool.and_eq_true _ _ ▸ htest'
  obtain ⟨s, hs, huser⟩ := Sample.live_of_test hlive
  obtain ⟨req, tokens, hexchanged⟩ := Sample.exchanged_of_test hissued
  obtain ⟨req', tokens', hredeemed, hraw⟩ := Sample.refreshed_of_test hrefreshed
  obtain ⟨request, a, hreturned, hsuspends⟩ := Sample.suspenderReturned_of_test hreturned
  exact ⟨_, p, _, q, req, tokens, request, a, s, req', tokens', hrun, hexchanged, hreturned,
    hsuspends, Sample.status_of_test hsuspended, hs, huser, hrun',
    Sample.status_of_test hactive, hredeemed, hraw⟩

end OidcExchange
