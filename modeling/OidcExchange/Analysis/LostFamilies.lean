import OidcExchange.Analysis.DynamoRosterSteps
import OidcExchange.Analysis.DynamoSignOut

/-!
# Families that a roster loses

A rotation reads the roster before its transaction and writes the sessions back in it, and the
transaction does not look whether the roster is still the same. A login in between commits, and
its session is then taken from the roster. As long as no step does anything of the kind, the
roster of every user names exactly the live sessions, except for what a revocation that failed
half way, or is still under way, has deleted already.
-/

set_option autoImplicit false

namespace OidcExchange

namespace Dynamo

open Interleaving Storage

variable {place : Key → ℕ} {secs : UInt64} {q : StorePool} {u f h : String} {s : Session}

/-- Every call that has sent deletions has returned. -/
def DeletionsDone (q : StorePool) : Prop :=
  ∀ c k, Submitted (q.toMoment.past c) k → ∃ i a, q.Returned c i a

/-- The roster names the live sessions of the user, and each entry that of its family. -/
structure Exact (w : Store) (u : String) : Prop where
  sessions : ∀ h, h ∈ (w.roster u).sessions ↔ ∃ s, w.sessions.lookup h = some s ∧ s.userId = u
  live : ∀ f h, h ≠ "" →
    ((∃ family, (w.roster u).families.lookup f = some family ∧ family.live = h) ↔
      ∃ s, w.sessions.lookup h = some s ∧ s.userId = u ∧ s.familyId = f)

/-- No roster has lost a family. -/
structure NoneLost (q : StorePool) : Prop where
  /-- A live session is in the roster of its user and in the entry of its family. -/
  named : ∀ h s, q.world.sessions.lookup h = some s →
    h ∈ (q.world.roster s.userId).sessions ∧ ∃ family,
      (q.world.roster s.userId).families.lookup s.familyId = some family ∧ family.live = h
  /-- Where no revocation is under way or has failed half way, nothing else is in a roster. -/
  agrees : DeletionsDone q → ∀ u, Exact q.world u
  /-- The roster that a rotation reads has the session that it rotates. -/
  rotations : ∀ c h r roster, .began c (.rotate h r) ∈ q.history →
    Read (q.toMoment.past c) r.userId roster → h ∈ roster.sessions
  /-- The roster that a revocation reads has the sessions of its families. -/
  revocations : ∀ c u roster, Read (q.toMoment.past c) u roster → ∀ f family,
    roster.families.lookup f = some family → family.live = "" ∨ family.live ∈ roster.sessions

/-- A revocation that has returned has forgotten what it sent. -/
theorem forgotten_of_returned (hd : Disciplined Ready Result q) {c : ℕ} {i j : Request}
    {a : Response} (hasked : .began c i ∈ q.history) (hrevokes : i.revokes = true)
    (hreturned : q.Returned c j a) (hk : Submitted (q.toMoment.past c) (.session h)) :
    Forgotten (q.toMoment.past c) h := by
  obtain rfl := (hd.asked c _ hreturned i).mp hasked
  have hresult := hd.returned hreturned
  cases i with
  | revokeFamily f =>
    obtain ⟨n, -, houtcome⟩ := hresult
    exact (houtcome.deleted _ hk).2 h rfl
  | revokeAllUserSessions u =>
    obtain ⟨n, -, houtcome⟩ := hresult
    exact (houtcome.deleted _ hk).2 h rfl
  | _ => cases hrevokes

/-- The session that an entry points at is there. -/
theorem RostersHold.alive (hi : RostersHold q.toMoment) (hd : Disciplined Ready Result q)
    (hdone : DeletionsDone q) {family : FamilyRoster}
    (hlookup : (q.world.roster u).families.lookup f = some family) (hne : family.live ≠ "") :
    ∃ s, q.world.sessions.lookup family.live = some s ∧ s.userId = u ∧ s.familyId = f := by
  cases hs : q.world.sessions.lookup family.live with
  | none =>
    obtain ⟨c, i, hasked, hrevokes, hk⟩ := hi.pending u f family hlookup hne hs
    obtain ⟨j, a, hreturned⟩ := hdone c _ hk
    have hforgotten := forgotten_of_returned hd hasked hrevokes hreturned hk
    exact absurd rfl (hi.forgotten c _ hforgotten u f family hlookup)
  | some s =>
    obtain ⟨hhash, hb⟩ := hi.kept _ s hs
    obtain ⟨t, ht, hhash', huser, hfamily⟩ := ((hi.current u).filed f family hlookup).2 hne
    obtain rfl := hi.unique s t hb ht (hhash.trans hhash'.symm)
    exact ⟨s, rfl, huser, hfamily⟩

/-- The invariant says that nothing is lost. -/
theorem RostersHold.noneLost (hi : RostersHold q.toMoment) (hd : Disciplined Ready Result q) :
    NoneLost q where
  named h s hs := by
    obtain ⟨family, hlookup, hlive⟩ := hi.listed h s hs
    obtain ⟨hhash, hb⟩ := hi.kept h s hs
    refine ⟨((hi.current s.userId).paired h).mpr ⟨?_, _, family, hlookup, hlive⟩, family, hlookup,
      hlive⟩
    exact hhash ▸ (hi.named s hb).1
  agrees hdone u := by
    constructor
    · intro h
      constructor
      · intro hh
        obtain ⟨hne, f, family, hlookup, rfl⟩ := ((hi.current u).paired h).mp hh
        obtain ⟨s, hs, huser, -⟩ := hi.alive hd hdone hlookup hne
        exact ⟨s, hs, huser⟩
      · rintro ⟨s, hs, rfl⟩
        obtain ⟨family, hlookup, hlive⟩ := hi.listed h s hs
        obtain ⟨hhash, hb⟩ := hi.kept h s hs
        refine ((hi.current s.userId).paired h).mpr ⟨?_, _, family, hlookup, hlive⟩
        exact hhash ▸ (hi.named s hb).1
    · intro f h hne
      constructor
      · rintro ⟨family, hlookup, rfl⟩
        exact hi.alive hd hdone hlookup hne
      · rintro ⟨s, hs, rfl, rfl⟩
        exact hi.listed h s hs
  rotations := hi.rotating
  revocations c u roster hread f family hlookup := by
    by_cases hne : family.live = ""
    · exact .inl hne
    · exact .inr (((hi.sound c u roster hread).paired _).mpr ⟨hne, f, family, hlookup, rfl⟩)

/-- **No roster loses a family as long as none of its sessions changes under a rotation**: in
every run in which a rotation that commits finds the sessions of the roster as it has read them,
and a roster is cleared only when no session of the user is left, the rosters name exactly the
live sessions where no revocation is under way or has failed half way, and no rotation and no
revocation of a family ever finds its roster without them. -/
theorem noneLost_run {clock : Instant} {as : List StoreAct}
    (hrun : (store place secs).Run (Pool.Under KeepsRosters) (.start clock) as q) : NoneLost q := by
  obtain ⟨hi, hd⟩ := rostersHold_run hrun
  exact hi.noneLost hd

/-! ## Runs -/

namespace Sample

open Adapter.Sample

/-- The session that an event brings. -/
def broughtBy : Event Ans Request → Option Session
  | .performed _ o _ => brings o
  | _ => none

theorem exists_broughtBy {m : StoreMoment} (hs : Brought m s) :
    ∃ e ∈ m.history, broughtBy e = some s := by
  obtain ⟨c, e, hmem, hs⟩ := hs
  exact ⟨_, (Moment.mem_past ..).mp hmem, hs⟩

/-- No event has brought a session that agrees with this one. -/
def isFirst {β : Type} [BEq β] (field : Session → β) (m : StoreMoment) (s : Session) : Bool :=
  m.history.all fun e => (broughtBy e).all fun t => field t != field s

theorem ne_of_isFirst {β : Type} [BEq β] [LawfulBEq β] {field : Session → β} {m : StoreMoment}
    {t : Session} (h : isFirst field m s = true) (ht : Brought m t) : field t ≠ field s := by
  obtain ⟨e, hmem, he⟩ := exists_broughtBy ht
  have hall := List.all_eq_true.mp h e hmem
  rw [he] at hall
  simpa using hall

/-- If call `c` is a rotation, its session is there. -/
def seesSession (m : StoreMoment) (c : ℕ) : Event Ans Request → Bool
  | .began d (.rotate h _) => d != c || (m.world.sessions.lookup h).isSome
  | _ => true

/-- The roster that call `c` has read has the sessions of the roster now. -/
def seesRoster (m : StoreMoment) (c : ℕ) : Event Ans Request → Bool
  | .performed d (.getRoster u) (.ok roster) =>
    d != c || (roster.sessions ⊆ (m.world.roster u).sessions &&
      (m.world.roster u).sessions ⊆ roster.sessions)
  | _ => true

/-- The test of `KeepsRosters`. -/
def isKept (m : StoreMoment) (c : ℕ) (_x : Choice) : Command → Bool
  | .store s => s.refreshTokenHash != "" && isFirst Session.refreshTokenHash m s &&
      isFirst Session.familyId m s
  | .rotate a => a.replacement.refreshTokenHash != "" &&
      isFirst Session.refreshTokenHash m a.replacement && m.history.all (seesRoster m c)
  | .getRoster _ => m.history.all (seesSession m c)
  | .clearRoster _ => false
  | _ => true

theorem keepsRosters_of_test (m : StoreMoment) (c : ℕ) (x : Choice) (o : Command)
    (h : isKept m c x o = true) : KeepsRosters m c x o where
  fresh s hs := by
    cases o with
    | store t =>
      obtain rfl := Option.some.inj hs
      simp only [isKept, Bool.and_eq_true, bne_iff_ne] at h
      exact ⟨h.1.1, fun t ht => ne_of_isFirst h.1.2 ht⟩
    | rotate a =>
      obtain rfl := Option.some.inj hs
      simp only [isKept, Bool.and_eq_true, bne_iff_ne] at h
      exact ⟨h.1.1, fun t ht => ne_of_isFirst h.1.2 ht⟩
    | _ => cases hs
  newFamily s hs t ht := by
    subst hs
    simp only [isKept, Bool.and_eq_true] at h
    exact ne_of_isFirst h.2 ht
  stillLive h' r u hasked ho := by
    subst ho
    have hsees := List.all_eq_true.mp h _ hasked
    simpa [seesSession] using hsees
  sameRoster a ho _ _ roster hread h' := by
    subst ho
    simp only [isKept, Bool.and_eq_true] at h
    have hsees := List.all_eq_true.mp h.2 _ ((Moment.mem_past ..).mp hread)
    simp only [seesRoster, bne_self_eq_false, Bool.false_or, Bool.and_eq_true,
      decide_eq_true_eq] at hsees
    exact ⟨fun hh => hsees.1 hh, fun hh => hsees.2 hh⟩
  noneLeft u ho := by
    subst ho
    cases h

/-- A session of the first family is rotated. -/
def rotated : List StoreAct :=
  [.begin 2 (.rotate "a" (generation "c" 1)), .advance 2 .proceed, .advance 2 .proceed,
    .advance 2 .proceed, .advance 2 .proceed]

/-- A session of the other family is stored while the rotation is under way, and rotated later. -/
def rotatedOver : List StoreAct :=
  [.begin 2 (.rotate "a" (generation "c" 1)), .advance 2 .proceed, .advance 2 .proceed,
    .advance 2 .proceed, .begin 3 (.store (otherLogin "b")), .advance 3 .proceed,
    .advance 2 .proceed, .begin 4 (.rotate "b" (otherLogin "d")), .advance 4 .proceed,
    .advance 4 .proceed, .advance 4 .proceed]

/-- The session of the other family is there and not in the roster. -/
def isLost (q : StorePool) : Bool :=
  q.world.sessions.lookup "b" == some (otherLogin "b") &&
    !(q.world.roster theUser).sessions.contains "b"

/-- The rotation of that session has panicked. -/
def hasPanicked (q : StorePool) : Bool :=
  match q.calls 4 with
  | some ⟨.rotate h r, .raise .panic⟩ => h == "b" && r == otherLogin "d"
  | _ => false

theorem failed_of_hasPanicked {q : StorePool} (h : hasPanicked q = true) :
    q.Failed 4 (.rotate "b" (otherLogin "d")) .panic := by
  unfold hasPanicked at h
  split at h
  · rename_i h' r hc
    obtain ⟨rfl, rfl⟩ : h' = "b" ∧ r = otherLogin "d" := by simpa using h
    exact hc
  · cases h

end Sample

open Sample Adapter.Sample in
/-- A login and a rotation. -/
theorem noneLost_run_rotated : ∃ as q,
    (store (fun _ => 0) 60).Run (Pool.Under KeepsRosters) (.start 0) as q ∧ NoneLost q ∧
      (q.world.sessions.lookup "c").isSome = true := by
  have hrun : ((store (fun _ => 0) 60).followWhen (Pool.passes isKept) (.start 0)
      (signIn ++ rotated)).any (fun q => (q.world.sessions.lookup "c").isSome) = true := by
    decide +kernel
  obtain ⟨q, hrun, htest⟩ :=
    System.Run.of_followWhen_any (Pool.under_of_passes keepsRosters_of_test) hrun
  exact ⟨_, q, hrun, noneLost_run hrun, htest⟩

open Sample Adapter.Sample in
/-- A login that a rotation does not see: no call is in flight, the session is there and not in
the roster, and a rotation of it has panicked. -/
theorem lost_by_rotation : ∃ as q,
    (store (fun _ => 0) 60).Run System.anyStep (.start 0) as q ∧ q.Idle ∧
      q.world.sessions.lookup "b" = some (otherLogin "b") ∧
      "b" ∉ (q.world.roster theUser).sessions ∧
      q.Failed 4 (.rotate "b" (otherLogin "d")) .panic := by
  have hrun : ((store (fun _ => 0) 60).follow (.start 0) (signIn ++ rotatedOver)).any (fun q =>
      Pool.finishedBelow 5 q && isLost q && hasPanicked q) = true := by
    decide +kernel
  obtain ⟨q, hrun, htest⟩ := System.Run.of_follow_any hrun
  simp only [Bool.and_eq_true, isLost, beq_iff_eq, Bool.not_eq_true', List.contains_eq_mem,
    decide_eq_false_iff_not] at htest
  obtain ⟨⟨hfinished, hsession, hlost⟩, hpanicked⟩ := htest
  exact ⟨_, q, hrun, Pool.idle_of_finishedBelow hrun (by decide) hfinished, hsession, hlost,
    failed_of_hasPanicked hpanicked⟩

end Dynamo

end OidcExchange
