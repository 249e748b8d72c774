import OidcExchange.Adapters.Postgres

/-!
# Revocation on PostgreSQL

A revocation deletes the sessions its snapshot shows. A rotation that commits later than
the snapshot removes a row of it and installs another one that the revocation never
sees. In a run without such a commit a revocation that has returned leaves no session of
its family or user.
-/

set_option autoImplicit false

namespace OidcExchange

namespace Postgres

open Interleaving Storage

/-- The clause covers all sessions of a family or of a user. -/
def Selector.Sweeps : Selector → Prop
  | .sessionFamily _ => True
  | .sessionUser _ => True
  | _ => False

/-- The clause of a revocation's deletion of sessions. -/
def Request.selector? : Request → Option Selector
  | .revokeFamily f => some (.sessionFamily f)
  | .revokeAllUserSessions u => some (.sessionUser u)
  | _ => none

/-- Call `c` has taken the snapshot `ids` of a family's or a user's sessions and has not
ended. -/
structure Sweeping (m : StoreMoment) (c : ℕ) (sel : Selector) (ids : List ℕ) : Prop where
  sweeps : sel.Sweeps
  taken : .performed c (.deleteScan sel) (.ok ids) ∈ m.history
  open_ : .ended c ∉ m.history

/-- No transaction commits a row that a deletion under way was meant to remove. -/
def NoneSlips (m : StoreMoment) (c : ℕ) (_x : Choice) (o : Sql) : Prop :=
  o = .commit → ∀ r sel ids, Sweeping m r sel ids →
    ∀ v ∈ m.world.heap.versions, v.insertedBy = some c → sel.selects v.row = false

/-- What the snapshots of deletions under way cover, what the visited rows have become
and what a commit has done. -/
structure SweepsHold (m : StoreMoment) : Prop where
  covered : ∀ c sel ids, Sweeping m c sel ids → m.world.heap.status c ≠ .aborted →
    m.world.heap.Covered c sel.selects ids
  visited : ∀ c i b, .performed c (.deleteRow i) (.ok b) ∈ m.history →
    m.world.heap.status c ≠ .aborted → m.world.heap.Visited c i
  committed : ∀ c, .performed c .commit (.ok ()) ∈ m.history →
    m.world.heap.status c = .committed

/-! ## What one statement does -/

/-- The answer tells which rows there were, that a row is deleted or that the transaction
is committed. -/
def Tells : (o : Sql) → Ans o → Prop
  | .deleteScan _, .ok _ => True
  | .deleteRow _, .ok _ => True
  | .commit, .ok _ => True
  | _, _ => False

/-- Everything a statement of call `c` can do to the rows; all but reading needs a
transaction that has not ended. -/
inductive HeapStep (c : ℕ) (h : Heap Row) : (o : Sql) → Ans o → Heap Row → Prop
  | read (o : Sql) (ans : Ans o) (htells : ¬ Tells o ans) : HeapStep c h o ans h
  | scanned (sel : Selector) (hactive : h.status c = .active) :
      HeapStep c h (.deleteScan sel) (.ok (h.scan c sel.selects)) h
  | visited (i : ℕ) (b : Bool) (h' : Heap Row) (hactive : h.status c = .active)
      (hr : h.remove c i = some (b, h')) : HeapStep c h (.deleteRow i) (.ok b) h'
  | inserted (row : Row) (hactive : h.status c = .active) :
      HeapStep c h (.insertRow row) (.ok ()) (h.insert c row)
  | committed (ans : Answer Unit) (hactive : h.status c = .active) :
      HeapStep c h .commit ans (h.finish c .committed)
  | aborted (o : Sql) (ans : Ans o) (htells : ¬ Tells o ans) (hactive : h.status c = .active) :
      HeapStep c h o ans (h.finish c .aborted)

variable {c : ℕ} {x : Choice} {o : Sql} {ans : Ans o} {db db' : Database} {m : StoreMoment}

theorem transact_cases {α : Type} {effect : Option (Answer α × Heap Row)} {ans : Answer α}
    (h : transact x c db effect = some (ans, db')) : db.heap.status c = .active ∧
      (effect = some (ans, db'.heap) ∨
        (∃ e, ans = .error e) ∧ db'.heap = db.heap.finish c .aborted) := by
  unfold transact at h
  split at h
  · rename_i hactive
    refine ⟨hactive, ?_⟩
    cases x with
    | proceed =>
      obtain ⟨⟨ans', heap⟩, heffect, hr⟩ := Option.map_eq_some_iff.mp h
      obtain ⟨rfl, rfl⟩ := Prod.mk.inj hr
      exact .inl heffect
    | fail e =>
      obtain ⟨rfl, rfl⟩ := Prod.mk.inj (Option.some.inj h)
      exact .inr ⟨⟨_, rfl⟩, rfl⟩
    | lost e => exact absurd h (by simp)
  · exact absurd h (by simp)

theorem heapStep_of_exec (h : exec x c o db = some (ans, db')) :
    HeapStep c db.heap o ans db'.heap := by
  cases o with
  | now =>
    obtain ⟨rfl, rfl⟩ := Prod.mk.inj (Option.some.inj h)
    exact .read _ _ id
  | begin =>
    obtain ⟨hactive, heffect | ⟨⟨e, rfl⟩, hheap⟩⟩ := transact_cases h
    · obtain ⟨rfl, hheap⟩ := Prod.mk.inj (Option.some.inj heffect)
      exact hheap ▸ .read _ _ id
    · exact hheap ▸ .aborted _ _ id hactive
  | selectSession k =>
    obtain ⟨hactive, heffect | ⟨⟨e, rfl⟩, hheap⟩⟩ := transact_cases h
    · obtain ⟨rfl, hheap⟩ := Prod.mk.inj (Option.some.inj heffect)
      exact hheap ▸ .read _ _ id
    · exact hheap ▸ .aborted _ _ id hactive
  | deleteScan sel =>
    obtain ⟨hactive, heffect | ⟨⟨e, rfl⟩, hheap⟩⟩ := transact_cases h
    · obtain ⟨rfl, hheap⟩ := Prod.mk.inj (Option.some.inj heffect)
      exact hheap ▸ .scanned sel hactive
    · exact hheap ▸ .aborted _ _ id hactive
  | deleteRow i =>
    obtain ⟨hactive, heffect | ⟨⟨e, rfl⟩, hheap⟩⟩ := transact_cases h
    · obtain ⟨⟨b, heap⟩, hr, heq⟩ := Option.map_eq_some_iff.mp heffect
      obtain ⟨rfl, rfl⟩ := Prod.mk.inj heq
      exact .visited i b _ hactive hr
    · exact hheap ▸ .aborted _ _ id hactive
  | insertRow row =>
    obtain ⟨hactive, heffect | ⟨⟨e, rfl⟩, hheap⟩⟩ := transact_cases h
    · obtain ⟨inserted, hinserted, heq⟩ := Option.map_eq_some_iff.mp heffect
      cases inserted with
      | none =>
        obtain ⟨rfl, hheap⟩ := Prod.mk.inj heq
        exact hheap ▸ .aborted _ _ id hactive
      | some heap =>
        obtain ⟨rfl, rfl⟩ := Prod.mk.inj heq
        rw [Heap.insertUnique_eq hinserted]
        exact .inserted row hactive
    · exact hheap ▸ .aborted _ _ id hactive
  | commit =>
    have heffect : ∃ y ans', transact y c db (some (ans', db.heap.finish c .committed)) =
        some (ans, db') := by
      cases x with
      | proceed => exact ⟨.proceed, .ok (), h⟩
      | fail e => exact ⟨.fail e, .ok (), h⟩
      | lost e => exact ⟨.proceed, .error (.error e), h⟩
    obtain ⟨y, ans', h⟩ := heffect
    obtain ⟨hactive, heffect | ⟨⟨e, rfl⟩, hheap⟩⟩ := transact_cases h
    · obtain ⟨rfl, hheap⟩ := Prod.mk.inj (Option.some.inj heffect)
      exact hheap ▸ .committed _ hactive
    · exact hheap ▸ .aborted _ _ id hactive
  | rollback =>
    obtain ⟨hactive, heffect | ⟨⟨e, rfl⟩, hheap⟩⟩ := transact_cases h
    · obtain ⟨rfl, hheap⟩ := Prod.mk.inj (Option.some.inj heffect)
      exact hheap ▸ .aborted _ _ id hactive
    · exact hheap ▸ .aborted _ _ id hactive

section HeapStep

variable {h h' : Heap Row} {r i : ℕ} {sel : Selector} {ids : List ℕ}

/-- A transaction that has ended stays as it is. -/
theorem HeapStep.status (hstep : HeapStep c h o ans h') (hended : h.status r ≠ .active) :
    h'.status r = h.status r := by
  cases hstep with
  | read | scanned | inserted => rfl
  | visited i b _ _ hr =>
    obtain ⟨v, -, -, ⟨-, rfl, -⟩ | ⟨-, -, -, rfl⟩⟩ := Heap.remove_cases hr <;> rfl
  | committed | aborted => exact Heap.finish_status_of_ended hended

theorem HeapStep.stands (hstep : HeapStep c h o ans h') (hstands : h'.status r ≠ .aborted) :
    h.status r ≠ .aborted := by
  intro haborted
  apply hstands
  rw [hstep.status (by simp [haborted]), haborted]

theorem HeapStep.grows (hstep : HeapStep c h o ans h') (hstands : h.status r ≠ .aborted) :
    Heap.Grows r h h' := by
  cases hstep with
  | read | scanned => exact .refl _
  | visited i b _ _ hr => exact Heap.grows_remove hstands hr
  | inserted row => exact Heap.grows_insert c row
  | committed | aborted => exact Heap.grows_finish c _

/-- A snapshot covers the rows until a row slips. -/
theorem HeapStep.covered (hstep : HeapStep c h o ans h') (hstands : h.status r ≠ .aborted)
    (hcovered : h.Covered r sel.selects ids)
    (hslips : o = .commit → ∀ v ∈ h.versions, v.insertedBy = some c → sel.selects v.row = false) :
    h'.Covered r sel.selects ids := by
  cases hstep with
  | read | scanned => exact hcovered
  | visited i b _ _ hr => exact hcovered.remove hstands hr
  | inserted row hactive => exact hcovered.insert hactive
  | committed => exact hcovered.finish fun _ => hslips rfl
  | aborted => exact hcovered.finish (by simp)

theorem HeapStep.snapshot (hstep : HeapStep c h (.deleteScan sel) (.ok ids) h') :
    h'.Covered c sel.selects ids := by
  cases hstep with
  | read _ _ htells => exact absurd trivial htells
  | scanned => exact Heap.covered_scan
  | aborted _ _ htells => exact absurd trivial htells

theorem HeapStep.visit {b : Bool} (hstep : HeapStep c h (.deleteRow i) (.ok b) h') :
    h'.Visited c i := by
  cases hstep with
  | read _ _ htells => exact absurd trivial htells
  | visited _ _ _ _ hr => exact Heap.visited_of_remove hr
  | aborted _ _ htells => exact absurd trivial htells

theorem HeapStep.commits (hstep : HeapStep c h .commit (.ok ()) h') :
    h'.status c = .committed := by
  cases hstep with
  | read _ _ htells => exact absurd trivial htells
  | committed _ hactive => simp [Heap.finish_status hactive]
  | aborted _ _ htells => exact absurd trivial htells

end HeapStep

/-- Every statement that lets nothing slip keeps what the deletions have done. -/
theorem SweepsHold.performs (h : SweepsHold m) (hmeets : NoneSlips m c x o)
    (hex : exec x c o m.world = some (ans, db)) : SweepsHold (m.performed c o ans db) := by
  have hstep := heapStep_of_exec hex
  constructor
  · intro r sel ids hsweeping hstands
    have hopen : .ended r ∉ m.history := by simpa using hsweeping.open_
    rcases List.mem_cons.mp hsweeping.taken with heq | htaken
    · -- the snapshot is taken by this statement
      cases heq
      exact hstep.snapshot
    · have hbefore : Sweeping m r sel ids := ⟨hsweeping.sweeps, htaken, hopen⟩
      exact hstep.covered (hstep.stands hstands)
        (h.covered r sel ids hbefore (hstep.stands hstands))
        fun ho => hmeets ho r sel ids hbefore
  · intro r i b hmem hstands
    rcases List.mem_cons.mp hmem with heq | hmem
    · cases heq
      exact hstep.visit
    · exact (h.visited r i b hmem (hstep.stands hstands)).grows (hstep.grows (hstep.stands hstands))
  · intro r hmem
    rcases List.mem_cons.mp hmem with heq | hmem
    · cases heq
      exact hstep.commits
    · have hcommitted := h.committed r hmem
      have := hstep.status (r := r) (by simp [hcommitted])
      rwa [hcommitted] at this

/-! ## The discipline of a revocation -/

/-- A call that returns from a revocation has visited every row of its snapshot and has
committed. -/
def Outcome {α : Type} (request : Request) (past : List (Performed Ans)) :
    Except (Fault Error) α → Prop
  | .ok _ => ∀ sel, request.selector? = some sel → ∃ ids,
      ⟨.deleteScan sel, .ok ids⟩ ∈ past ∧ (∀ i ∈ ids, ∃ b, ⟨.deleteRow i, .ok b⟩ ∈ past) ∧
        ⟨.commit, .ok ()⟩ ∈ past
  | .error _ => True

section Discipline

variable {α : Type} {past : List (Performed Ans)} {post : List (Performed Ans) →
  Except (Fault Error) α → Prop}

/-- Every statement may be performed at any time. -/
def Ready (_ : Request) (_ : List (Performed Ans)) (_ : Sql) : Prop := True

/-- A deletion that goes on has visited the rows it was given. -/
theorem obeys_deleteRows {request : Request} {ids : List ℕ} {count : ℕ}
    {f : ℕ → Adapter Ans α}
    (hok : ∀ past' count', past <:+ past' → (∀ i ∈ ids, ∃ b, ⟨.deleteRow i, .ok b⟩ ∈ past') →
      (f count').Obeys (Ready request) post past')
    (herror : ∀ past' e, post past' (.error e)) :
    (deleteRows ids count >>= f).Obeys (Ready request) post past := by
  induction ids generalizing past count with
  | nil => exact hok past count List.suffix_rfl (by simp)
  | cons i ids ih =>
    refine ⟨trivial, ?_⟩
    rintro (e | b)
    · exact herror _ _
    · refine ih fun past' count' hsuffix hvisited => hok past' count' ?_ ?_
      · exact (List.suffix_cons ..).trans hsuffix
      · intro j hj
        rcases List.mem_cons.mp hj with rfl | hj
        · exact ⟨b, hsuffix.subset (List.mem_cons_self ..)⟩
        · exact hvisited j hj

theorem obeys_delete {request : Request} {sel : Selector} {f : ℕ → Adapter Ans α}
    (hok : ∀ past' count' ids, past <:+ past' → ⟨.deleteScan sel, .ok ids⟩ ∈ past' →
      (∀ i ∈ ids, ∃ b, ⟨.deleteRow i, .ok b⟩ ∈ past') → (f count').Obeys (Ready request) post past')
    (herror : ∀ past' e, post past' (.error e)) :
    (delete sel >>= f).Obeys (Ready request) post past := by
  refine ⟨trivial, ?_⟩
  rintro (e | ids)
  · exact herror _ _
  · refine obeys_deleteRows (fun past' count' hsuffix hvisited => ?_) herror
    refine hok past' count' ids ((List.suffix_cons ..).trans hsuffix) ?_ hvisited
    exact hsuffix.subset (List.mem_cons_self ..)

end Discipline

/-- A revocation deletes sessions and records and commits. -/
theorem obeys_revocation {request : Request} {sel other : Selector}
    (hsel : request.selector? = some sel) {f : ℕ → ℕ → ℕ} {past : List (Performed Ans)} :
    (do
      begin
      let live ← delete sel
      let retired ← delete other
      commit
      return f live retired : Adapter Ans ℕ).Obeys (Ready request) (Outcome request) past := by
  refine ⟨trivial, ?_⟩
  rintro (e | -)
  · trivial
  refine obeys_delete (fun past₁ live ids _ hscan hvisited => ?_) fun _ _ => trivial
  refine obeys_delete (fun past₂ retired _ hsuffix _ _ => ?_) fun _ _ => trivial
  refine ⟨trivial, ?_⟩
  rintro (e | -)
  · trivial
  intro sel' hsel'
  obtain rfl := Option.some.inj (hsel.symm.trans hsel')
  refine ⟨ids, List.mem_cons_of_mem _ (hsuffix.subset hscan), fun i hi => ?_,
    List.mem_cons_self ..⟩
  obtain ⟨b, hb⟩ := hvisited i hi
  exact ⟨b, List.mem_cons_of_mem _ (hsuffix.subset hb)⟩

/-- Every call obeys. -/
theorem serve_obeys (reuseRetentionSecs : UInt64) (request : Request) :
    (serve reuseRetentionSecs request).Obeys (Ready request) (Outcome request) [] := by
  cases request with
  | rotate h r =>
    refine Program.obeys_of_forall (fun _ _ => trivial) (fun past r => ?_) _
    cases r <;> simp [Outcome, Request.selector?]
  | revokeSession h =>
    refine Program.obeys_of_forall (fun _ _ => trivial) (fun past r => ?_) _
    cases r <;> simp [Outcome, Request.selector?]
  | revokeFamily f =>
    have hbody : (revokeFamily f).Obeys (Ready (.revokeFamily f))
        (Outcome (.revokeFamily f)) [] :=
      Adapter.obeys_assert (fun _ => obeys_revocation rfl) fun _ => trivial
    exact hbody.bind (fun _ _ h => h) fun _ _ _ => trivial
  | revokeAllUserSessions u =>
    have hbody : (revokeAllUserSessions u).Obeys (Ready (.revokeAllUserSessions u))
        (Outcome (.revokeAllUserSessions u)) [] :=
      Adapter.obeys_assert (fun _ => obeys_revocation rfl) fun _ => trivial
    exact hbody.bind (fun _ _ h => h) fun _ _ _ => trivial

/-- Deletions under way, kept by every statement that lets nothing slip. -/
def sweepProtocol : Protocol semantics Ready where
  inv := SweepsHold
  allowed := NoneSlips
  begins := fun {m c i} h _ => by
    refine ⟨fun r sel ids hs => h.covered r sel ids ⟨hs.sweeps, ?_, ?_⟩,
      fun r i b hmem => h.visited r i b (by simpa using hmem),
      fun r hmem => h.committed r (by simpa using hmem)⟩
    · simpa using hs.taken
    · simpa using hs.open_
  performs h _ _ hmeets hex := h.performs hmeets hex
  ends := fun {m c i} h _ => by
    refine ⟨fun r sel ids hs => h.covered r sel ids ⟨hs.sweeps, ?_, ?_⟩,
      fun r i b hmem => h.visited r i b (by simpa using hmem),
      fun r hmem => h.committed r (by simpa using hmem)⟩
    · simpa using hs.taken
    · exact fun hmem => hs.open_ (List.mem_cons_of_mem _ hmem)
  drifts := fun {m k w} h hdrift => by
    cases k with
    | tick t =>
      have hheap : w.heap = m.world.heap := by
        simp only [semantics, drift] at hdrift
        split at hdrift
        · rw [← Option.some.inj hdrift]
        · exact absurd hdrift (by simp)
      constructor
      · intro r sel ids hs
        rw [Moment.drifted_world, hheap]
        exact h.covered r sel ids ⟨hs.sweeps, hs.taken, hs.open_⟩
      · intro r i b hmem
        rw [Moment.drifted_world, hheap]
        exact h.visited r i b hmem
      · intro r hmem
        rw [Moment.drifted_world, hheap]
        exact h.committed r hmem

/-- **A revocation that nothing slips past is complete**: in every run without such a commit,
when a revocation returns there is no live session of its family or user. -/
theorem revocation_leaves_none {reuseRetentionSecs : UInt64} {rows : List Row} {clock : Instant}
    {p q : StorePool} {as : List StoreAct} {c : ℕ} {x : Choice} {request : Request}
    {sel : Selector} {a : Response}
    (hrun : (store reuseRetentionSecs).Run (Pool.Under NoneSlips) (StorePool.start rows clock) as p)
    (hmeets : p.Under NoneSlips (.advance c x : StoreAct))
    (hstep : (store reuseRetentionSecs).step p (.advance c x) = some q)
    (hreturned : q.Returned c request a) (hsel : request.selector? = some sel) :
    ∀ v ∈ q.world.heap.versions, sel.selects v.row = true → q.world.heap.live v = false := by
  have hstart : SweepsHold (StorePool.start rows clock).toMoment := by
    constructor
    · rintro c sel ids ⟨-, htaken, -⟩
      simp [StorePool.start, Pool.initial] at htaken
    · simp [StorePool.start, Pool.initial]
    · simp [StorePool.start, Pool.initial]
  have hdisciplined := (Disciplined.initial _).run (serve_obeys reuseRetentionSecs) hrun
  have hinv := sweepProtocol.run (serve_obeys reuseRetentionSecs) hrun (Disciplined.initial _) hstart
  obtain ⟨m, hm, hrunning, hpost, hq⟩ := sweepProtocol.at_return (serve_obeys reuseRetentionSecs)
    hdisciplined hinv hmeets hstep hreturned
  obtain ⟨ids, hscan, hvisited, hcommit⟩ := hpost sel hsel
  have hsweeps : sel.Sweeps := by
    cases request <;> simp_all [Request.selector?] <;> subst hsel <;> trivial
  have hcommitted := hm.committed c ((Moment.mem_past ..).mp hcommit)
  have hstands : m.world.heap.status c ≠ .aborted := by simp [hcommitted]
  have hclean : m.world.heap.Clean sel.selects := by
    refine (hm.covered c sel ids ⟨hsweeps, (Moment.mem_past ..).mp hscan, hrunning.open_⟩
      hstands).clean hcommitted fun i hi => ?_
    obtain ⟨b, hb⟩ := hvisited i hi
    exact hm.visited c i b ((Moment.mem_past ..).mp hb) hstands
  have hworld : q.world = m.world := by rw [hq, Moment.ended_world]
  intro v hv hselects
  rw [hworld] at hv ⊢
  by_cases hinstalled : m.world.heap.installed v = true
  · simp [Heap.live, hclean v hv hselects hinstalled]
  · simp [Heap.live, hinstalled]

/-! ## A rotation that slips past -/

namespace Sample

open Adapter.Sample

/-- A day of retention. -/
def retention : UInt64 := 86400

/-- The store with one live generation. -/
def start : StorePool := .start [.session (generation "a" 0)] 0

/-- A call goes on with its next `n` statements. -/
def advance (c n : ℕ) : List StoreAct := List.replicate n (.advance c .proceed)

/-- Call `c` starts to replace a generation and performs `n` statements. -/
def rotating (c : ℕ) (old new : String) (number : UInt32) (n : ℕ) : List StoreAct :=
  .begin c (.rotate old (generation new number)) :: advance c n

/-- Call `c` starts to revoke the family and performs `n` statements. -/
def revoking (c n : ℕ) : List StoreAct := .begin c (.revokeFamily theFamily) :: advance c n

/-- No deletion of a family's or a user's sessions has begun, or the transaction has
inserted nothing. -/
def nothingSlips (p : StorePool) : StoreAct → Bool
  | .advance c _ =>
    (p.history.all fun e => match e with
      | .performed _ (.deleteScan (.sessionFamily _)) _ => false
      | .performed _ (.deleteScan (.sessionUser _)) _ => false
      | _ => true) || p.world.heap.versions.all fun v => v.insertedBy != some c
  | _ => true

theorem noneSlips_of_test {p : StorePool} {a : StoreAct} (htest : nothingSlips p a = true) :
    p.Under NoneSlips a := by
  rintro c x o ⟨rfl, -⟩ - r sel ids ⟨hsweeps, htaken, -⟩ v hv hinserted
  rcases Bool.or_eq_true_iff.mp htest with hquiet | hempty
  · have hno := List.all_eq_true.mp hquiet _ htaken
    cases sel with
    | sessionFamily f => exact absurd hno (by simp)
    | sessionUser u => exact absurd hno (by simp)
    | _ => exact absurd hsweeps id
  · have := List.all_eq_true.mp hempty v hv
    simp [hinserted] at this

/-- Call `c` has returned from the revocation. -/
def revoked (c : ℕ) (p : StorePool) : Bool :=
  match p.calls c with
  | some ⟨.revokeFamily f, .done (.revoked _)⟩ => f == theFamily
  | _ => false

theorem revoked_of_test {c : ℕ} {p : StorePool} (h : revoked c p = true) :
    ∃ count, p.Returned c (.revokeFamily theFamily) (.revoked count) := by
  unfold revoked at h
  split at h
  · rename_i f count hc
    obtain rfl : f = theFamily := by simpa using h
    exact ⟨count, hc⟩
  · exact absurd h (by simp)

/-- Call 0 has replaced the generation `a`. -/
def swapped (p : StorePool) : Bool :=
  match p.calls 0 with
  | some ⟨.rotate h _, .done (.swapped won)⟩ => h == "a" && won
  | _ => false

theorem swapped_of_test {p : StorePool} (h : swapped p = true) :
    ∃ r, p.Returned 0 (.rotate "a" r) (.swapped true) := by
  unfold swapped at h
  split at h
  · rename_i k r won hc
    simp only [Bool.and_eq_true, beq_iff_eq] at h
    obtain ⟨rfl, rfl⟩ := h
    exact ⟨r, hc⟩
  · exact absurd h (by simp)

/-- A live session of the family that meets the test. -/
def familySession (p : StorePool) (test : Version Row → Bool) (v : Version Row) : Bool :=
  (Selector.sessionFamily theFamily).selects v.row && p.world.heap.live v && test v

/-- One rotation has been committed and another one has taken its snapshot, when the
revocation deletes the live generation. -/
def uncontested : List StoreAct :=
  rotating 0 "a" "b" 1 8 ++ rotating 1 "b" "c" 2 2 ++ revoking 2 3 ++ advance 1 1 ++ advance 2 2

/-- A rotation has marked the live generation when the revocation takes its snapshot. -/
def overtaken : List StoreAct := revoking 1 2 ++ advance 0 4 ++ advance 1 4

end Sample

open Sample Adapter.Sample in
/-- A revocation that a rotation waits for leaves no session. -/
theorem revocation_leaves_none_uncontested : ∃ as p q count,
    (store retention).Run (Pool.Under NoneSlips) start as p ∧
    (store retention).step p (.advance 2 .proceed) = some q ∧
    q.Returned 2 (.revokeFamily theFamily) (.revoked count) ∧
    ∀ v ∈ q.world.heap.versions, (Selector.sessionFamily theFamily).selects v.row = true →
      q.world.heap.live v = false := by
  have hrun : ((store retention).followWhen nothingSlips start uncontested).any (fun p =>
      nothingSlips p (.advance 2 .proceed) &&
        ((store retention).step p (.advance 2 .proceed)).any (revoked 2)) = true := by
    decide +kernel
  obtain ⟨p, hrun, htest⟩ := System.Run.of_followWhen_any (fun _ _ h => noneSlips_of_test h) hrun
  obtain ⟨hmeets, hrest⟩ := Bool.and_eq_true _ _ ▸ htest
  obtain ⟨q, hstep, hrevoked⟩ := (Option.any_eq_true _ _).mp hrest
  obtain ⟨count, hreturned⟩ := revoked_of_test hrevoked
  exact ⟨_, p, q, count, hrun, hstep, hreturned,
    revocation_leaves_none hrun (noneSlips_of_test hmeets) hstep hreturned rfl⟩

open Sample Adapter.Sample in
/-- **A rotation that commits behind the revocation's snapshot installs a session the
revocation leaves**: the revocation returns, the generation that was live when it began
has been replaced, and the replacement is live. -/
theorem revocation_outrun : ∃ as p as' q r count, ∃ (i : ℕ) (g g' v : Version Row),
    (store retention).Run System.anyStep start as p ∧ p.calls 1 = none ∧
    p.world.heap.versions[i]? = some g ∧ p.world.heap.live g = true ∧
    (store retention).Run System.anyStep p as' q ∧
    q.Returned 1 (.revokeFamily theFamily) (.revoked count) ∧
    q.Returned 0 (.rotate "a" r) (.swapped true) ∧
    q.world.heap.versions[i]? = some g' ∧ g'.deletedBy = some 0 ∧
    v ∈ q.world.heap.versions ∧ v.insertedBy = some 0 ∧
    (Selector.sessionFamily theFamily).selects v.row = true ∧ q.world.heap.live v = true := by
  have hrun : ((store retention).follow start (rotating 0 "a" "b" 1 4)).any (fun p =>
      (p.calls 1).isNone && p.world.heap.versions[0]?.any (familySession p fun _ => true) &&
        ((store retention).follow p overtaken).any fun q => revoked 1 q && swapped q &&
          q.world.heap.versions[0]?.any (fun g => g.deletedBy == some 0) &&
            q.world.heap.versions.any (familySession q fun v => v.insertedBy == some 0)) = true := by
    decide +kernel
  obtain ⟨p, hrun, htest⟩ := System.Run.of_follow_any hrun
  simp only [Bool.and_eq_true] at htest
  obtain ⟨⟨hnew, hfirst⟩, hrest⟩ := htest
  obtain ⟨q, hrun', htest'⟩ := System.Run.of_follow_any hrest
  simp only [Bool.and_eq_true] at htest'
  obtain ⟨⟨⟨hrevoked, hswapped⟩, hreplaced⟩, hinstalled⟩ := htest'
  obtain ⟨g, hg, hlive⟩ := (Option.any_eq_true _ _).mp hfirst
  obtain ⟨g', hg', hdeleted⟩ := (Option.any_eq_true _ _).mp hreplaced
  obtain ⟨v, hv, hsession⟩ := List.any_eq_true.mp hinstalled
  obtain ⟨count, hreturned⟩ := revoked_of_test hrevoked
  obtain ⟨r, hreturned'⟩ := swapped_of_test hswapped
  simp only [familySession, Bool.and_eq_true, beq_iff_eq] at hlive hdeleted hsession
  exact ⟨_, p, _, q, r, count, 0, g, g', v, hrun, by simpa using hnew, hg, hlive.1.2, hrun',
    hreturned, hreturned', hg', hdeleted, hv, hsession.2, hsession.1.1, hsession.1.2⟩

end Postgres

end OidcExchange
