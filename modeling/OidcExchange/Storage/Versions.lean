import Mathlib.Data.List.Basic
import Mathlib.Logic.Function.Basic

/-!
# Rows under read-committed transactions

Every version of every row that was ever written, with the transaction that inserted it
and the one that last marked it deleted. A statement sees the rows that were committed
when it starts, and the changes of its own transaction. A deletion works through the
rows it saw one by one: it waits for a row that another transaction has marked, skips
the row when that transaction commits, and never looks for rows that came later.

The last section is the rule for a deletion that is to leave nothing behind: what it saw
covers every committed row that meets its predicate, as long as no transaction commits a
new one.
-/

set_option autoImplicit false

namespace Storage

universe u

/-- How far a transaction has come. -/
inductive TxStatus : Type
  | active
  | committed
  | aborted
  deriving DecidableEq

/-- A row as one transaction inserted it; `none` stands for a row that was there before
every transaction. -/
structure Version (ρ : Type u) : Type u where
  row : ρ
  insertedBy : Option ℕ
  deletedBy : Option ℕ

/-- All versions in the order they were written, and how far the transactions have come. -/
structure Heap (ρ : Type u) : Type u where
  versions : List (Version ρ)
  status : ℕ → TxStatus

namespace Heap

variable {ρ : Type u} (h : Heap ρ)

/-- The heap that holds the given rows and has seen no transaction. -/
def ofRows (rows : List ρ) : Heap ρ where
  versions := rows.map fun row => ⟨row, none, none⟩
  status := fun _ => .active

/-- The transaction that inserted the version has committed. -/
def installed (v : Version ρ) : Bool := v.insertedBy.all fun t => h.status t == .committed

/-- The transaction that deleted the version has committed. -/
def removed (v : Version ρ) : Bool := v.deletedBy.any fun t => h.status t == .committed

/-- The version is there for everybody. -/
def live (v : Version ρ) : Bool := h.installed v && !h.removed v

/-- A statement of transaction `c` that starts now sees the version. -/
def sees (c : ℕ) (v : Version ρ) : Bool :=
  (h.installed v || v.insertedBy == some c) && !(h.removed v || v.deletedBy == some c)

/-- A transaction other than `c` that has not ended. -/
def pendingBut (c : ℕ) (t : Option ℕ) : Bool := t.any fun t => t != c && h.status t == .active

/-- The places of the rows that a statement of transaction `c` sees and selects. -/
def scan (c : ℕ) (p : ρ → Bool) : List ℕ :=
  (List.range h.versions.length).filter fun i =>
    h.versions[i]?.any fun v => h.sees c v && p v.row

/-- Transaction `c` deletes the row at a place: it waits for another transaction that has
marked the row, skips a row that is gone, and marks the row otherwise. -/
def remove (c i : ℕ) : Option (Bool × Heap ρ) :=
  match h.versions[i]? with
  | none => none
  | some v =>
    if h.pendingBut c v.deletedBy then none
    else if h.removed v || v.deletedBy == some c then some (false, h)
    else some (true, { h with versions := h.versions.set i { v with deletedBy := some c } })

/-- Transaction `c` inserts a row. -/
def insert (c : ℕ) (row : ρ) : Heap ρ :=
  { h with versions := h.versions ++ [⟨row, some c, none⟩] }

/-- Transaction `c` inserts a row under a unique key: it waits for another transaction
that is inserting or deleting a row with that key, and is refused while there is one. -/
def insertUnique (c : ℕ) (same : ρ → Bool) (row : ρ) : Option (Option (Heap ρ)) :=
  let rivals := h.versions.filter fun v => same v.row
  if rivals.any fun v => h.pendingBut c v.insertedBy ||
      ((h.installed v || v.insertedBy == some c) && h.pendingBut c v.deletedBy) then none
  else if rivals.any (h.sees c) then some none
  else some (some (h.insert c row))

/-- A transaction that has not ended ends. -/
def finish (c : ℕ) (s : TxStatus) : Heap ρ :=
  if h.status c = .active then { h with status := Function.update h.status c s } else h

variable {h} {c i : ℕ} {v : Version ρ} {p : ρ → Bool}

theorem mem_scan : i ∈ h.scan c p ↔
    ∃ v, h.versions[i]? = some v ∧ h.sees c v = true ∧ p v.row = true := by
  simp only [scan, List.mem_filter, List.mem_range, Option.any_eq_true, Bool.and_eq_true]
  constructor
  · rintro ⟨-, hv⟩
    exact hv
  · rintro ⟨v, hv, hsees⟩
    exact ⟨(List.getElem?_eq_some_iff.mp hv).1, v, hv, hsees⟩

/-- What the deletion of one row can do. -/
theorem remove_cases {b : Bool} {h' : Heap ρ} (hr : h.remove c i = some (b, h')) :
    ∃ v, h.versions[i]? = some v ∧ h.pendingBut c v.deletedBy = false ∧
      ((b = false ∧ h' = h ∧ (h.removed v = true ∨ v.deletedBy = some c)) ∨
        (b = true ∧ h.removed v = false ∧ v.deletedBy ≠ some c ∧
          h' = { h with versions := h.versions.set i { v with deletedBy := some c } })) := by
  unfold remove at hr
  cases hv : h.versions[i]? with
  | none => simp [hv] at hr
  | some v =>
    simp only [hv] at hr
    by_cases hpending : h.pendingBut c v.deletedBy = true
    · simp [hpending] at hr
    · by_cases hgone : (h.removed v || v.deletedBy == some c) = true
      · refine ⟨v, rfl, by simpa using hpending, .inl ?_⟩
        rw [if_neg hpending, if_pos hgone] at hr
        obtain ⟨rfl, rfl⟩ := Prod.mk.inj (Option.some.inj hr)
        exact ⟨rfl, rfl, by simpa using hgone⟩
      · refine ⟨v, rfl, by simpa using hpending, .inr ?_⟩
        rw [if_neg hpending, if_neg hgone] at hr
        obtain ⟨rfl, rfl⟩ := Prod.mk.inj (Option.some.inj hr)
        simp only [Bool.or_eq_true, not_or, beq_iff_eq] at hgone
        exact ⟨rfl, by simpa using hgone.1, hgone.2, rfl⟩

/-- An insertion that takes place is an insertion. -/
theorem insertUnique_eq {same : ρ → Bool} {row : ρ} {h' : Heap ρ}
    (hi : h.insertUnique c same row = some (some h')) : h' = h.insert c row := by
  unfold insertUnique at hi
  dsimp only at hi
  split at hi
  · exact absurd hi (by simp)
  · split at hi
    · exact absurd hi (by simp)
    · exact (Option.some.inj (Option.some.inj hi)).symm

@[simp] theorem finish_versions (s : TxStatus) : (h.finish c s).versions = h.versions := by
  unfold finish
  split <;> rfl

theorem finish_status {s : TxStatus} (hactive : h.status c = .active) :
    (h.finish c s).status = Function.update h.status c s := by
  simp [finish, hactive]

/-- A transaction that has ended stays as it is. -/
theorem finish_status_of_ended {s : TxStatus} {t : ℕ} (hended : h.status t ≠ .active) :
    (h.finish c s).status t = h.status t := by
  unfold finish
  split
  · rename_i hactive
    have hne : t ≠ c := fun heq => hended (heq ▸ hactive)
    simp [hne]
  · rfl

theorem removed_iff : h.removed v = true ↔
    ∃ t, v.deletedBy = some t ∧ h.status t = .committed := by
  simp [removed, Option.any_eq_true]

theorem installed_iff : h.installed v = true ↔
    ∀ t, v.insertedBy = some t → h.status t = .committed := by
  simp [installed, Option.all_eq_true]

/-! ## Deleting all rows that meet a predicate -/

/-- Version `v` is gone for everybody, or will be once transaction `c` commits. -/
def Doomed (h : Heap ρ) (c : ℕ) (v : Version ρ) : Prop :=
  h.removed v = true ∨ v.deletedBy = some c

/-- The places `ids` hold every committed row that meets the predicate and is not doomed. -/
def Covered (h : Heap ρ) (c : ℕ) (p : ρ → Bool) (ids : List ℕ) : Prop :=
  ∀ i v, h.versions[i]? = some v → p v.row = true → h.installed v = true →
    i ∈ ids ∨ h.Doomed c v

/-- The row at the place is doomed. -/
def Visited (h : Heap ρ) (c i : ℕ) : Prop :=
  ∃ v, h.versions[i]? = some v ∧ h.Doomed c v

/-- Every committed row that meets the predicate is deleted. -/
def Clean (h : Heap ρ) (p : ρ → Bool) : Prop :=
  ∀ v ∈ h.versions, p v.row = true → h.installed v = true → h.removed v = true

/-- What a deletion sees when it starts covers the rows. -/
theorem covered_scan : h.Covered c p (h.scan c p) := by
  intro i v hv hp hinstalled
  by_cases hdoomed : h.Doomed c v
  · exact .inr hdoomed
  · left
    rw [mem_scan]
    refine ⟨v, hv, ?_, hp⟩
    simp only [Doomed, not_or] at hdoomed
    simp [sees, hinstalled, hdoomed.1, hdoomed.2]

/-- A heap that has grown: the versions are where they were, and what was doomed by transaction `c` still is. -/
structure Grows (c : ℕ) (h h' : Heap ρ) : Prop where
  version : ∀ (i : ℕ) (v : Version ρ), h.versions[i]? = some v →
    ∃ v', h'.versions[i]? = some v' ∧ v'.row = v.row ∧ v'.insertedBy = v.insertedBy ∧
      (h.Doomed c v → h'.Doomed c v')

theorem Grows.refl (h : Heap ρ) : Grows c h h := ⟨fun _ v hv => ⟨v, hv, rfl, rfl, id⟩⟩

theorem Visited.grows {h' : Heap ρ} (hvisited : h.Visited c i) (hg : Grows c h h') :
    h'.Visited c i := by
  obtain ⟨v, hv, hdoomed⟩ := hvisited
  obtain ⟨v', hv', -, -, hkeeps⟩ := hg.version i v hv
  exact ⟨v', hv', hkeeps hdoomed⟩

theorem visited_of_remove {b : Bool} {h' : Heap ρ} (hr : h.remove c i = some (b, h')) :
    h'.Visited c i := by
  obtain ⟨v, hv, -, ⟨-, rfl, hgone⟩ | ⟨-, -, -, rfl⟩⟩ := remove_cases hr
  · exact ⟨v, hv, hgone⟩
  · have hlt := (List.getElem?_eq_some_iff.mp hv).1
    exact ⟨{ v with deletedBy := some c }, by simp [hlt], .inr rfl⟩

theorem grows_insert (d : ℕ) (row : ρ) : Grows c h (h.insert d row) := by
  constructor
  intro i v hv
  have hlt := (List.getElem?_eq_some_iff.mp hv).1
  exact ⟨v, by rw [insert, List.getElem?_append_left hlt, hv], rfl, rfl, id⟩

/-- A deletion leaves what a transaction that has not been aborted has marked. -/
theorem grows_remove {d : ℕ} {b : Bool} {h' : Heap ρ} (hstands : h.status c ≠ .aborted)
    (hr : h.remove d i = some (b, h')) : Grows c h h' := by
  obtain ⟨v, hv, hpending, ⟨-, rfl, -⟩ | ⟨-, hnot, -, rfl⟩⟩ := remove_cases hr
  · exact .refl _
  constructor
  intro j u hu
  by_cases hij : i = j
  · subst hij
    obtain rfl : u = v := Option.some.inj (hu.symm.trans hv)
    have hlt := (List.getElem?_eq_some_iff.mp hv).1
    refine ⟨{ u with deletedBy := some d }, by simp [hlt], rfl, rfl, ?_⟩
    rintro (hremoved | hmarked)
    · exact absurd hremoved (by simp [hnot])
    · -- the deletion waits for a transaction that has marked the row, or skips the row
      right
      by_cases hcd : c = d
      · rw [hcd]
      · have hended : h.status c ≠ .active := by
          simpa [pendingBut, hmarked, hcd] using hpending
        have hgone : h.removed u = true := by
          apply removed_iff.mpr
          cases hs : h.status c with
          | active => exact absurd hs hended
          | committed => exact ⟨c, hmarked, hs⟩
          | aborted => exact absurd hs hstands
        simp [hnot] at hgone
  · exact ⟨u, by simpa [List.getElem?_set_ne hij] using hu, rfl, rfl, id⟩

theorem grows_finish (d : ℕ) (s : TxStatus) : Grows c h (h.finish d s) := by
  constructor
  intro i v hv
  refine ⟨v, by simpa using hv, rfl, rfl, ?_⟩
  rintro (hremoved | hmarked)
  · left
    rw [removed_iff] at hremoved ⊢
    obtain ⟨t, ht, hcommitted⟩ := hremoved
    exact ⟨t, ht, by rw [finish_status_of_ended (by simp [hcommitted]), hcommitted]⟩
  · exact .inr hmarked

/-- An insertion by a transaction that has not ended is not committed. -/
theorem Covered.insert {d : ℕ} {row : ρ} {ids : List ℕ} (hc : h.Covered c p ids)
    (hactive : h.status d = .active) : (h.insert d row).Covered c p ids := by
  intro i v hv hp hinstalled
  by_cases hlt : i < h.versions.length
  · rw [Heap.insert, List.getElem?_append_left hlt] at hv
    exact hc i v hv hp hinstalled
  · rw [Heap.insert, List.getElem?_append_right (by omega)] at hv
    obtain ⟨-, rfl⟩ : i - h.versions.length = 0 ∧ ⟨row, some d, none⟩ = v := by
      cases hk : i - h.versions.length with
      | zero => simpa [hk] using hv
      | succ n => simp [hk] at hv
    have : h.status d = .committed := installed_iff.mp hinstalled d rfl
    simp [hactive] at this

theorem Covered.remove {d : ℕ} {b : Bool} {h' : Heap ρ} {ids : List ℕ} (hc : h.Covered c p ids)
    (hstands : h.status c ≠ .aborted) (hr : h.remove d i = some (b, h')) :
    h'.Covered c p ids := by
  have hgrows := grows_remove hstands hr
  obtain ⟨v, hv, -, ⟨-, rfl, -⟩ | ⟨-, -, -, rfl⟩⟩ := remove_cases hr
  · exact hc
  intro j u hu hp hinstalled
  obtain ⟨w, hw⟩ : ∃ w, h.versions[j]? = some w := by
    have hlt := (List.getElem?_eq_some_iff.mp hu).1
    rw [List.length_set] at hlt
    exact ⟨_, List.getElem?_eq_getElem hlt⟩
  obtain ⟨u', hu', hrow, hinserted, hdoomed⟩ := hgrows.version j w hw
  obtain rfl := Option.some.inj (hu.symm.trans hu')
  refine (hc j w hw (hrow ▸ hp) ?_).imp id hdoomed
  rw [installed_iff] at hinstalled ⊢
  exact hinserted ▸ hinstalled

/-- A commit keeps the cover unless it commits a row that meets the predicate. -/
theorem Covered.finish {d : ℕ} {s : TxStatus} {ids : List ℕ} (hc : h.Covered c p ids)
    (hnew : s = .committed → ∀ v ∈ h.versions, v.insertedBy = some d → p v.row = false) :
    (h.finish d s).Covered c p ids := by
  intro i v hv hp hinstalled
  rw [finish_versions] at hv
  refine (hc i v hv hp ?_).imp id ?_
  · rw [installed_iff] at hinstalled ⊢
    intro t ht
    have hcommitted := hinstalled t ht
    by_cases hended : h.status t = .active
    · -- only transaction `d` has ended, and it has inserted no such row
      by_cases htd : t = d
      · subst htd
        rw [finish_status hended] at hcommitted
        have hno := hnew (by simpa using hcommitted) v (List.mem_of_getElem? hv) ht
        simp [hp] at hno
      · unfold Heap.finish at hcommitted
        split at hcommitted
        · simpa [htd] using hcommitted
        · exact hcommitted
    · rwa [finish_status_of_ended hended] at hcommitted
  · obtain ⟨v', hv', -, -, hdoomed⟩ := (grows_finish (c := c) d s).version i v hv
    rw [finish_versions] at hv'
    obtain rfl := Option.some.inj (hv.symm.trans hv')
    exact hdoomed

/-- **A deletion that has visited what it saw and has committed leaves nothing**, when what
it saw covers the rows. -/
theorem Covered.clean {ids : List ℕ} (hc : h.Covered c p ids) (hended : h.status c = .committed)
    (hvisited : ∀ i ∈ ids, h.Visited c i) : h.Clean p := by
  have hgone : ∀ v, h.Doomed c v → h.removed v = true := by
    rintro v (hremoved | hmarked)
    · exact hremoved
    · exact removed_iff.mpr ⟨c, hmarked, hended⟩
  intro v hv hp hinstalled
  obtain ⟨i, hi⟩ := List.mem_iff_getElem?.mp hv
  apply hgone
  obtain hmem | hdoomed := hc i v hi hp hinstalled
  · obtain ⟨u, hu, hdoomed⟩ := hvisited i hmem
    obtain rfl := Option.some.inj (hi.symm.trans hu)
    exact hdoomed
  · exact hdoomed

end Heap

end Storage
