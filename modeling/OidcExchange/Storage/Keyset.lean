import Mathlib.Data.List.Sort

/-!
# Reading rows page by page

The rows below a position in a linear order of their keys, the highest first and at most so many
of them. A traversal that starts each page below the last row of the page before it meets every
row that stays once, in the order of the keys, whatever rows are added meanwhile.
-/

set_option autoImplicit false

namespace Storage.Keyset

variable {ρ κ : Type} [LinearOrder κ] (key : ρ → κ)

/-! ## One page -/

/-- The rows below a position. -/
def beyond (rows : List ρ) (position : Option κ) : List ρ :=
  rows.filter fun r => position.all fun k => key r < k

/-- The first rows below a position, the highest first. -/
def select (rows : List ρ) (position : Option κ) (limit : ℕ) : List ρ :=
  ((beyond key rows position).insertionSort fun a b => key b ≤ key a).take limit

variable {key} {rows : List ρ} {position : Option κ} {limit : ℕ}

theorem mem_beyond {r : ρ} :
    r ∈ beyond key rows position ↔ r ∈ rows ∧ ∀ k, position = some k → key r < k := by
  cases position <;> simp [beyond]

theorem mem_of_mem_select {r : ρ} (h : r ∈ select key rows position limit) :
    r ∈ beyond key rows position :=
  List.mem_insertionSort _ |>.mp (List.mem_of_mem_take h)

theorem length_select :
    (select key rows position limit).length = min limit (beyond key rows position).length := by
  rw [select, List.length_take, List.length_insertionSort]

theorem select_take {more : ℕ} (h : limit ≤ more) :
    (select key rows position more).take limit = select key rows position limit := by
  rw [select, List.take_take, min_eq_left h]
  rfl

/-- The rows in question, the highest first. -/
theorem pairwise_sorted (hnodup : (rows.map key).Nodup) :
    ((beyond key rows position).insertionSort fun a b => key b ≤ key a).Pairwise
      fun a b => key b < key a := by
  have htotal : Std.Total fun a b : ρ => key b ≤ key a := ⟨fun a b => le_total (key b) (key a)⟩
  have htrans : IsTrans ρ fun a b => key b ≤ key a := ⟨fun _ _ _ hab hbc => hbc.trans hab⟩
  have hsorted := List.pairwise_insertionSort (fun a b : ρ => key b ≤ key a)
    (beyond key rows position)
  have hperm := List.perm_insertionSort (fun a b : ρ => key b ≤ key a) (beyond key rows position)
  have hdistinct : (beyond key rows position).Pairwise fun a b => key a ≠ key b :=
    (List.pairwise_map.mp hnodup).sublist List.filter_sublist
  have hdistinct := hperm.symm.pairwise hdistinct fun hne => hne.symm
  exact (hsorted.and hdistinct).imp fun ⟨hle, hne⟩ => lt_of_le_of_ne hle hne.symm

theorem pairwise_select (hnodup : (rows.map key).Nodup) :
    (select key rows position limit).Pairwise fun a b => key b < key a :=
  (pairwise_sorted hnodup).sublist (List.take_sublist ..)

/-- A row below the position is on the page, or below every row of the page, which is full. -/
theorem mem_select_or (hnodup : (rows.map key).Nodup) {r : ρ}
    (h : r ∈ beyond key rows position) :
    r ∈ select key rows position limit ∨
      limit < (beyond key rows position).length ∧
        ∀ s ∈ select key rows position limit, key r < key s := by
  have hsorted := @pairwise_sorted _ _ _ _ _ position hnodup
  rw [← List.take_append_drop limit ((beyond key rows position).insertionSort _),
    List.pairwise_append] at hsorted
  have hmem := (List.mem_insertionSort fun a b => key b ≤ key a).mpr h
  rw [← List.take_append_drop limit ((beyond key rows position).insertionSort _),
    List.mem_append] at hmem
  rcases hmem with hpage | hrest
  · exact .inl hpage
  · right
    constructor
    · by_contra hlimit
      rw [List.drop_of_length_le (by rw [List.length_insertionSort]; omega)] at hrest
      exact nomatch hrest
    · exact fun s hs => hsorted.2.2 s hs r hrest

/-! ## A traversal -/

/-- What was listed so far, in descending order, has everything that is wanted down to the
position where the traversal goes on. -/
structure Covers (wanted : κ → Prop) (listed : List κ) (position : Option κ) : Prop where
  descending : listed.Pairwise (· > ·)
  start : position = none → listed = []
  above : ∀ p, position = some p → ∀ k ∈ listed, p ≤ k
  covered : ∀ p, position = some p → ∀ k, wanted k → p ≤ k → k ∈ listed

namespace Covers

variable {wanted : κ → Prop} {listed : List κ}

theorem initial : Covers wanted [] none where
  descending := .nil
  start _ := rfl
  above := nofun
  covered := nofun

/-- What the next page lists comes after what was listed before. -/
theorem descending_append (h : Covers wanted listed position) (hnodup : (rows.map key).Nodup) :
    (listed ++ (select key rows position limit).map key).Pairwise (· > ·) := by
  refine List.pairwise_append.mpr ⟨h.descending, List.pairwise_map.mpr (pairwise_select hnodup), ?_⟩
  intro k hk k' hk'
  obtain ⟨r, hr, rfl⟩ := List.mem_map.mp hk'
  cases hposition : position with
  | none =>
    rw [h.start hposition] at hk
    exact nomatch hk
  | some p =>
    exact lt_of_lt_of_le ((mem_beyond.mp (mem_of_mem_select hr)).2 p hposition)
      (h.above p hposition k hk)

/-- A page after which more rows follow: the traversal goes on below its last row. -/
theorem next (h : Covers wanted listed position) (hnodup : (rows.map key).Nodup)
    (hwanted : ∀ k, wanted k → ∃ r ∈ rows, key r = k) {last : ρ}
    (hlast : (select key rows position limit).getLast? = some last) :
    Covers wanted (listed ++ (select key rows position limit).map key) (some (key last)) where
  descending := h.descending_append hnodup
  start := nofun
  above := by
    rintro p hp k hk
    obtain rfl := Option.some.inj hp
    obtain ⟨page, hpage⟩ := List.getLast?_eq_some_iff.mp hlast
    have hdescending := @Covers.descending_append _ _ _ _ _ _ limit _ _ h hnodup
    rw [hpage, List.map_append, ← List.append_assoc, List.pairwise_append] at hdescending
    rw [hpage, List.map_append, ← List.append_assoc, List.mem_append] at hk
    rcases hk with hk | hk
    · exact (hdescending.2.2 k hk (key last) (by simp)).le
    · rw [List.map_singleton, List.mem_singleton] at hk
      exact hk.ge
  covered := by
    rintro p hp k hk hle
    obtain rfl := Option.some.inj hp
    rw [List.mem_append]
    obtain ⟨r, hr, rfl⟩ := hwanted k hk
    by_cases hbeyond : r ∈ beyond key rows position
    · right
      rcases @mem_select_or _ _ _ _ _ _ limit hnodup _ hbeyond with hpage | ⟨-, hbelow⟩
      · exact List.mem_map_of_mem hpage
      · exact absurd (hbelow last (List.mem_of_getLast? hlast)) (not_lt.mpr hle)
    · left
      rw [mem_beyond] at hbeyond
      push Not at hbeyond
      obtain ⟨p, hp, hle⟩ := hbeyond hr
      exact h.covered p hp _ hk hle

/-- A page after which no row follows: everything that is wanted was listed. -/
theorem finish (h : Covers wanted listed position) (hnodup : (rows.map key).Nodup)
    (hwanted : ∀ k, wanted k → ∃ r ∈ rows, key r = k)
    (hend : (beyond key rows position).length ≤ limit) {k : κ} (hk : wanted k) :
    k ∈ listed ++ (select key rows position limit).map key := by
  rw [List.mem_append]
  obtain ⟨r, hr, rfl⟩ := hwanted k hk
  by_cases hbeyond : r ∈ beyond key rows position
  · right
    rcases @mem_select_or _ _ _ _ _ _ limit hnodup _ hbeyond with hpage | ⟨hmore, -⟩
    · exact List.mem_map_of_mem hpage
    · omega
  · left
    rw [mem_beyond] at hbeyond
    push Not at hbeyond
    obtain ⟨p, hp, hle⟩ := hbeyond hr
    exact h.covered p hp _ hk hle

end Covers

end Storage.Keyset
