import Mathlib.Data.List.Basic

/-!
# Searching a list

The first place where a list occurs in another.
-/

set_option autoImplicit false

namespace Texts

variable {α : Type} [DecidableEq α]

/-- The first position at which the needle stands. -/
def find (needle : List α) : List α → Option ℕ
  | [] => if needle = [] then some 0 else none
  | x :: xs => if needle <+: x :: xs then some 0 else (find needle xs).map (· + 1)

theorem find_of_prefix {needle text : List α} (h : needle <+: text) : find needle text = some 0 := by
  cases text with
  | nil => rw [find, if_pos (List.prefix_nil.mp h)]
  | cons x xs => rw [find, if_pos h]

/-- The needle stands where it is found, and nowhere before. -/
theorem find_eq_some {needle text : List α} {n : ℕ} (h : find needle text = some n) :
    needle <+: text.drop n ∧ n ≤ text.length ∧ ∀ m < n, ¬needle <+: text.drop m := by
  induction text generalizing n with
  | nil =>
    rw [find] at h
    split at h
    · rename_i hnil
      cases h
      exact ⟨by simp [hnil], Nat.le_refl 0, fun m hm => absurd hm (Nat.not_lt_zero m)⟩
    · cases h
  | cons x xs ih =>
    rw [find] at h
    split at h
    · rename_i hpre
      cases h
      exact ⟨hpre, Nat.zero_le _, fun m hm => absurd hm (Nat.not_lt_zero m)⟩
    · rename_i hpre
      obtain ⟨k, hk, rfl⟩ := Option.map_eq_some_iff.mp h
      obtain ⟨hstand, hle, hfirst⟩ := ih hk
      refine ⟨hstand, Nat.succ_le_succ hle, fun m hm => ?_⟩
      cases m with
      | zero => exact hpre
      | succ m => exact hfirst m (Nat.lt_of_succ_lt_succ hm)

theorem find_eq_none {needle text : List α} (h : find needle text = none) (m : ℕ) :
    ¬needle <+: text.drop m := by
  induction text generalizing m with
  | nil =>
    rw [find] at h
    split at h
    · cases h
    · rename_i hne
      rw [List.drop_nil, List.prefix_nil]
      exact hne
  | cons x xs ih =>
    rw [find] at h
    split at h
    · cases h
    · rename_i hpre
      cases m with
      | zero => exact hpre
      | succ m => exact ih (Option.map_eq_none_iff.mp h) m

/-- A needle is found where it stands first. -/
theorem find_eq_some_of_first {needle text : List α} {n : ℕ} (hstand : needle <+: text.drop n)
    (hfirst : ∀ m < n, ¬needle <+: text.drop m) : find needle text = some n := by
  cases hfind : find needle text with
  | none => exact absurd hstand (find_eq_none hfind n)
  | some k =>
    obtain ⟨hk, -, hkfirst⟩ := find_eq_some hfind
    have hle : k ≤ n := by
      by_contra hlt
      exact hkfirst n (Nat.lt_of_not_le hlt) hstand
    have hge : n ≤ k := by
      by_contra hlt
      exact hfirst k (Nat.lt_of_not_le hlt) hk
    rw [Nat.le_antisymm hle hge]

/-- A single element is found as the first of its kind. -/
theorem find_singleton_append {x : α} {xs : List α} (h : x ∉ xs) (rest : List α) :
    find [x] (xs ++ x :: rest) = some xs.length := by
  apply find_eq_some_of_first
  · rw [List.drop_left]
    exact List.prefix_append [x] rest
  · intro m hm hstand
    rw [List.drop_append_of_le_length (Nat.le_of_lt hm), List.drop_eq_getElem_cons hm,
      List.cons_append] at hstand
    exact h ((List.cons_prefix_cons.mp hstand).1 ▸ List.getElem_mem hm)

/-- What is found is found in every beginning that it lies in. -/
theorem find_singleton_take {x : α} {xs : List α} (h : x ∉ xs) (rest : List α) {bound : ℕ}
    (hbound : xs.length < bound) : find [x] ((xs ++ x :: rest).take bound) = some xs.length := by
  obtain ⟨more, hmore⟩ := Nat.exists_eq_add_of_lt hbound
  have htake : (xs ++ x :: rest).take bound = xs ++ x :: rest.take more := by
    rw [hmore, Nat.add_assoc, List.take_length_add_append, List.take_succ_cons]
  rw [htake]
  exact find_singleton_append h _

theorem find_singleton_eq_none {x : α} {xs : List α} (h : x ∉ xs) : find [x] xs = none := by
  cases hfind : find [x] xs with
  | none => rfl
  | some n =>
    obtain ⟨rest, hrest⟩ := (find_eq_some hfind).1
    have hmem : x ∈ xs.drop n := hrest ▸ List.mem_cons_self
    exact absurd (List.mem_of_mem_drop hmem) h

end Texts
