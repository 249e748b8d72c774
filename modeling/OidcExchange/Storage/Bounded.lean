import Mathlib.Data.Finset.Card

/-!
# Lists that take a bounded number of different elements

Elements are added one after another, unless they are there already or the list is full. Such a
list holds nothing else, and it lacks an element only if it is full; so it holds them all exactly
if they are no more than it takes.
-/

set_option autoImplicit false

namespace Storage

universe u

variable {α : Type u} [DecidableEq α] {cap : ℕ} {xs held : List α}

/-- One more element, unless it is there or the list is full. -/
def pushNew (cap : ℕ) (held : List α) (x : α) : List α :=
  if cap ≤ held.length || held.contains x then held else held ++ [x]

/-- The list that holds these elements as far as it takes them. -/
structure Collects (cap : ℕ) (xs held : List α) : Prop where
  nodup : held.Nodup
  bounded : held.length ≤ cap
  sound : ∀ x ∈ held, x ∈ xs
  complete : held.length < cap → ∀ x ∈ xs, x ∈ held

omit [DecidableEq α] in
theorem Collects.nil (cap : ℕ) : Collects cap ([] : List α) [] :=
  ⟨List.nodup_nil, Nat.zero_le cap, nofun, nofun⟩

theorem Collects.push (h : Collects cap xs held) (x : α) :
    Collects cap (xs ++ [x]) (pushNew cap held x) := by
  have hmore : ∀ y ∈ held, y ∈ xs ++ [x] := fun y hy => List.mem_append_left _ (h.sound y hy)
  rw [pushNew]
  split
  · rename_i hkept
    refine ⟨h.nodup, h.bounded, hmore, fun hroom y hy => ?_⟩
    rw [Bool.or_eq_true, decide_eq_true_eq, List.contains_iff_mem] at hkept
    have hx : x ∈ held := hkept.resolve_left (Nat.not_le.mpr hroom)
    obtain hold | hnew := List.mem_append.mp hy
    · exact h.complete hroom y hold
    · exact List.mem_singleton.mp hnew ▸ hx
  · rename_i hadded
    rw [Bool.or_eq_true, decide_eq_true_eq, List.contains_iff_mem, not_or, Nat.not_le] at hadded
    obtain ⟨hroom, hx⟩ := hadded
    refine ⟨?_, ?_, ?_, fun _ y hy => ?_⟩
    · exact List.nodup_append.mpr ⟨h.nodup, List.nodup_singleton x, fun a ha b hb heq =>
        hx (List.mem_singleton.mp hb ▸ heq ▸ ha)⟩
    · rw [List.length_append, List.length_singleton]
      exact hroom
    · intro y hy
      obtain hold | hnew := List.mem_append.mp hy
      · exact hmore y hold
      · exact List.mem_append_right _ hnew
    · obtain hold | hnew := List.mem_append.mp hy
      · exact List.mem_append_left _ (h.complete hroom y hold)
      · exact List.mem_append_right _ hnew

theorem Collects.foldl (h : Collects cap xs held) (more : List α) :
    Collects cap (xs ++ more) (more.foldl (pushNew cap) held) := by
  induction more generalizing xs held with
  | nil => rwa [List.append_nil]
  | cons x more ih =>
    rw [List.foldl_cons, List.append_cons]
    exact ih (h.push x)

/-- Nothing is lacking exactly if there are no more different elements than the list takes. -/
theorem Collects.whole_iff (h : Collects cap xs held) :
    (∀ x ∈ xs, x ∈ held) ↔ xs.toFinset.card ≤ cap := by
  have hcard : held.toFinset.card = held.length := List.toFinset_card_of_nodup h.nodup
  have hsub : held.toFinset ⊆ xs.toFinset := fun x hx =>
    List.mem_toFinset.mpr (h.sound x (List.mem_toFinset.mp hx))
  constructor
  · intro hall
    have hle : xs.toFinset ⊆ held.toFinset := fun x hx =>
      List.mem_toFinset.mpr (hall x (List.mem_toFinset.mp hx))
    calc xs.toFinset.card ≤ held.toFinset.card := Finset.card_le_card hle
      _ = held.length := hcard
      _ ≤ cap := h.bounded
  · intro hfits
    by_cases hroom : held.length < cap
    · exact h.complete hroom
    · have heq : held.toFinset = xs.toFinset :=
        Finset.eq_of_subset_of_card_le hsub (by omega)
      intro x hx
      rw [← List.mem_toFinset, heq, List.mem_toFinset]
      exact hx

end Storage
