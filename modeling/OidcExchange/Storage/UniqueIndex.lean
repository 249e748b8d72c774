import OidcExchange.Storage.Table
import Mathlib.Data.List.Perm.Basic

/-!
# Indexing by distinct keys

Elements are entered one after another in a table under their keys; a key that is entered twice
ends it. An index is there exactly if the keys are distinct, it holds the elements and nothing
else, and their order does not matter.
-/

set_option autoImplicit false

namespace Storage

universe u v

variable {κ : Type u} {β : Type v} [DecidableEq κ] (key : β → κ)

/-- The table with these elements as well, unless two have one key. -/
def indexFrom (t : Table κ β) : List β → Option (Table κ β)
  | [] => some t
  | x :: xs =>
    match t.lookup (key x) with
    | some _ => none
    | none => indexFrom (t.insert (key x) x) xs

variable {key} {t t' : Table κ β} {xs ys : List β}

/-- Every element of the table is under its key. -/
def Keyed (key : β → κ) (t : Table κ β) : Prop := ∀ k x, t.lookup k = some x → key x = k

theorem Keyed.empty : Keyed key (∅ : Table κ β) := by
  intro k x h
  rw [AList.lookup_empty] at h
  cases h

theorem Keyed.insert (h : Keyed key t) (x : β) : Keyed key (t.insert (key x) x) := by
  intro k y hy
  rw [Table.lookup_insert_ite] at hy
  split at hy
  · rename_i heq
    cases hy
    exact heq.symm
  · exact h k y hy

/-- An index holds what was there and what was entered. -/
theorem lookup_indexFrom (h : indexFrom key t xs = some t') (k : κ) (x : β) :
    t'.lookup k = some x ↔ t.lookup k = some x ∨ x ∈ xs ∧ key x = k := by
  induction xs generalizing t with
  | nil =>
    cases h
    simp
  | cons y ys ih =>
    rw [indexFrom] at h
    cases hy : t.lookup (key y) with
    | some z =>
      rw [hy] at h
      cases h
    | none =>
      rw [hy] at h
      rw [ih h, Table.lookup_insert_ite, List.mem_cons]
      by_cases heq : k = key y
      · subst heq
        rw [if_pos rfl, hy, Option.some.injEq]
        constructor
        · rintro (rfl | ⟨hmem, hkey⟩)
          · exact Or.inr ⟨Or.inl rfl, rfl⟩
          · exact Or.inr ⟨Or.inr hmem, hkey⟩
        · rintro (hnone | ⟨rfl | hmem, hkey⟩)
          · cases hnone
          · exact Or.inl rfl
          · exact Or.inr ⟨hmem, hkey⟩
      · rw [if_neg heq]
        constructor
        · rintro (hold | ⟨hmem, hkey⟩)
          · exact Or.inl hold
          · exact Or.inr ⟨Or.inr hmem, hkey⟩
        · rintro (hold | ⟨rfl | hmem, hkey⟩)
          · exact Or.inl hold
          · exact absurd hkey.symm heq
          · exact Or.inr ⟨hmem, hkey⟩

/-- There is an index exactly if no key is entered twice. -/
theorem exists_indexFrom_iff : (∃ t', indexFrom key t xs = some t') ↔
    (xs.map key).Nodup ∧ ∀ x ∈ xs, t.lookup (key x) = none := by
  induction xs generalizing t with
  | nil => exact ⟨fun _ => ⟨List.nodup_nil, nofun⟩, fun _ => ⟨t, rfl⟩⟩
  | cons y ys ih =>
    rw [indexFrom, List.map_cons, List.nodup_cons, List.forall_mem_cons]
    cases hy : t.lookup (key y) with
    | some z =>
      constructor
      · rintro ⟨t', h⟩
        cases h
      · rintro ⟨-, h, -⟩
        cases h
    | none =>
      rw [ih]
      have hstep (x : β) : (t.insert (key y) y).lookup (key x) = none ↔
          key x ≠ key y ∧ t.lookup (key x) = none := by
        rw [Table.lookup_insert_ite]
        by_cases heq : key x = key y <;> simp [heq]
      simp only [hstep]
      constructor
      · rintro ⟨hnodup, hfree⟩
        refine ⟨⟨fun hmem => ?_, hnodup⟩, trivial, fun x hx => (hfree x hx).2⟩
        obtain ⟨x, hx, hkey⟩ := List.mem_map.mp hmem
        exact (hfree x hx).1 hkey
      · rintro ⟨⟨hnew, hnodup⟩, -, hfree⟩
        exact ⟨hnodup, fun x hx => ⟨fun heq => hnew (List.mem_map.mpr ⟨x, hx, heq⟩), hfree x hx⟩⟩

theorem exists_index_iff :
    (∃ t', indexFrom key ∅ xs = some t') ↔ (xs.map key).Nodup := by
  rw [exists_indexFrom_iff, and_iff_left]
  exact fun x _ => AList.lookup_empty _

theorem lookup_index (h : indexFrom key ∅ xs = some t') (k : κ) (x : β) :
    t'.lookup k = some x ↔ x ∈ xs ∧ key x = k := by
  rw [lookup_indexFrom h, AList.lookup_empty, or_iff_right nofun]

/-- Elements in another order have an index if these do, which holds the same. -/
theorem index_perm (hperm : xs.Perm ys) (h : indexFrom key ∅ xs = some t) :
    ∃ t', indexFrom key ∅ ys = some t' ∧ ∀ k, t'.lookup k = t.lookup k := by
  have hnodup : (xs.map key).Nodup := exists_index_iff.mp ⟨t, h⟩
  obtain ⟨t', h'⟩ := exists_index_iff.mpr ((hperm.map key).nodup_iff.mp hnodup)
  refine ⟨t', h', fun k => Option.ext fun x => ?_⟩
  rw [lookup_index h, lookup_index h', hperm.mem_iff]

end Storage
