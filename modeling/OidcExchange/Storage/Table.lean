import Mathlib.Algebra.Group.Int.Defs
import Mathlib.Algebra.GroupWithZero.Nat
import Mathlib.Data.List.AList

/-!
# Tables

A table is a finite map with distinct keys. Besides looking up, inserting and
erasing one key, a store deletes every entry that meets a predicate and reports
how many there were; the lookup after each of the three is stated here once, as
a case distinction on the key.
-/

set_option autoImplicit false

namespace Storage

universe u v

/-- A finite map from keys to values. -/
abbrev Table (κ : Type u) (ν : Type v) : Type (max u v) := AList fun _ : κ => ν

namespace Table

variable {κ : Type u} {ν : Type v}

/-- The table without the entries that meet the predicate. -/
def deleteWhere (t : Table κ ν) (p : κ → ν → Bool) : Table κ ν where
  entries := t.entries.filter fun e => !p e.1 e.2
  nodupKeys := t.nodupKeys.sublist List.filter_sublist

/-- How many entries meet the predicate. -/
def countWhere (t : Table κ ν) (p : κ → ν → Bool) : ℕ :=
  t.entries.countP fun e => p e.1 e.2

/-- The first value, in the table's own order, that meets the predicate. -/
def findValue? (t : Table κ ν) (p : ν → Bool) : Option ν :=
  (t.entries.find? fun e => p e.2).map fun e => e.2

variable [DecidableEq κ]

theorem lookup_insert_ite (t : Table κ ν) (k k' : κ) (x : ν) :
    (t.insert k x).lookup k' = if k' = k then some x else t.lookup k' := by
  by_cases h : k' = k
  · subst h
    simp
  · simp [h, AList.lookup_insert_ne h]

theorem lookup_erase_ite (t : Table κ ν) (k k' : κ) :
    (t.erase k).lookup k' = if k' = k then none else t.lookup k' := by
  by_cases h : k' = k
  · subst h
    simp
  · simp [h, AList.lookup_erase_ne h]

/-- Inserting takes the place of an entry with the key, or adds one. -/
theorem length_insert (t : Table κ ν) (k : κ) (x : ν) :
    (t.insert k x).entries.length =
      if (t.lookup k).isSome then t.entries.length else t.entries.length + 1 := by
  have hkeys : ∀ t : Table κ ν, t.entries.length = t.keys.length := fun t =>
    (List.length_map _).symm
  rw [hkeys, hkeys, AList.keys_insert, List.length_cons]
  by_cases hmem : k ∈ t
  · rw [if_pos (AList.lookup_isSome.mpr hmem), List.length_erase_of_mem (AList.mem_keys.mp hmem)]
    have hpos : 0 < t.keys.length := List.length_pos_of_mem (AList.mem_keys.mp hmem)
    omega
  · rw [if_neg fun h => hmem (AList.lookup_isSome.mp h),
      List.erase_of_not_mem fun h => hmem (AList.mem_keys.mpr h)]

/-- Erasing a key that is there takes one entry away. -/
theorem length_erase {t : Table κ ν} {k : κ} (h : k ∈ t.keys) :
    (t.erase k).entries.length + 1 = t.entries.length := by
  have herase : (t.erase k).keys.length = (t.keys.erase k).length := by rw [AList.keys_erase]
  have hpos : 0 < t.keys.length := List.length_pos_of_mem h
  rw [List.length_erase_of_mem h] at herase
  simp only [AList.keys, List.keys, List.length_map] at herase hpos
  omega

/-- Erasing some keys, one after another. -/
theorem lookup_foldl_erase (keys : List κ) (t : Table κ ν) (k : κ) :
    (keys.foldl (fun t k => t.erase k) t).lookup k = if k ∈ keys then none else t.lookup k := by
  induction keys generalizing t with
  | nil => simp
  | cons key keys ih =>
    rw [List.foldl_cons, ih, lookup_erase_ite]
    by_cases hmem : k ∈ keys
    · rw [if_pos hmem, if_pos (List.mem_cons_of_mem _ hmem)]
    · by_cases heq : k = key <;> simp [hmem, heq]

/-- An entry is left exactly when it was there and does not meet the predicate. -/
theorem lookup_deleteWhere_eq_some {t : Table κ ν} {p : κ → ν → Bool} {k : κ} {x : ν} :
    (t.deleteWhere p).lookup k = some x ↔ t.lookup k = some x ∧ p k x = false := by
  have hleft := AList.mem_lookup_iff (a := k) (b := x) (s := t.deleteWhere p)
  have hright := AList.mem_lookup_iff (a := k) (b := x) (s := t)
  simp only [Option.mem_def] at hleft hright
  rw [hleft, hright]
  simp [deleteWhere, List.mem_filter]

/-- A key that was not there is not there after deleting. -/
theorem lookup_deleteWhere_eq_none {t : Table κ ν} (p : κ → ν → Bool) {k : κ}
    (h : t.lookup k = none) : (t.deleteWhere p).lookup k = none := by
  cases hk : (t.deleteWhere p).lookup k with
  | none => rfl
  | some x =>
    rw [lookup_deleteWhere_eq_some, h] at hk
    exact absurd hk.1 (by simp)

/-- The entries that meet the predicate are counted by a list of their keys. -/
theorem countWhere_eq_length {t : Table κ ν} {p : κ → ν → Bool} {l : List κ} (hl : l.Nodup)
    (hmem : ∀ k, k ∈ l ↔ ∃ x, t.lookup k = some x ∧ p k x = true) :
    t.countWhere p = l.length := by
  have hkeys : ((t.entries.filter fun e => p e.1 e.2).map Sigma.fst).Nodup :=
    t.nodupKeys.sublist List.filter_sublist
  have hperm : ((t.entries.filter fun e => p e.1 e.2).map Sigma.fst).Perm l := by
    rw [List.perm_ext_iff_of_nodup hkeys hl]
    intro k
    rw [hmem, List.mem_map]
    constructor
    · rintro ⟨⟨k', x⟩, he, rfl⟩
      obtain ⟨hin, hp⟩ := List.mem_filter.mp he
      exact ⟨x, AList.mem_lookup_iff.mpr hin, hp⟩
    · rintro ⟨x, hlookup, hp⟩
      exact ⟨⟨k, x⟩, List.mem_filter.mpr ⟨AList.mem_lookup_iff.mp hlookup, hp⟩, rfl⟩
  rw [countWhere, List.countP_eq_length_filter, ← hperm.length_eq, List.length_map]

/-- Write the entries of another table over a table, each as the function gives it; an
entry the function drops leaves the table as it is. -/
def merge {μ : Type*} (t : Table κ ν) (source : Table κ μ) (f : κ → μ → Option ν) :
    Table κ ν :=
  source.entries.foldl (fun t e => (f e.1 e.2).elim t (t.insert e.1)) t

theorem lookup_foldl_insert {μ : Type*} (f : κ → μ → Option ν) (l : List (Sigma fun _ : κ => μ))
    (hl : l.NodupKeys) (t : Table κ ν) (k : κ) :
    (l.foldl (fun t e => (f e.1 e.2).elim t (t.insert e.1)) t).lookup k =
      ((l.dlookup k).bind (f k)).or (t.lookup k) := by
  induction l generalizing t with
  | nil => simp
  | cons e l ih =>
    obtain ⟨k', x⟩ := e
    obtain ⟨hnot, hrest⟩ := List.nodupKeys_cons.mp hl
    rw [List.foldl_cons, ih hrest]
    by_cases hk : k = k'
    · subst hk
      have hnone : l.dlookup k = none := List.dlookup_eq_none.mpr hnot
      rw [hnone, List.dlookup_cons_eq]
      cases hf : f k x with
      | none => simp [hf]
      | some v => simp [hf]
    · rw [List.dlookup_cons_ne _ _ hk]
      cases hf : f k' x with
      | none => rfl
      | some v => simp [AList.lookup_insert_ne hk]

/-- A key is looked up in the other table first. -/
theorem lookup_merge {μ : Type*} (t : Table κ ν) (source : Table κ μ) (f : κ → μ → Option ν)
    (k : κ) : (t.merge source f).lookup k = ((source.lookup k).bind (f k)).or (t.lookup k) :=
  lookup_foldl_insert f source.entries source.nodupKeys t k

/-- A value that is found is in the table and meets the predicate. -/
theorem findValue?_eq_some {t : Table κ ν} {p : ν → Bool} {x : ν}
    (h : t.findValue? p = some x) : (∃ k, t.lookup k = some x) ∧ p x = true := by
  obtain ⟨e, he, rfl⟩ := Option.map_eq_some_iff.mp h
  refine ⟨⟨e.1, ?_⟩, by simpa using List.find?_some he⟩
  have hmem := List.mem_of_find?_eq_some he
  exact AList.mem_lookup_iff.mpr hmem

end Table

/-! ## Counting in a table

How many entries meet a predicate, before and after one entry is written. Both sides are
compared with the table without the entry.
-/

namespace Table

variable {κ : Type u} {ν : Type v} [DecidableEq κ] (p : κ → ν → Bool) {t : Table κ ν} {k : κ} {x : ν}

theorem exists_of_countWhere_pos (h : 0 < countWhere t p) :
    ∃ k x, t.lookup k = some x ∧ p k x = true := by
  obtain ⟨⟨k, x⟩, hmem, hp⟩ := List.countP_pos_iff.mp h
  exact ⟨k, x, AList.mem_lookup_iff.mpr hmem, hp⟩

theorem countWhere_erase_of_none (h : t.lookup k = none) :
    countWhere (t.erase k) p = countWhere t p := by
  have hkeys : k ∉ t.entries.keys := AList.lookup_eq_none.mp h
  show (List.kerase k t.entries).countP _ = t.entries.countP _
  rw [List.kerase_of_notMem_keys hkeys]

/-- An entry that is there counts for what it is. -/
theorem countWhere_of_some (h : t.lookup k = some x) :
    countWhere t p = countWhere (t.erase k) p + if p k x then 1 else 0 := by
  have hkeys : k ∈ t.entries.keys := AList.lookup_isSome.mp (by rw [h]; rfl)
  obtain ⟨y, before, after, hbefore, hentries, herase⟩ := List.exists_of_kerase hkeys
  obtain rfl : y = x := by
    have hlookup : t.lookup k = some y := by
      apply AList.mem_lookup_iff.mpr
      rw [hentries]
      simp
    exact Option.some.inj (hlookup.symm.trans h)
  show t.entries.countP _ = (List.kerase k t.entries).countP _ + _
  rw [herase, hentries]
  simp only [List.countP_append, List.countP_cons]
  omega

/-- After an entry is written the table counts what it had besides, and the entry. -/
theorem countWhere_insert (t : Table κ ν) (k : κ) (x : ν) :
    countWhere (t.insert k x) p = countWhere (t.erase k) p + if p k x then 1 else 0 := by
  unfold countWhere
  rw [AList.entries_insert, List.countP_cons]
  rfl

end Table

/-! ## What holds of every value of a table

A property of every value is kept by erasing and deleting, and by inserting a value that has it.
Predicates that agree on the values count and delete alike; sorts that agree on them sort alike.
-/

namespace Table

variable {κ : Type u} {ν : Type v}

/-- Every value of the table has the property. -/
def Holds (t : Table κ ν) (p : ν → Prop) : Prop := ∀ e ∈ t.entries, p e.2

variable {t : Table κ ν} {p : ν → Prop}

theorem Holds.deleteWhere (h : t.Holds p) (q : κ → ν → Bool) : (t.deleteWhere q).Holds p :=
  fun e he => h e (List.mem_of_mem_filter he)

theorem Holds.empty : Holds (∅ : Table κ ν) p := List.forall_mem_nil _

variable [DecidableEq κ]

theorem Holds.erase (h : t.Holds p) (k : κ) : Holds (t.erase k) p :=
  fun e he => h e ((List.kerase_sublist _ _).subset he)

theorem Holds.insert (h : t.Holds p) (k : κ) {x : ν} (hx : p x) : Holds (t.insert k x) p := by
  intro e he
  rw [AList.entries_insert] at he
  obtain rfl | he := List.mem_cons.mp he
  · exact hx
  · exact h.erase k e he

theorem Holds.lookup (h : t.Holds p) {k : κ} {x : ν} (hx : t.lookup k = some x) : p x :=
  h ⟨k, x⟩ (AList.mem_lookup_iff.mp hx)

end Table

namespace Table

variable {κ : Type u} {ν : Type v} [DecidableEq κ] {t t' t₁ : Table κ ν}

/-- Every key is looked up alike. -/
def Same (t t' : Table κ ν) : Prop := ∀ k, t.lookup k = t'.lookup k

theorem Same.refl (t : Table κ ν) : t.Same t := fun _ => rfl

theorem same_of_iff (h : ∀ k x, t.lookup k = some x ↔ t'.lookup k = some x) : t.Same t' := by
  intro k
  apply Option.ext
  intro x
  exact h k x

/-- The entries are the same up to their order. -/
theorem Same.perm (h : t.Same t') : t.entries.Perm t'.entries := by
  rw [List.perm_ext_iff_of_nodup (List.NodupKeys.nodup t.nodupKeys)
    (List.NodupKeys.nodup t'.nodupKeys)]
  rintro ⟨k, x⟩
  rw [← AList.mem_lookup_iff, ← AList.mem_lookup_iff, h k]

/-- Equal predicates count as many entries. -/
theorem Same.countWhere (h : t.Same t') {p q : κ → ν → Bool}
    (hpq : ∀ k x, t.lookup k = some x → p k x = q k x) : t.countWhere p = t'.countWhere q := by
  have hcount : t.entries.countP (fun e => p e.1 e.2) = t.entries.countP fun e => q e.1 e.2 := by
    apply List.countP_congr
    rintro ⟨k, x⟩ hmem
    rw [hpq k x (AList.mem_lookup_iff.mpr hmem)]
  exact hcount.trans (h.perm.countP_eq _)

theorem Same.insert (h : t.Same t') (k : κ) (x : ν) : Same (t.insert k x) (t'.insert k x) := by
  intro k'
  rw [lookup_insert_ite, lookup_insert_ite, h k']

theorem Same.erase (h : t.Same t') (k : κ) : Same (t.erase k) (t'.erase k) := by
  intro k'
  rw [lookup_erase_ite, lookup_erase_ite, h k']

/-- What keeps exactly the entries that do not meet the predicate agrees with deleting. -/
theorem Same.deleteWhere (h : t.Same t') {p : κ → ν → Bool}
    (hkept : ∀ k x, t₁.lookup k = some x ↔ t.lookup k = some x ∧ p k x = false) :
    t₁.Same (t'.deleteWhere p) := by
  apply same_of_iff
  intro k x
  rw [hkept, lookup_deleteWhere_eq_some, h k]

end Table

/-! ## Tables of sets

A table whose values are finite sets, kept as lists. A set that loses its last member is
gone, as a key without a value is; an absent set has no members.
-/

section

/-- Finite sets by key. -/
abbrev Sets (κ : Type u) (α : Type v) : Type (max u v) := Table κ (List α)

namespace Sets

variable {κ : Type u} {α : Type v} [DecidableEq κ]

/-- The members of the set at a key. -/
def members (t : Sets κ α) (k : κ) : List α := (t.lookup k).getD []

variable {t : Sets κ α} {k k' : κ} {a b : α}

theorem mem_members_insert {l : List α} :
    b ∈ (members (t.insert k l) k') ↔ if k' = k then b ∈ l else b ∈ t.members k' := by
  unfold members
  rw [Table.lookup_insert_ite]
  split <;> simp

theorem mem_members_erase : b ∈ members (t.erase k) k' ↔ k' ≠ k ∧ b ∈ t.members k' := by
  unfold members
  rw [Table.lookup_erase_ite]
  split <;> simp_all

variable [DecidableEq α]

/-- Add a member. -/
def add (t : Sets κ α) (k : κ) (a : α) : Sets κ α :=
  if a ∈ t.members k then t else t.insert k (a :: t.members k)

/-- Remove a member, and the set when none is left. -/
def discard (t : Sets κ α) (k : κ) (a : α) : Sets κ α :=
  let rest := (t.members k).filter (· ≠ a)
  if rest = [] then t.erase k else t.insert k rest

theorem mem_members_add : b ∈ (t.add k a).members k' ↔ b ∈ t.members k' ∨ (k' = k ∧ b = a) := by
  unfold add
  split
  · rename_i hmem
    constructor
    · exact .inl
    · rintro (h | ⟨rfl, rfl⟩)
      · exact h
      · exact hmem
  · rw [mem_members_insert]
    by_cases hk : k' = k
    · subst hk
      simp [or_comm]
    · simp [hk]

theorem mem_members_discard :
    b ∈ (t.discard k a).members k' ↔ b ∈ t.members k' ∧ ¬ (k' = k ∧ b = a) := by
  have hrest : b ∈ (t.members k).filter (· ≠ a) ↔ b ∈ t.members k ∧ b ≠ a := by simp
  unfold discard
  dsimp only
  by_cases hk : k' = k
  · subst hk
    split
    · rename_i hempty
      rw [mem_members_erase]
      have hnone : ¬ (b ∈ t.members k' ∧ b ≠ a) := by
        rw [← hrest, hempty]
        simp
      simpa using hnone
    · rw [mem_members_insert, if_pos rfl, hrest]
      simp
  · split
    · rw [mem_members_erase]
      simp [hk]
    · rw [mem_members_insert, if_neg hk]
      simp [hk]

end Sets

end

end Storage
