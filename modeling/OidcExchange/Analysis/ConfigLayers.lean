import OidcExchange.Program.Configuration

/-!
# The law of configuration layers

What the merge of two tables has at a key is what either has, and where both have something, the
merge of that; the law for every path follows by induction on the path. A table that was merged
once is not changed by merging it again.
-/

set_option autoImplicit false

namespace OidcExchange

namespace TomlTree

variable {base entries : List (String × TomlTree)} {key key' : String} {value tree : TomlTree}

/-! ## Trees -/

/-- Induction on the values of tables. -/
theorem induction_on {P : TomlTree → Prop} (plain : ∀ tree, tree.isTable = false → P tree)
    (table : ∀ entries, (∀ key value, (key, value) ∈ entries → P value) → P (.table entries))
    (tree : TomlTree) : P tree := by
  match tree with
  | .string _ | .integer _ | .float _ | .boolean _ | .datetime _ | .array _ => exact plain _ rfl
  | .table entries =>
    apply table
    intro key value hmem
    have hsize : sizeOf value < sizeOf entries := by
      have := List.sizeOf_lt_of_mem hmem
      simp only [Prod.mk.sizeOf_spec] at this
      omega
    exact induction_on plain table value
termination_by sizeOf tree

theorem exists_entries (h : tree.isTable = true) : ∃ entries, tree = .table entries := by
  cases tree with
  | table entries => exact ⟨entries, rfl⟩
  | _ => cases h

theorem merge_plain (base : TomlTree) (h : value.isTable = false) : merge base value = value := by
  cases value with
  | table => cases h
  | _ => rfl

theorem merge_over_plain (h : tree.isTable = false) (overrides : List (String × TomlTree)) :
    merge tree (.table overrides) = .table overrides := by
  cases tree with
  | table => cases h
  | _ => rfl

theorem merge_tables (base overrides : List (String × TomlTree)) :
    merge (.table base) (.table overrides) = .table (mergeTable base overrides) :=
  rfl

theorem Keyed.nodup (h : Keyed (.table entries)) : (entries.map Prod.fst).Nodup := by
  cases h with
  | value _ h => cases h
  | table _ hkeys _ => exact hkeys

theorem Keyed.of_mem (h : Keyed (.table entries)) (hmem : (key, value) ∈ entries) :
    Keyed value := by
  cases h with
  | value _ h => cases h
  | table _ _ hvalues => exact hvalues key value hmem

/-! ## Entries -/

theorem lookup_cons_ite (entry : String × TomlTree) (rest : List (String × TomlTree)) :
    (entry :: rest).lookup key = if key = entry.1 then some entry.2 else rest.lookup key := by
  rw [List.lookup_cons]
  by_cases hkey : key = entry.1
  · simp [hkey]
  · simp [hkey, beq_false_of_ne hkey]

/-- Under keys that are all different an entry is found. -/
theorem lookup_of_mem (hkeys : (entries.map Prod.fst).Nodup) (hmem : (key, value) ∈ entries) :
    entries.lookup key = some value := by
  induction entries with
  | nil => cases hmem
  | cons entry rest ih =>
    rw [List.map_cons, List.nodup_cons] at hkeys
    rw [lookup_cons_ite]
    obtain rfl | hrest := List.mem_cons.mp hmem
    · rw [if_pos rfl]
    · have hne : key ≠ entry.1 := by
        rintro rfl
        exact hkeys.1 (List.mem_map.mpr ⟨_, hrest, rfl⟩)
      rw [if_neg hne]
      exact ih hkeys.2 hrest

theorem mem_of_lookup (h : entries.lookup key = some value) : (key, value) ∈ entries := by
  induction entries with
  | nil => cases h
  | cons entry rest ih =>
    rw [lookup_cons_ite] at h
    split at h
    · rename_i hkey
      cases h
      exact hkey ▸ List.mem_cons_self
    · exact List.mem_cons_of_mem entry (ih h)

theorem lookup_append_singleton (h : base.lookup key = none) :
    (base ++ [(key, value)]).lookup key' =
      if key' = key then some value else base.lookup key' := by
  induction base with
  | nil => exact lookup_cons_ite (key, value) []
  | cons entry rest ih =>
    rw [lookup_cons_ite] at h
    rw [List.cons_append, lookup_cons_ite, lookup_cons_ite]
    split at h
    · cases h
    · rename_i hne
      rw [ih h]
      by_cases hkey : key' = entry.1
      · rw [if_pos hkey, if_pos hkey, if_neg (hkey ▸ Ne.symm hne)]
      · rw [if_neg hkey, if_neg hkey]

theorem lookup_replaceValue (base : List (String × TomlTree)) (key key' : String)
    (value : TomlTree) :
    (replaceValue base key value).lookup key' =
      if key' = key then (base.lookup key).map fun _ => value else base.lookup key' := by
  induction base with
  | nil => simp [replaceValue]
  | cons entry rest ih =>
    rw [replaceValue, List.map_cons, ← replaceValue, lookup_cons_ite, lookup_cons_ite,
      lookup_cons_ite, ih]
    by_cases hentry : entry.1 = key
    · subst hentry
      by_cases hkey : key' = entry.1
      · simp [hkey]
      · simp [hkey]
    · by_cases hkey : key' = key
      · subst hkey
        simp [hentry, Ne.symm hentry]
      · simp [hentry, hkey]

/-- What an override has at a key is merged with what is there. -/
theorem lookup_mergeEntry (base : List (String × TomlTree)) (key key' : String)
    (value : TomlTree) :
    (mergeEntry base (key, value)).lookup key' =
      if key' = key then some ((base.lookup key).elim value fun existing => merge existing value)
      else base.lookup key' := by
  rw [mergeEntry]
  cases hlookup : base.lookup key with
  | none =>
    rw [lookup_append_singleton hlookup]
    rfl
  | some existing =>
    rw [lookup_replaceValue, hlookup]
    rfl

/-- What two tables have at a key. -/
def mergedValue : Option TomlTree → Option TomlTree → Option TomlTree
  | there, none => there
  | none, some value => some value
  | some existing, some value => some (merge existing value)

/-- **Tables merge key by key.** -/
theorem lookup_mergeTable {overrides : List (String × TomlTree)}
    (hkeys : (overrides.map Prod.fst).Nodup) (base : List (String × TomlTree)) (key : String) :
    (mergeTable base overrides).lookup key =
      mergedValue (base.lookup key) (overrides.lookup key) := by
  induction overrides generalizing base with
  | nil => cases h : base.lookup key <;> simp [mergeTable, mergedValue, h]
  | cons entry rest ih =>
    obtain ⟨key', value⟩ := entry
    rw [List.map_cons, List.nodup_cons] at hkeys
    rw [mergeTable, ih hkeys.2, lookup_mergeEntry, lookup_cons_ite]
    by_cases hkey : key = key'
    · subst hkey
      have hnone : rest.lookup key = none := by
        cases hlookup : rest.lookup key with
        | none => rfl
        | some other =>
          exact absurd (List.mem_map.mpr ⟨_, mem_of_lookup hlookup, rfl⟩) hkeys.1
      rw [if_pos rfl, if_pos rfl, hnone]
      cases base.lookup key <;> rfl
    · rw [if_neg hkey, if_neg hkey]

/-! ## Paths -/

theorem get_cons (entries : List (String × TomlTree)) (key : String) (path : List String) :
    (TomlTree.table entries).get (key :: path) =
      (entries.lookup key).bind fun value => value.get path :=
  rfl

theorem get_cons_plain (h : tree.isTable = false) (key : String) (path : List String) :
    tree.get (key :: path) = none := by
  cases tree with
  | table => cases h
  | _ => rfl

/-- No value but tables stand at the places above a path, and nothing at the path. -/
def Silent (tree : TomlTree) (path : List String) : Prop :=
  tree.get path = none ∧ ∀ above, above <+: path → ∀ value, tree.get above = some value →
    value.isTable = true

/-- What the merge of two trees has at every path. -/
structure Layered (defaults overrides merged : TomlTree) : Prop where
  overridden : ∀ path value, overrides.get path = some value → value.isTable = false →
    merged.get path = some value
  inherited : ∀ path, overrides.Silent path → merged.get path = defaults.get path
  tables : ∀ path below above, defaults.get path = some (.table below) →
    overrides.get path = some (.table above) →
    ∃ both, merged.get path = some (.table both) ∧
      ∀ key, both.lookup key = mergedValue (below.lookup key) (above.lookup key)

theorem get_merge_cons {overrides : List (String × TomlTree)}
    (hkeys : (overrides.map Prod.fst).Nodup) (base : List (String × TomlTree)) (key : String)
    (path : List String) :
    (merge (.table base) (.table overrides)).get (key :: path) =
      (mergedValue (base.lookup key) (overrides.lookup key)).bind fun value => value.get path := by
  rw [merge_tables, get_cons, lookup_mergeTable hkeys]

theorem get_merge_of_overridden {overrides : TomlTree} (hkeyed : overrides.Keyed)
    (defaults : TomlTree) {path : List String} (hget : overrides.get path = some value)
    (hplain : value.isTable = false) : (merge defaults overrides).get path = some value := by
  induction path generalizing defaults overrides with
  | nil =>
    cases hget
    exact congrArg some (merge_plain defaults hplain)
  | cons key path ih =>
    cases htable : overrides.isTable with
    | false => rw [get_cons_plain htable] at hget; cases hget
    | true =>
      obtain ⟨entries, rfl⟩ := exists_entries htable
      rw [get_cons] at hget
      obtain ⟨child, hchild, hget⟩ := Option.bind_eq_some_iff.mp hget
      cases hdefaults : defaults.isTable with
      | false =>
        rw [merge_over_plain hdefaults, get_cons, hchild]
        exact hget
      | true =>
        obtain ⟨base, rfl⟩ := exists_entries hdefaults
        rw [get_merge_cons hkeyed.nodup, hchild]
        cases base.lookup key with
        | none => exact hget
        | some existing => exact ih (hkeyed.of_mem (mem_of_lookup hchild)) existing hget

theorem Silent.child {key : String} {path : List String} {child : TomlTree}
    (h : Silent (.table entries) (key :: path)) (hchild : entries.lookup key = some child) :
    child.Silent path := by
  have hget : ∀ path, (TomlTree.table entries).get (key :: path) = child.get path := by
    intro path
    rw [get_cons, hchild]
    rfl
  refine ⟨hget path ▸ h.1, fun above habove value hvalue => ?_⟩
  exact h.2 (key :: above) (List.cons_prefix_cons.mpr ⟨rfl, habove⟩) value (hget above ▸ hvalue)

theorem get_merge_of_silent {overrides : TomlTree} (hkeyed : overrides.Keyed)
    (defaults : TomlTree) {path : List String} (h : overrides.Silent path) :
    (merge defaults overrides).get path = defaults.get path := by
  induction path generalizing defaults overrides with
  | nil => cases h.1
  | cons key path ih =>
    obtain ⟨entries, rfl⟩ := exists_entries (h.2 [] List.nil_prefix overrides rfl)
    cases hdefaults : defaults.isTable with
    | false =>
      rw [merge_over_plain hdefaults, h.1, get_cons_plain hdefaults]
    | true =>
      obtain ⟨base, rfl⟩ := exists_entries hdefaults
      rw [get_merge_cons hkeyed.nodup, get_cons]
      cases hchild : entries.lookup key with
      | none => cases base.lookup key <;> rfl
      | some child =>
        cases base.lookup key with
        | none => exact (h.child hchild).1
        | some existing =>
          exact ih (hkeyed.of_mem (mem_of_lookup hchild)) existing (h.child hchild)

theorem get_merge_of_tables {overrides : TomlTree} (hkeyed : overrides.Keyed)
    (defaults : TomlTree) {path : List String} {below above : List (String × TomlTree)}
    (hbelow : defaults.get path = some (.table below))
    (habove : overrides.get path = some (.table above)) :
    ∃ both, (merge defaults overrides).get path = some (.table both) ∧
      ∀ key, both.lookup key = mergedValue (below.lookup key) (above.lookup key) := by
  induction path generalizing defaults overrides with
  | nil =>
    cases hbelow
    cases habove
    exact ⟨_, rfl, lookup_mergeTable hkeyed.nodup below⟩
  | cons key path ih =>
    cases hdefaults : defaults.isTable with
    | false => rw [get_cons_plain hdefaults] at hbelow; cases hbelow
    | true =>
      cases htable : overrides.isTable with
      | false => rw [get_cons_plain htable] at habove; cases habove
      | true =>
        obtain ⟨base, rfl⟩ := exists_entries hdefaults
        obtain ⟨entries, rfl⟩ := exists_entries htable
        rw [get_cons] at hbelow habove
        obtain ⟨existing, hexisting, hbelow⟩ := Option.bind_eq_some_iff.mp hbelow
        obtain ⟨child, hchild, habove⟩ := Option.bind_eq_some_iff.mp habove
        rw [get_merge_cons hkeyed.nodup, hchild, hexisting]
        exact ih (hkeyed.of_mem (mem_of_lookup hchild)) existing hbelow habove

theorem merge_layered {overrides : TomlTree} (hkeyed : overrides.Keyed) (defaults : TomlTree) :
    Layered defaults overrides (merge defaults overrides) where
  overridden _ _ := get_merge_of_overridden hkeyed defaults
  inherited _ := get_merge_of_silent hkeyed defaults
  tables _ _ _ := get_merge_of_tables hkeyed defaults

/-! ## Merging again -/

/-- Entries that change nothing where they are merged leave a table as it is. -/
theorem mergeTable_eq_self (hkeys : (base.map Prod.fst).Nodup)
    {overrides : List (String × TomlTree)}
    (h : ∀ key value, (key, value) ∈ overrides →
      ∃ existing, base.lookup key = some existing ∧ merge existing value = existing) :
    mergeTable base overrides = base := by
  induction overrides with
  | nil => rfl
  | cons entry rest ih =>
    obtain ⟨key, value⟩ := entry
    obtain ⟨existing, hexisting, hmerge⟩ := h key value List.mem_cons_self
    have hentry : mergeEntry base (key, value) = base := by
      simp only [mergeEntry, hexisting, hmerge, replaceValue]
      apply (List.map_congr_left fun entry hmem => ?_).trans (List.map_id base)
      by_cases hkey : entry.1 = key
      · have hfound := lookup_of_mem hkeys (hkey ▸ hmem : (key, entry.2) ∈ base)
        rw [if_pos hkey, ← hkey]
        cases hexisting.symm.trans hfound
        rfl
      · rw [if_neg hkey]
        rfl
    rw [mergeTable, hentry]
    exact ih fun key' value' hmem => h key' value' (List.mem_cons_of_mem _ hmem)

theorem merge_self {tree : TomlTree} (h : tree.Keyed) : merge tree tree = tree := by
  induction tree using induction_on with
  | plain tree hplain => exact merge_plain tree hplain
  | table entries ih =>
    rw [merge_tables]
    congr 1
    apply mergeTable_eq_self h.nodup
    exact fun key value hmem => ⟨value, lookup_of_mem h.nodup hmem, ih key value hmem (h.of_mem hmem)⟩

theorem keyed_replaceValue (h : Keyed (.table base)) (hvalue : value.Keyed) :
    Keyed (.table (replaceValue base key value)) := by
  have hkeys : (replaceValue base key value).map Prod.fst = base.map Prod.fst := by
    rw [replaceValue, List.map_map]
    apply List.map_congr_left
    intro entry _
    rw [Function.comp_apply]
    split
    · rename_i hkey
      exact hkey.symm
    · rfl
  refine .table _ (hkeys ▸ h.nodup) fun key' value' hmem => ?_
  obtain ⟨entry, hentry, heq⟩ := List.mem_map.mp hmem
  split at heq
  · cases heq
    exact hvalue
  · cases heq
    exact h.of_mem hentry

theorem keyed_append (h : Keyed (.table base)) (hnone : base.lookup key = none)
    (hvalue : value.Keyed) : Keyed (.table (base ++ [(key, value)])) := by
  refine .table _ ?_ fun key' value' hmem => ?_
  · rw [List.map_append, List.nodup_append]
    refine ⟨h.nodup, List.nodup_singleton key, ?_⟩
    rintro key' hmem _ hsingle rfl
    obtain rfl := List.mem_singleton.mp hsingle
    obtain ⟨entry, hentry, rfl⟩ := List.mem_map.mp hmem
    have hsome : base.lookup entry.1 = some entry.2 := lookup_of_mem h.nodup hentry
    rw [hsome] at hnone
    cases hnone
  · obtain hold | hnew := List.mem_append.mp hmem
    · exact h.of_mem hold
    · cases List.mem_singleton.mp hnew
      exact hvalue

/-- One entry per key is kept by every entry of an override. -/
theorem keyed_mergeTable {overrides : List (String × TomlTree)}
    (hvalues : ∀ key value, (key, value) ∈ overrides → value.Keyed ∧
      ∀ existing : TomlTree, existing.Keyed → (merge existing value).Keyed)
    (h : Keyed (.table base)) : Keyed (.table (mergeTable base overrides)) := by
  induction overrides generalizing base with
  | nil => exact h
  | cons entry rest ih =>
    obtain ⟨key, value⟩ := entry
    obtain ⟨hvalue, hmerge⟩ := hvalues key value List.mem_cons_self
    have hentry : Keyed (.table (mergeEntry base (key, value))) := by
      rw [mergeEntry]
      cases hlookup : base.lookup key with
      | none => exact keyed_append h hlookup hvalue
      | some existing =>
        exact keyed_replaceValue h (hmerge existing (h.of_mem (mem_of_lookup hlookup)))
    exact ih (fun key' value' hmem => hvalues key' value' (List.mem_cons_of_mem _ hmem)) hentry

theorem keyed_merge {overrides : TomlTree} (hover : overrides.Keyed) {base : TomlTree}
    (hbase : base.Keyed) : (merge base overrides).Keyed := by
  induction overrides using induction_on generalizing base with
  | plain tree hplain => exact (merge_plain base hplain).symm ▸ hover
  | table entries ih =>
    cases htable : base.isTable with
    | false => exact (merge_over_plain htable entries).symm ▸ hover
    | true =>
      obtain ⟨existing, rfl⟩ := exists_entries htable
      exact keyed_mergeTable (fun key value hmem => ⟨hover.of_mem hmem, fun child hchild =>
        ih key value hmem (hover.of_mem hmem) hchild⟩) hbase

/-- **What was merged is there.** -/
theorem merge_merge {overrides : TomlTree} (hover : overrides.Keyed) {base : TomlTree}
    (hbase : base.Keyed) : merge (merge base overrides) overrides = merge base overrides := by
  induction overrides using induction_on generalizing base with
  | plain tree hplain => rw [merge_plain _ hplain, merge_plain _ hplain]
  | table entries ih =>
    cases htable : base.isTable with
    | false => rw [merge_over_plain htable, merge_self hover]
    | true =>
      obtain ⟨there, rfl⟩ := exists_entries htable
      rw [merge_tables, merge_tables]
      congr 1
      apply mergeTable_eq_self (keyed_merge hover hbase).nodup
      intro key value hmem
      have hvalue := hover.of_mem hmem
      rw [lookup_mergeTable hover.nodup, lookup_of_mem hover.nodup hmem]
      cases hlookup : there.lookup key with
      | none => exact ⟨value, rfl, merge_self hvalue⟩
      | some existing =>
        exact ⟨_, rfl, ih key value hmem hvalue (hbase.of_mem (mem_of_lookup hlookup))⟩

end TomlTree

/-- A document that overrides another makes a document. -/
theorem mergeRawDefaults_document (defaults overrides : ConfigTree) :
    ∃ merged : ConfigTree, mergeRawDefaults defaults.tree overrides.tree = merged.tree :=
  ⟨⟨_, TomlTree.keyed_merge overrides.keyed defaults.keyed⟩, rfl⟩

/-- **The law of configuration layers**: what the merged tree has at every path, that merging an
override once more changes nothing, and that an empty one does not either. -/
theorem config_layers_lawful (defaults overrides : ConfigTree) :
    TomlTree.Layered defaults.tree overrides.tree
        (mergeRawDefaults defaults.tree overrides.tree) ∧
      mergeRawDefaults (mergeRawDefaults defaults.tree overrides.tree) overrides.tree =
        mergeRawDefaults defaults.tree overrides.tree ∧
      mergeRawDefaults defaults.tree ConfigTree.empty.tree = defaults.tree :=
  ⟨TomlTree.merge_layered overrides.keyed defaults.tree,
    TomlTree.merge_merge overrides.keyed defaults.keyed, rfl⟩

end OidcExchange
