import OidcExchange.Program.Upstream

/-!
# Masked pairs of a form

The loop that masks the values of sensitive pairs, which searches for the earliest pair again and
again, is one pass over the text: where a pair begins its value is replaced, and every other
character is copied. A character that is in no pair splits the pass, and a value without an
ampersand does not show in what comes out.
-/

set_option autoImplicit false

namespace OidcExchange

open Texts

/-! ## The earliest key -/

/-- The places that are found are the first ones where something holds. -/
structure FindsFirst (findKey : List Char → Option ℕ) (At : ℕ → List Char → Prop) : Prop where
  found : ∀ key ∈ sensitiveFormKeys, ∀ pos, findKey key = some pos →
    At pos key ∧ ∀ m < pos, ¬At m key
  missed : ∀ key ∈ sensitiveFormKeys, findKey key = none → ∀ m, ¬At m key

/-- What is kept while the keys are tried one after the other. -/
structure EarliestOf (findKey : List Char → Option ℕ) (tried : List (List Char))
    (best : Option (ℕ × List Char)) : Prop where
  held : ∀ e ∈ best, e.2 ∈ tried ∧ findKey e.2 = some e.1
  least : ∀ key ∈ tried, ∀ pos, findKey key = some pos → ∃ e ∈ best, e.1 ≤ pos

theorem earliestOf_foldl (findKey : List Char → Option ℕ) (keys tried : List (List Char))
    (best : Option (ℕ × List Char)) (h : EarliestOf findKey tried best) :
    EarliestOf findKey (tried ++ keys)
      (keys.foldl
        (fun earliest key =>
          match findKey key with
          | none => earliest
          | some pos => if earliest.all fun e => pos < e.1 then some (pos, key) else earliest)
        best) := by
  induction keys generalizing tried best with
  | nil => rwa [List.append_nil]
  | cons key keys ih =>
    rw [List.foldl_cons, ← List.singleton_append, ← List.append_assoc]
    apply ih
    cases hfind : findKey key with
    | none =>
      refine ⟨fun e he => ⟨List.mem_append_left _ (h.held e he).1, (h.held e he).2⟩, ?_⟩
      intro k hk pos hpos
      obtain hk | hk := List.mem_append.mp hk
      · exact h.least k hk pos hpos
      · rw [List.mem_singleton.mp hk, hfind] at hpos
        cases hpos
    | some pos =>
      simp only
      split
      · rename_i hall
        refine ⟨fun e he => ?_, fun k hk p hp => ⟨(pos, key), rfl, ?_⟩⟩
        · cases he
          exact ⟨List.mem_append_right _ List.mem_cons_self, hfind⟩
        · obtain hk | hk := List.mem_append.mp hk
          · obtain ⟨e, he, hle⟩ := h.least k hk p hp
            rw [Option.mem_def.mp he, Option.all_some, decide_eq_true_eq] at hall
            exact Nat.le_trans (Nat.le_of_lt hall) hle
          · rw [List.mem_singleton.mp hk, hfind] at hp
            exact Nat.le_of_eq (Option.some.inj hp)
      · rename_i hall
        refine ⟨fun e he => ⟨List.mem_append_left _ (h.held e he).1, (h.held e he).2⟩, ?_⟩
        intro k hk p hp
        obtain hk | hk := List.mem_append.mp hk
        · exact h.least k hk p hp
        · rw [List.mem_singleton.mp hk, hfind] at hp
          cases Option.some.inj hp
          cases best with
          | none => exact absurd rfl hall
          | some e =>
            rw [Option.all_some, decide_eq_true_eq] at hall
            exact ⟨e, rfl, Nat.le_of_not_lt hall⟩

theorem earliestOf_earliest (findKey : List Char → Option ℕ) :
    EarliestOf findKey sensitiveFormKeys (earliest findKey) :=
  earliestOf_foldl findKey sensitiveFormKeys [] none
    ⟨fun _ he => absurd he (by simp), fun _ hk => absurd hk (by simp)⟩

/-- Where nothing is found, nothing holds. -/
theorem earliest_eq_none {findKey : List Char → Option ℕ} {At : ℕ → List Char → Prop}
    (hfirst : FindsFirst findKey At) (h : earliest findKey = none) {key : List Char}
    (hkey : key ∈ sensitiveFormKeys) (m : ℕ) : ¬At m key := by
  cases hfind : findKey key with
  | none => exact hfirst.missed key hkey hfind m
  | some pos =>
    obtain ⟨e, he, -⟩ := (earliestOf_earliest findKey).least key hkey pos hfind
    rw [h] at he
    cases he

/-- What is found is the first of all keys. -/
theorem earliest_eq_some {findKey : List Char → Option ℕ} {At : ℕ → List Char → Prop}
    (hfirst : FindsFirst findKey At) {pos : ℕ} {key : List Char}
    (h : earliest findKey = some (pos, key)) :
    key ∈ sensitiveFormKeys ∧ At pos key ∧
      ∀ m < pos, ∀ key' ∈ sensitiveFormKeys, ¬At m key' := by
  have hspec := earliestOf_earliest findKey
  obtain ⟨hkey, hfind⟩ := hspec.held (pos, key) h
  refine ⟨hkey, (hfirst.found key hkey pos hfind).1, fun m hm key' hkey' hat => ?_⟩
  cases hfind' : findKey key' with
  | none => exact hfirst.missed key' hkey' hfind' m hat
  | some p =>
    obtain ⟨e, he, hle⟩ := hspec.least key' hkey' p hfind'
    rw [h] at he
    cases he
    exact (hfirst.found key' hkey' p hfind').2 m (Nat.lt_of_lt_of_le hm hle) hat

/-! ## Places of a pair -/

/-- A key with its equals sign. -/
def assigned (key : List Char) : List Char := key ++ ['=']

/-- No word character stands before. -/
def boundary (prev : Option Char) : Bool := prev.all fun c => !(c.isAlphanum || c = '_')

theorem boundaryBefore_eq (before : List Char) :
    boundaryBefore before = boundary before.getLast? := by
  rw [boundaryBefore, boundary]
  cases before.getLast? <;> rfl

/-- A pair with the key begins at the position of a text that follows a character or none. -/
def PairAt (prev : Option Char) (text : List Char) (pos : ℕ) (key : List Char) : Prop :=
  assigned key <+: text.drop pos ∧ boundary ((text.take pos).getLast?.or prev) = true

theorem pairAt_succ (prev : Option Char) (c : Char) (cs : List Char) (pos : ℕ)
    (key : List Char) : PairAt prev (c :: cs) (pos + 1) key ↔ PairAt (some c) cs pos key := by
  rw [PairAt, PairAt, List.drop_succ_cons, List.take_succ_cons, List.getLast?_cons]
  cases (cs.take pos).getLast? <;> rfl

/-- A list begins with one that lacks a character exactly if the part before that character
does. -/
theorem prefix_append_cons_iff {needle xs rest : List Char} {c : Char} (h : c ∉ needle) :
    needle <+: xs ++ c :: rest ↔ needle <+: xs := by
  constructor
  · intro hpre
    by_contra hnot
    have hlen : xs.length < needle.length := by
      by_contra hle
      exact hnot (List.prefix_of_prefix_length_le hpre (List.prefix_append xs (c :: rest))
        (Nat.le_of_not_lt hle))
    have hwhole : xs ++ [c] <+: needle := by
      refine @List.prefix_of_prefix_length_le _ _ _ (xs ++ c :: rest) ?_ hpre ?_
      · exact (List.prefix_append_right_inj xs).mpr (by simp)
      · rw [List.length_append, List.length_singleton]
        omega
    exact h (hwhole.subset (by simp))
  · intro hpre
    exact hpre.trans (List.prefix_append xs (c :: rest))

/-- No key occurs within itself. -/
theorem keys_apart : ∀ key ∈ sensitiveFormKeys, key ≠ [] ∧
    ∀ d < key.length, 0 < d → ¬key.drop d <+: key := by
  decide

/-- Only one key begins at a place. -/
theorem assigned_unique : ∀ key ∈ sensitiveFormKeys, ∀ key' ∈ sensitiveFormKeys,
    assigned key <+: assigned key' → key = key' := by
  decide

theorem pairAt_unique {text key key' : List Char} (hkey : key ∈ sensitiveFormKeys)
    (hkey' : key' ∈ sensitiveFormKeys) (h : assigned key <+: text)
    (h' : assigned key' <+: text) : key = key' := by
  obtain hle | hle := Nat.le_total (assigned key).length (assigned key').length
  · exact assigned_unique key hkey key' hkey' (List.prefix_of_prefix_length_le h h' hle)
  · exact (assigned_unique key' hkey' key hkey (List.prefix_of_prefix_length_le h' h hle)).symm

/-- Occurrences of a key are apart by its length. -/
theorem occurrences_apart {text key : List Char} (hkey : key ∈ sensitiveFormKeys) {pos m : ℕ}
    (hpos : key <+: text.drop pos) (hm : key <+: text.drop m) (hlt : pos < m) :
    pos + key.length ≤ m := by
  by_contra hover
  have hd : m - pos < key.length := by omega
  have hrest : key.drop (m - pos) <+: text.drop m := by
    obtain ⟨rest, hrest⟩ := hpos
    refine ⟨rest, ?_⟩
    rw [← List.drop_append_of_le_length (Nat.le_of_lt hd), hrest, List.drop_drop,
      Nat.add_sub_cancel' (Nat.le_of_lt hlt)]
  have hself : key.drop (m - pos) <+: key := by
    apply List.prefix_of_prefix_length_le hrest hm
    rw [List.length_drop]
    omega
  exact (keys_apart key hkey).2 (m - pos) hd (by omega) hself

/-- A key with its sign is a key that a sign follows. -/
theorem assigned_prefix_iff (key text : List Char) :
    assigned key <+: text ↔ key <+: text ∧ ['='] <+: text.drop key.length := by
  constructor
  · rintro ⟨rest, rfl⟩
    rw [assigned, List.append_assoc, List.drop_left]
    exact ⟨List.prefix_append _ _, List.prefix_append _ _⟩
  · rintro ⟨⟨rest, rfl⟩, hsign⟩
    rw [List.drop_left] at hsign
    exact (List.prefix_append_right_inj key).mpr hsign

/-- The loop finds the first pair from where it searches. -/
theorem findFormPairFrom_spec {text key : List Char} (hkey : key ∈ sensitiveFormKeys)
    (turns searchFrom : ℕ) (hturns : text.length < turns + searchFrom) :
    (∀ pos, findFormPairFrom text key turns searchFrom = some pos →
      PairAt none text pos key ∧ ∀ m < pos, searchFrom ≤ m → ¬PairAt none text m key) ∧
    (findFormPairFrom text key turns searchFrom = none →
      ∀ m, searchFrom ≤ m → ¬PairAt none text m key) := by
  induction turns generalizing searchFrom with
  | zero =>
    refine ⟨fun pos h => (nomatch h), fun _ m hm hpair => ?_⟩
    have hnil : text.drop m = [] := List.drop_eq_nil_of_le (by omega)
    rw [PairAt, hnil, List.prefix_nil] at hpair
    exact absurd hpair.1 (by simp [assigned])
  | succ turns ih =>
    rw [findFormPairFrom]
    cases hfind : find key (text.drop searchFrom) with
    | none =>
      refine ⟨fun pos h => (nomatch h), fun _ m hm hpair => ?_⟩
      apply find_eq_none hfind (m - searchFrom)
      rw [List.drop_drop, Nat.add_sub_cancel' hm]
      exact ((assigned_prefix_iff key _).mp hpair.1).1
    | some rel =>
      obtain ⟨hstand, -, hfirst⟩ := find_eq_some hfind
      rw [List.drop_drop] at hstand
      have hbefore : ∀ m, searchFrom ≤ m → m < searchFrom + rel → ¬PairAt none text m key := by
        intro m hm hlt hpair
        apply hfirst (m - searchFrom) (by omega)
        rw [List.drop_drop, Nat.add_sub_cancel' hm]
        exact ((assigned_prefix_iff key _).mp hpair.1).1
      have hpair : PairAt none text (searchFrom + rel) key ↔
          boundaryBefore (text.take (searchFrom + rel)) = true ∧
            ['='] <+: text.drop (searchFrom + rel + key.length) := by
        rw [PairAt, assigned_prefix_iff, List.drop_drop, boundaryBefore_eq, Option.or_none]
        exact ⟨fun h => ⟨h.2, h.1.2⟩, fun h => ⟨⟨hstand, h.2⟩, h.1⟩⟩
      simp only
      by_cases hcond : boundaryBefore (text.take (searchFrom + rel)) = true ∧
          ['='] <+: text.drop (searchFrom + rel + key.length)
      · rw [if_pos hcond]
        refine ⟨fun pos h => ?_, fun h => nomatch h⟩
        cases h
        exact ⟨hpair.mpr hcond, fun m hm hge => hbefore m hge hm⟩
      · rw [if_neg hcond]
        have hlen : 0 < key.length := List.length_pos_iff.mpr (keys_apart key hkey).1
        obtain ⟨hsome, hnone⟩ := ih (searchFrom + rel + key.length) (by omega)
        -- Between two searches there is no pair: the key does not occur within itself.
        have hskip : ∀ m, searchFrom ≤ m → m < searchFrom + rel + key.length →
            ¬PairAt none text m key := by
          intro m hm hlt hat
          obtain hlow | rfl | hhigh := Nat.lt_trichotomy m (searchFrom + rel)
          · exact hbefore m hm hlow hat
          · exact hcond (hpair.mp hat)
          · have hoccurs := ((assigned_prefix_iff key _).mp hat.1).1
            exact absurd (occurrences_apart hkey hstand hoccurs hhigh) (Nat.not_le_of_lt hlt)
        refine ⟨fun pos h => ⟨(hsome pos h).1, fun m hm hge => ?_⟩, fun h m hge => ?_⟩
        · obtain hlt | hge' := Nat.lt_or_ge m (searchFrom + rel + key.length)
          · exact hskip m hge hlt
          · exact (hsome pos h).2 m hm hge'
        · obtain hlt | hge' := Nat.lt_or_ge m (searchFrom + rel + key.length)
          · exact hskip m hge hlt
          · exact hnone h m hge'

/-- The first pair of a form is found. -/
theorem findsFirst_findFormPair (text : List Char) :
    FindsFirst (findFormPair text) (PairAt none text) := by
  constructor
  · intro key hkey pos h
    obtain ⟨hat, hfirst⟩ := (findFormPairFrom_spec hkey _ 0 (by omega)).1 pos h
    exact ⟨hat, fun m hm => hfirst m hm (Nat.zero_le m)⟩
  · intro key hkey h m
    exact (findFormPairFrom_spec hkey _ 0 (by omega)).2 h m (Nat.zero_le m)

/-! ## One pass -/

theorem length_nextPair_le (rest : List Char) : (nextPair rest).length ≤ rest.length := by
  rw [nextPair]
  split
  · rw [List.length_drop]
    exact Nat.sub_le _ _
  · exact Nat.zero_le _

/-- The key of the pair that begins a text. -/
def pairKey (prev : Option Char) (text : List Char) : Option (List Char) :=
  sensitiveFormKeys.find? fun key => decide (assigned key <+: text) && boundary prev

/-- A text with the values of its sensitive pairs replaced, in one pass. -/
def scanPairs (prev : Option Char) : List Char → List Char
  | [] => []
  | c :: cs =>
    match pairKey prev (c :: cs) with
    | some key => assigned key ++ redacted ++ scanPairs none (nextPair (cs.drop key.length))
    | none => c :: scanPairs (some c) cs
  termination_by text => text.length
  decreasing_by
  · have hnext := length_nextPair_le (cs.drop key.length)
    rw [List.length_drop] at hnext
    rw [List.length_cons]
    omega
  · exact Nat.lt_succ_self _

theorem pairKey_eq_some {prev : Option Char} {text key : List Char}
    (h : pairKey prev text = some key) :
    key ∈ sensitiveFormKeys ∧ assigned key <+: text ∧ boundary prev = true := by
  have hholds := List.find?_some h
  rw [Bool.and_eq_true, decide_eq_true_eq] at hholds
  exact ⟨List.mem_of_find?_eq_some h, hholds.1, hholds.2⟩

/-- The key of a pair at a boundary. -/
theorem pairKey_of_assigned {prev : Option Char} {key : List Char}
    (hkey : key ∈ sensitiveFormKeys) (hprev : boundary prev = true) (rest : List Char) :
    pairKey prev (assigned key ++ rest) = some key := by
  have hpre : assigned key <+: assigned key ++ rest := List.prefix_append _ _
  cases hfind : pairKey prev (assigned key ++ rest) with
  | none =>
    have hnot := List.find?_eq_none.mp hfind key hkey
    simp [hpre, hprev] at hnot
  | some key' =>
    obtain ⟨hkey', hpre', -⟩ := pairKey_eq_some hfind
    rw [pairAt_unique hkey hkey' hpre hpre']

theorem pairKey_eq_none_iff {prev : Option Char} {text : List Char} :
    pairKey prev text = none ↔ ∀ key ∈ sensitiveFormKeys, ¬PairAt prev text 0 key := by
  rw [pairKey, List.find?_eq_none]
  simp only [PairAt, List.drop_zero, List.take_zero, List.getLast?_nil, Option.none_or,
    Bool.and_eq_true, decide_eq_true_eq]

theorem scanPairs_of_none {prev : Option Char} {c : Char} {cs : List Char}
    (h : pairKey prev (c :: cs) = none) :
    scanPairs prev (c :: cs) = c :: scanPairs (some c) cs := by
  rw [scanPairs, h]

/-- At a pair the value is passed over. -/
theorem scanPairs_assigned {prev : Option Char} {key : List Char}
    (hkey : key ∈ sensitiveFormKeys) (hprev : boundary prev = true) (rest : List Char) :
    scanPairs prev (assigned key ++ rest) =
      assigned key ++ redacted ++ scanPairs none (nextPair rest) := by
  have hpair := pairKey_of_assigned hkey hprev rest
  cases htext : assigned key ++ rest with
  | nil => exact absurd htext (by simp [assigned])
  | cons c cs =>
    have hcs : cs.drop key.length = rest := by
      have hdrop : (c :: cs).drop (key.length + 1) = rest := by
        rw [← htext]
        exact List.drop_left' (by simp [assigned])
      rwa [List.drop_succ_cons] at hdrop
    rw [htext] at hpair
    rw [scanPairs, hpair]
    simp only [hcs]

/-- Where no pair begins characters are copied. -/
theorem scanPairs_copy (prev : Option Char) (text : List Char) (n : ℕ) (hn : n ≤ text.length)
    (h : ∀ m < n, ∀ key ∈ sensitiveFormKeys, ¬PairAt prev text m key) :
    scanPairs prev text =
      text.take n ++ scanPairs ((text.take n).getLast?.or prev) (text.drop n) := by
  induction n generalizing prev text with
  | zero => simp
  | succ n ih =>
    match text with
    | [] => exact absurd hn (by simp)
    | c :: cs =>
      have hhere : pairKey prev (c :: cs) = none :=
        pairKey_eq_none_iff.mpr fun key hkey => h 0 (Nat.succ_pos n) key hkey
      have hrest := ih (some c) cs (Nat.le_of_succ_le_succ hn) fun m hm key hkey hpair =>
        h (m + 1) (Nat.succ_lt_succ hm) key hkey ((pairAt_succ prev c cs m key).mpr hpair)
      rw [scanPairs_of_none hhere, hrest, List.take_succ_cons, List.drop_succ_cons,
        List.getLast?_cons, List.cons_append]
      cases (cs.take n).getLast? <;> rfl

/-- A text in which no pair begins is copied. -/
theorem scanPairs_eq_self {prev : Option Char} {text : List Char}
    (h : ∀ m, ∀ key ∈ sensitiveFormKeys, ¬PairAt prev text m key) : scanPairs prev text = text := by
  rw [scanPairs_copy prev text text.length (Nat.le_refl _) fun m _ => h m, List.take_length,
    List.drop_length, scanPairs, List.append_nil]

theorem maskFormPairsFrom_eq (turns : ℕ) (text : List Char) (h : text.length < turns) :
    maskFormPairsFrom turns text = scanPairs none text := by
  induction turns generalizing text with
  | zero => exact absurd h (Nat.not_lt_zero _)
  | succ turns ih =>
    have hfirst := findsFirst_findFormPair text
    rw [maskFormPairsFrom]
    cases hearliest : earliest (findFormPair text) with
    | none =>
      rw [scanPairs_eq_self fun m key hkey => earliest_eq_none hfirst hearliest hkey m]
    | some found =>
      obtain ⟨pos, key⟩ := found
      obtain ⟨hkey, ⟨⟨rest, hrest⟩, hboundary⟩, hbefore⟩ := earliest_eq_some hfirst hearliest
      have hlen : (text.drop pos).length = key.length + 1 + rest.length := by
        rw [← hrest, List.length_append, assigned, List.length_append, List.length_singleton]
      rw [List.length_drop] at hlen
      have hafter : text.drop (pos + key.length + 1) = rest := by
        rw [Nat.add_assoc, ← List.drop_drop, ← hrest]
        exact List.drop_left' (by simp [assigned])
      have hshorter := length_nextPair_le rest
      rw [scanPairs_copy none text pos (by omega) hbefore, ← hrest,
        scanPairs_assigned hkey hboundary]
      simp only
      rw [hafter, ih (nextPair rest) (by omega)]
      simp [assigned]

/-- The loop is one pass. -/
theorem maskFormPairs_eq (text : List Char) : maskFormPairs text = scanPairs none text :=
  maskFormPairsFrom_eq _ text (Nat.lt_succ_self _)

/-! ## Splitting the pass -/

/-- The character is in no pair's key or sign. -/
def InNoPair (c : Char) : Prop := ∀ key ∈ sensitiveFormKeys, c ∉ assigned key

instance (c : Char) : Decidable (InNoPair c) :=
  inferInstanceAs (Decidable (∀ key ∈ sensitiveFormKeys, c ∉ assigned key))

theorem nextPair_eq_nil {xs : List Char} (h : '&' ∉ xs) : nextPair xs = [] := by
  rw [nextPair, find_singleton_eq_none h]

theorem nextPair_ampersand {xs : List Char} (h : '&' ∉ xs) (rest : List Char) :
    nextPair (xs ++ '&' :: rest) = '&' :: rest := by
  rw [nextPair, find_singleton_append h]
  exact List.drop_left

/-- Nothing before the first ampersand shows. -/
theorem nextPair_append {xs : List Char} (h : '&' ∉ xs) (rest : List Char) :
    nextPair (xs ++ rest) = nextPair rest := by
  by_cases hmem : '&' ∈ rest
  · obtain ⟨before, after, rfl, hbefore⟩ := List.eq_append_cons_of_mem hmem
    rw [nextPair_ampersand hbefore, ← List.append_assoc, nextPair_ampersand]
    rw [List.mem_append, not_or]
    exact ⟨h, hbefore⟩
  · rw [nextPair_eq_nil hmem, nextPair_eq_nil]
    rw [List.mem_append, not_or]
    exact ⟨h, hmem⟩

/-- Whether a pair begins is settled before the first character that is in no pair. -/
theorem pairKey_append {c : Char} (hc : InNoPair c) (prev : Option Char) (xs rest : List Char) :
    pairKey prev (xs ++ c :: rest) = pairKey prev xs := by
  rw [pairKey, pairKey, ← List.head?_filter, ← List.head?_filter]
  congr 1
  apply List.filter_congr
  intro key hkey
  rw [decide_eq_decide.mpr (prefix_append_cons_iff (hc key hkey))]

theorem pairKey_nil (prev : Option Char) : pairKey prev [] = none := by
  rw [pairKey_eq_none_iff]
  intro key _ hpair
  rw [PairAt, List.drop_nil, List.prefix_nil] at hpair
  exact absurd hpair.1 (by simp [assigned])

theorem scanPairs_cons_of_inNoPair {c : Char} (hc : InNoPair c) (prev : Option Char)
    (rest : List Char) : scanPairs prev (c :: rest) = c :: scanPairs (some c) rest :=
  scanPairs_of_none ((pairKey_append hc prev [] rest).trans (pairKey_nil prev))

/-- The pass over a text up to a character that is in no pair does not depend on what follows:
either the character is copied, or it is within a value and the pass goes on at the next pair. -/
theorem scanPairs_split {c : Char} (hc : InNoPair c) (prev : Option Char) (xs : List Char) :
    (∃ out, ∀ rest, scanPairs prev (xs ++ c :: rest) = out ++ c :: scanPairs (some c) rest) ∨
      (c ≠ '&' ∧
        ∃ out, ∀ rest, scanPairs prev (xs ++ c :: rest) = out ++ scanPairs none (nextPair rest)) := by
  match xs with
  | [] => exact Or.inl ⟨[], fun rest => scanPairs_cons_of_inNoPair hc prev rest⟩
  | d :: xs =>
    have hkey : ∀ rest, pairKey prev (d :: (xs ++ c :: rest)) = pairKey prev (d :: xs) :=
      fun rest => pairKey_append hc prev (d :: xs) rest
    cases hpair : pairKey prev (d :: xs) with
    | none =>
      have hstep : ∀ rest, scanPairs prev (d :: xs ++ c :: rest) =
          d :: scanPairs (some d) (xs ++ c :: rest) := fun rest =>
        scanPairs_of_none ((hkey rest).trans hpair)
      obtain ⟨out, hout⟩ | ⟨hne, out, hout⟩ := scanPairs_split hc (some d) xs
      · exact Or.inl ⟨d :: out, fun rest => by rw [hstep, hout, List.cons_append]⟩
      · exact Or.inr ⟨hne, d :: out, fun rest => by rw [hstep, hout, List.cons_append]⟩
    | some key =>
      have hlen : key.length ≤ xs.length := by
        have hle := (pairKey_eq_some hpair).2.1.length_le
        rw [assigned, List.length_append, List.length_singleton, List.length_cons] at hle
        exact Nat.le_of_succ_le_succ hle
      have hstep : ∀ rest, scanPairs prev (d :: xs ++ c :: rest) =
          assigned key ++ redacted ++
            scanPairs none (nextPair (xs.drop key.length ++ c :: rest)) := fun rest => by
        rw [List.cons_append, scanPairs, (hkey rest).trans hpair]
        simp only
        rw [List.drop_append_of_le_length hlen]
      by_cases hmem : '&' ∈ xs.drop key.length
      · obtain ⟨before, after, hsplit, hbefore⟩ := List.eq_append_cons_of_mem hmem
        have hnext : ∀ rest, nextPair (xs.drop key.length ++ c :: rest) =
            '&' :: after ++ c :: rest := fun rest => by
          rw [hsplit, List.append_assoc]
          exact nextPair_ampersand hbefore _
        have hshorter : ('&' :: after).length ≤ xs.length := by
          have hle := congrArg List.length hsplit
          rw [List.length_drop, List.length_append] at hle
          omega
        obtain ⟨out, hout⟩ | ⟨hne, out, hout⟩ := scanPairs_split hc none ('&' :: after)
        · exact Or.inl ⟨assigned key ++ redacted ++ out, fun rest => by
            rw [hstep, hnext, hout, List.append_assoc _ out]⟩
        · exact Or.inr ⟨hne, assigned key ++ redacted ++ out, fun rest => by
            rw [hstep, hnext, hout, List.append_assoc _ out]⟩
      · by_cases hamp : c = '&'
        · refine Or.inl ⟨assigned key ++ redacted, fun rest => ?_⟩
          rw [hstep, hamp, nextPair_ampersand hmem, scanPairs_cons_of_inNoPair (hamp ▸ hc)]
        · refine Or.inr ⟨hamp, assigned key ++ redacted, fun rest => ?_⟩
          have hone : '&' ∉ [c] := fun h => hamp (List.mem_singleton.mp h).symm
          rw [hstep, nextPair_append hmem, ← List.singleton_append, nextPair_append hone]
  termination_by xs.length
  decreasing_by
  · exact Nat.lt_succ_self _
  · exact Nat.lt_succ_of_le hshorter

/-- Characters in which no pair begins are copied, up to one that is in no pair. -/
theorem scanPairs_stretch {prev : Option Char} {xs : List Char} {c : Char} (hc : InNoPair c)
    (h : ∀ m, ∀ key ∈ sensitiveFormKeys, ¬PairAt prev xs m key) (rest : List Char) :
    scanPairs prev (xs ++ c :: rest) = xs ++ c :: scanPairs (some c) rest := by
  rw [scanPairs_copy prev (xs ++ c :: rest) xs.length (by simp), List.take_left, List.drop_left,
    scanPairs_cons_of_inNoPair hc]
  intro m hm key hkey hpair
  rw [PairAt, List.drop_append_of_le_length (Nat.le_of_lt hm),
    List.take_append_of_le_length (Nat.le_of_lt hm), prefix_append_cons_iff (hc key hkey)] at hpair
  exact h m key hkey hpair

/-- Without a sign there is no pair. -/
theorem not_pairAt_of_no_sign {xs : List Char} (h : '=' ∉ xs) (prev : Option Char) (m : ℕ)
    (key : List Char) : ¬PairAt prev xs m key := by
  intro hpair
  have hmem : '=' ∈ xs.drop m := hpair.1.subset (by simp [assigned])
  exact h (List.mem_of_mem_drop hmem)

/-- Between a boundary and the start of a text there is no difference. -/
theorem pairAt_of_boundary {prev : Option Char} {xs : List Char} {m : ℕ} {key : List Char}
    (h : PairAt prev xs m key) : PairAt none xs m key := by
  refine ⟨h.1, ?_⟩
  have hboundary := h.2
  cases hlast : (xs.take m).getLast? with
  | none => rfl
  | some c =>
    rw [hlast] at hboundary
    exact hboundary

/-- A pair stays one where more follows and a boundary precedes. -/
theorem PairAt.append {prev : Option Char} {xs : List Char} {m : ℕ} {key : List Char}
    (h : PairAt none xs m key) (hprev : boundary prev = true) (ys : List Char) :
    PairAt prev (xs ++ ys) m key := by
  obtain ⟨hpre, hboundary⟩ := h
  have hle : m ≤ xs.length := by
    by_contra hlong
    rw [List.drop_eq_nil_of_le (by omega), List.prefix_nil] at hpre
    exact absurd hpre (by simp [assigned])
  rw [PairAt, List.drop_append_of_le_length hle, List.take_append_of_le_length hle]
  refine ⟨hpre.trans (List.prefix_append _ _), ?_⟩
  cases hlast : (xs.take m).getLast? with
  | none => exact hprev
  | some c =>
    rw [hlast] at hboundary
    exact hboundary

end OidcExchange
