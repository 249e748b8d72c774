import OidcExchange.Analysis.FormMasking

/-!
# Masked members of an object

The loop that masks the strings of sensitive members is one pass over the text as well. Before a
member whose name follows a brace or a comma the pass does not depend on the member, and of the
string of a sensitive member nothing shows up to its first quote.
-/

set_option autoImplicit false

namespace OidcExchange

open Texts

/-! ## Strings after a name -/

/-- White space, a colon and white space. -/
def IsGap (gap : List Char) : Prop :=
  ∃ before after, gap = before ++ ':' :: after ∧ before.all isWhiteSpace = true ∧
    after.all isWhiteSpace = true

theorem findIdx?_not_white {spaces : List Char} (h : spaces.all isWhiteSpace = true) {c : Char}
    (hc : isWhiteSpace c = false) (rest : List Char) :
    (spaces ++ c :: rest).findIdx? (fun ch => !isWhiteSpace ch) = some spaces.length := by
  induction spaces with
  | nil => simp [List.findIdx?_cons, hc]
  | cons s spaces ih =>
    rw [List.all_cons, Bool.and_eq_true] at h
    rw [List.cons_append, List.findIdx?_cons, h.1, ih h.2]
    rfl

/-- The first character that is no white space. -/
theorem split_at_white (text : List Char) {n : ℕ}
    (h : text.findIdx? (fun ch => !isWhiteSpace ch) = some n) {c : Char}
    (hc : text[n]? = some c) :
    ∃ spaces rest, text = spaces ++ c :: rest ∧ spaces.length = n ∧
      spaces.all isWhiteSpace = true := by
  obtain ⟨hlt, -, hbefore⟩ := List.findIdx?_eq_some_iff_getElem.mp h
  refine ⟨text.take n, text.drop (n + 1), ?_, List.length_take_of_le (Nat.le_of_lt hlt), ?_⟩
  · rw [List.getElem?_eq_getElem hlt] at hc
    rw [← Option.some.inj hc, ← List.drop_eq_getElem_cons hlt, List.take_append_drop]
  · rw [List.all_eq_true]
    intro x hx
    obtain ⟨i, hi, rfl⟩ := List.getElem_of_mem hx
    rw [List.length_take] at hi
    have hwhite := hbefore i (by omega)
    rw [List.getElem_take]
    simpa using hwhite

theorem getElem?_append_cons (xs : List Char) (c : Char) (rest : List Char) :
    (xs ++ c :: rest)[xs.length]? = some c := by
  rw [List.getElem?_append_right (Nat.le_refl _), Nat.sub_self, List.getElem?_cons_zero]

theorem drop_append_cons (xs : List Char) (c : Char) (rest : List Char) :
    (xs ++ c :: rest).drop (xs.length + 1) = rest := by
  rw [List.append_cons]
  exact List.drop_left' (by simp)

/-- The range of the string after a name. -/
theorem jsonStringValueRange_of_gap {gap content : List Char} (hgap : IsGap gap)
    (hcontent : '"' ∉ content) (rest : List Char) :
    jsonStringValueRange (gap ++ '"' :: (content ++ '"' :: rest)) =
      some (gap.length + 1, content.length + (gap.length + 1)) := by
  obtain ⟨before, after, rfl, hbefore, hafter⟩ := hgap
  have hquote : before.length + 1 + after.length = (before ++ ':' :: after).length := by
    rw [List.length_append, List.length_cons]
    omega
  have hcolon : (before ++ ':' :: after) ++ '"' :: (content ++ '"' :: rest) =
      before ++ ':' :: (after ++ '"' :: (content ++ '"' :: rest)) := by
    rw [List.append_assoc, List.cons_append]
  rw [jsonStringValueRange, hcolon, findIdx?_not_white hbefore (by decide)]
  simp only [Option.bind_eq_bind, Option.bind_some]
  rw [if_neg (by rw [getElem?_append_cons, not_ne_iff]), drop_append_cons,
    findIdx?_not_white hafter (by decide), Option.bind_some, ← hcolon, hquote,
    if_neg (by rw [getElem?_append_cons, not_ne_iff]), drop_append_cons,
    find_singleton_append hcontent]
  rfl

/-- A range is that of a string after a colon. -/
theorem jsonStringValueRange_eq_some {afterKey : List Char} {valueStart valueEnd : ℕ}
    (h : jsonStringValueRange afterKey = some (valueStart, valueEnd)) :
    ∃ gap content rest, afterKey = gap ++ '"' :: (content ++ '"' :: rest) ∧ IsGap gap ∧
      '"' ∉ content := by
  rw [jsonStringValueRange] at h
  obtain ⟨colon, hcolon, h⟩ := Option.bind_eq_some_iff.mp h
  split at h
  · cases h
  · rename_i hat
    rw [not_ne_iff] at hat
    obtain ⟨before, afterColon, rfl, rfl, hbefore⟩ := split_at_white afterKey hcolon hat
    rw [drop_append_cons] at h
    obtain ⟨quote, hquote, h⟩ := Option.bind_eq_some_iff.mp h
    split at h
    · cases h
    · rename_i hat'
      rw [not_ne_iff, ← List.getElem?_drop, drop_append_cons] at hat'
      obtain ⟨after, afterQuote, rfl, rfl, hafter⟩ := split_at_white afterColon hquote hat'
      obtain ⟨closing, hclosing, -⟩ := Option.bind_eq_some_iff.mp h
      have hgap : before ++ ':' :: (after ++ '"' :: afterQuote) =
          (before ++ ':' :: after) ++ '"' :: afterQuote := by
        rw [List.append_assoc, List.cons_append]
      have hlen : before.length + 1 + after.length + 1 = (before ++ ':' :: after).length + 1 := by
        rw [List.length_append, List.length_cons]
        omega
      rw [hgap, hlen, drop_append_cons] at hclosing
      have hmem : '"' ∈ afterQuote := by
        by_contra hnot
        rw [find_singleton_eq_none hnot] at hclosing
        cases hclosing
      obtain ⟨content, rest, rfl, hcontent⟩ := List.eq_append_cons_of_mem hmem
      exact ⟨before ++ ':' :: after, content, rest, hgap, ⟨before, after, rfl, hbefore, hafter⟩,
        hcontent⟩

/-! ## One pass -/

/-- What is shown after a name, and what is still to be masked. -/
def passString (afterKey : List Char) : List Char × List Char :=
  match jsonStringValueRange afterKey with
  | some (valueStart, valueEnd) =>
    (afterKey.take valueStart ++ redacted, afterKey.drop valueEnd)
  | none => ([], afterKey)

theorem length_passString_le (afterKey : List Char) :
    (passString afterKey).2.length ≤ afterKey.length := by
  rw [passString]
  split
  · rw [List.length_drop]
    exact Nat.sub_le _ _
  · exact Nat.le_refl _

/-- The sensitive key whose quoted name begins a text. -/
def memberKey (text : List Char) : Option (List Char) :=
  sensitiveFormKeys.find? fun key => decide (quoted key <+: text)

/-- A text with the strings of its sensitive members replaced, in one pass. -/
def scanMembers : List Char → List Char
  | [] => []
  | c :: cs =>
    match memberKey (c :: cs) with
    | some key =>
      quoted key ++ (passString (cs.drop (key.length + 1))).1 ++
        scanMembers (passString (cs.drop (key.length + 1))).2
    | none => c :: scanMembers cs
  termination_by text => text.length
  decreasing_by
  · have hpass := length_passString_le (cs.drop (key.length + 1))
    rw [List.length_drop] at hpass
    rw [List.length_cons]
    omega
  · exact Nat.lt_succ_self _

/-- Only one quoted name begins at a place. -/
theorem quoted_unique : ∀ key ∈ sensitiveFormKeys, ∀ key' ∈ sensitiveFormKeys,
    quoted key <+: quoted key' → key = key' := by
  decide

theorem memberKey_eq_some {text key : List Char} (h : memberKey text = some key) :
    key ∈ sensitiveFormKeys ∧ quoted key <+: text := by
  have hholds := List.find?_some h
  exact ⟨List.mem_of_find?_eq_some h, of_decide_eq_true hholds⟩

theorem memberKey_eq_none_iff {text : List Char} :
    memberKey text = none ↔ ∀ key ∈ sensitiveFormKeys, ¬quoted key <+: text := by
  rw [memberKey, List.find?_eq_none]
  simp only [decide_eq_true_eq]

theorem memberKey_of_quoted {key : List Char} (hkey : key ∈ sensitiveFormKeys)
    (rest : List Char) : memberKey (quoted key ++ rest) = some key := by
  have hpre : quoted key <+: quoted key ++ rest := List.prefix_append _ _
  cases hfind : memberKey (quoted key ++ rest) with
  | none => exact absurd hpre (memberKey_eq_none_iff.mp hfind key hkey)
  | some key' =>
    obtain ⟨hkey', hpre'⟩ := memberKey_eq_some hfind
    obtain hle | hle := Nat.le_total (quoted key).length (quoted key').length
    · rw [quoted_unique key hkey key' hkey' (List.prefix_of_prefix_length_le hpre hpre' hle)]
    · rw [quoted_unique key' hkey' key hkey (List.prefix_of_prefix_length_le hpre' hpre hle)]

theorem scanMembers_of_none {c : Char} {cs : List Char} (h : memberKey (c :: cs) = none) :
    scanMembers (c :: cs) = c :: scanMembers cs := by
  rw [scanMembers, h]

/-- At a sensitive name its string is passed over. -/
theorem scanMembers_quoted {key : List Char} (hkey : key ∈ sensitiveFormKeys)
    (rest : List Char) :
    scanMembers (quoted key ++ rest) =
      quoted key ++ (passString rest).1 ++ scanMembers (passString rest).2 := by
  have hmember := memberKey_of_quoted hkey rest
  have hcs : (key ++ ['"'] ++ rest).drop (key.length + 1) = rest :=
    List.drop_left' (by simp)
  rw [quoted, List.cons_append, List.cons_append] at hmember ⊢
  rw [scanMembers, hmember]
  simp only [hcs]
  rfl

/-- Where no sensitive name begins characters are copied. -/
theorem scanMembers_copy (text : List Char) (n : ℕ) (hn : n ≤ text.length)
    (h : ∀ m < n, ∀ key ∈ sensitiveFormKeys, ¬quoted key <+: text.drop m) :
    scanMembers text = text.take n ++ scanMembers (text.drop n) := by
  induction n generalizing text with
  | zero => simp
  | succ n ih =>
    match text with
    | [] => exact absurd hn (by simp)
    | c :: cs =>
      have hhere : memberKey (c :: cs) = none :=
        memberKey_eq_none_iff.mpr fun key hkey => h 0 (Nat.succ_pos n) key hkey
      rw [scanMembers_of_none hhere, List.take_succ_cons, List.drop_succ_cons, List.cons_append,
        ← ih cs (Nat.le_of_succ_le_succ hn) fun m hm => h (m + 1) (Nat.succ_lt_succ hm)]

theorem findsFirst_find_quoted (text : List Char) :
    FindsFirst (fun key => find (quoted key) text) fun m key => quoted key <+: text.drop m := by
  constructor
  · intro key _ pos h
    obtain ⟨hstand, -, hfirst⟩ := find_eq_some h
    exact ⟨hstand, hfirst⟩
  · intro key _ h
    exact find_eq_none h

theorem maskJsonValuesFrom_eq (turns : ℕ) (text : List Char) (h : text.length < turns) :
    maskJsonValuesFrom turns text = scanMembers text := by
  induction turns generalizing text with
  | zero => exact absurd h (Nat.not_lt_zero _)
  | succ turns ih =>
    have hfirst := findsFirst_find_quoted text
    rw [maskJsonValuesFrom]
    cases hearliest : earliest fun key => find (quoted key) text with
    | none =>
      rw [scanMembers_copy text text.length (Nat.le_refl _) fun m _ key hkey =>
        earliest_eq_none hfirst hearliest hkey m]
      rw [List.take_length, List.drop_length, scanMembers, List.append_nil]
    | some found =>
      obtain ⟨pos, key⟩ := found
      obtain ⟨hkey, ⟨rest, hrest⟩, hbefore⟩ := earliest_eq_some hfirst hearliest
      have hquoted : (quoted key).length = key.length + 2 := by simp [quoted]
      have hlen : (text.drop pos).length = key.length + 2 + rest.length := by
        rw [← hrest, List.length_append, hquoted]
      rw [List.length_drop] at hlen
      have hafter : text.drop (pos + key.length + 2) = rest := by
        rw [Nat.add_assoc, ← List.drop_drop, ← hrest]
        exact List.drop_left' hquoted
      have hupto : text.take (pos + key.length + 2) = text.take pos ++ quoted key := by
        rw [Nat.add_assoc, List.take_add, ← hrest]
        rw [List.take_left' hquoted]
      have hshorter := length_passString_le rest
      rw [scanMembers_copy text pos (by omega) hbefore, ← hrest, scanMembers_quoted hkey]
      simp only
      rw [hafter, hupto, List.append_assoc, List.append_assoc]
      congr 2
      rw [passString] at hshorter ⊢
      split at hshorter
      · rename_i valueStart valueEnd hrange
        simp only [hrange] at hshorter ⊢
        rw [ih _ (by omega)]
      · rename_i hrange
        simp only [hrange]
        rw [ih _ (by omega), List.nil_append]

/-- The loop is one pass. -/
theorem maskJsonValues_eq (text : List Char) : maskJsonValues text = scanMembers text :=
  maskJsonValuesFrom_eq _ text (Nat.lt_succ_self _)

/-! ## Before a member -/

/-- The last character that is no white space. -/
def lastVisible (text : List Char) : Option Char :=
  (text.filter fun c => !isWhiteSpace c).getLast?

/-- A member may follow: what comes last is a brace or a comma, or there is nothing. -/
def MemberMayFollow (text : List Char) : Prop :=
  ∀ c, lastVisible text = some c → c = '{' ∨ c = ','

theorem lastVisible_append (xs ys : List Char) :
    lastVisible (xs ++ ys) = (lastVisible ys).or (lastVisible xs) := by
  rw [lastVisible, List.filter_append, List.getLast?_append]
  rfl

theorem MemberMayFollow.suffix {xs ys : List Char} (h : MemberMayFollow (xs ++ ys)) :
    MemberMayFollow ys := by
  intro c hc
  apply h
  rw [lastVisible_append, hc]
  rfl

theorem lastVisible_cons_white {c : Char} (hc : isWhiteSpace c = false) {spaces : List Char}
    (h : spaces.all isWhiteSpace = true) : lastVisible (c :: spaces) = some c := by
  have hnone : spaces.filter (fun c => !isWhiteSpace c) = [] := by
    rw [List.filter_eq_nil_iff]
    intro x hx
    simp [List.all_eq_true.mp h x hx]
  rw [lastVisible, List.filter_cons_of_pos (by simp [hc]), hnone]
  rfl

theorem lastVisible_gap {gap : List Char} (h : IsGap gap) : lastVisible gap = some ':' := by
  obtain ⟨before, after, rfl, -, hafter⟩ := h
  rw [lastVisible_append, lastVisible_cons_white (by decide) hafter]
  rfl

theorem not_mem_gap {gap : List Char} (h : IsGap gap) : '"' ∉ gap := by
  obtain ⟨before, after, rfl, hbefore, hafter⟩ := h
  intro hmem
  obtain hmem | hmem := List.mem_append.mp hmem
  · exact absurd (List.all_eq_true.mp hbefore _ hmem) (by decide)
  · obtain hmem | hmem := List.mem_cons.mp hmem
    · exact absurd hmem (by decide)
    · exact absurd (List.all_eq_true.mp hafter _ hmem) (by decide)

/-- What precedes a later quote of a sensitive name does not end as what precedes a member. -/
theorem half_open_name : ∀ key ∈ sensitiveFormKeys, ∀ n < key.length + 2, 0 < n →
    (quoted key)[n]? = some '"' →
    lastVisible ((quoted key).take n) ∉ [none, some '{', some ','] := by
  decide

/-- Before a member no name is half open. -/
theorem quoted_prefix_append_iff {xs key : List Char} (h : MemberMayFollow xs) (hne : xs ≠ [])
    (hkey : key ∈ sensitiveFormKeys) (rest : List Char) :
    quoted key <+: xs ++ '"' :: rest ↔ quoted key <+: xs := by
  constructor
  · intro hpre
    by_contra hnot
    have hlen : xs.length < (quoted key).length := by
      by_contra hle
      exact hnot (List.prefix_of_prefix_length_le hpre (List.prefix_append xs ('"' :: rest))
        (Nat.le_of_not_lt hle))
    have hxs : xs = (quoted key).take xs.length := by
      rw [List.prefix_iff_eq_take.mp hpre, List.take_take, Nat.min_eq_left (Nat.le_of_lt hlen),
        List.take_left]
    have hquote : (quoted key)[xs.length]? = some '"' := by
      rw [List.prefix_iff_eq_take.mp hpre, List.getElem?_take_of_lt hlen, getElem?_append_cons]
    have hinside : xs.length < key.length + 2 := by
      rw [quoted, List.length_append, List.length_cons, List.length_singleton] at hlen
      omega
    have hlast := half_open_name key hkey xs.length hinside (List.length_pos_iff.mpr hne) hquote
    rw [← hxs, List.mem_cons, List.mem_cons, List.mem_singleton, not_or, not_or] at hlast
    cases hvisible : lastVisible xs with
    | none => exact hlast.1 hvisible
    | some c =>
      obtain rfl | rfl := h c hvisible
      · exact hlast.2.1 hvisible
      · exact hlast.2.2 hvisible
  · intro hpre
    exact hpre.trans (List.prefix_append xs ('"' :: rest))

theorem memberKey_append {xs : List Char} (h : MemberMayFollow xs) (hne : xs ≠ [])
    (rest : List Char) : memberKey (xs ++ '"' :: rest) = memberKey xs := by
  rw [memberKey, memberKey, ← List.head?_filter, ← List.head?_filter]
  congr 1
  apply List.filter_congr
  intro key hkey
  rw [decide_eq_decide]
  exact quoted_prefix_append_iff h hne hkey rest

/-- A string after a name is hidden up to its first quote. -/
theorem passString_of_gap {gap content : List Char} (hgap : IsGap gap) (hcontent : '"' ∉ content)
    (rest : List Char) :
    passString (gap ++ '"' :: (content ++ '"' :: rest)) =
      (gap ++ '"' :: redacted, '"' :: rest) := by
  have hsplit : gap ++ '"' :: (content ++ '"' :: rest) =
      (gap ++ ['"']) ++ (content ++ '"' :: rest) := List.append_cons gap '"' _
  have hshown : (gap ++ '"' :: (content ++ '"' :: rest)).take (gap.length + 1) = gap ++ ['"'] := by
    rw [hsplit]
    exact List.take_left' (by simp)
  have hleft : (gap ++ '"' :: (content ++ '"' :: rest)).drop
      (content.length + (gap.length + 1)) = '"' :: rest := by
    rw [hsplit, ← List.append_assoc]
    exact List.drop_left' (by simp; omega)
  rw [passString, jsonStringValueRange_of_gap hgap hcontent]
  simp only
  rw [hshown, hleft, ← List.append_cons]

/-- A string that is passed over before a member begins before it. -/
theorem gap_before_member {xs gap rest content : List Char} (h : MemberMayFollow xs)
    (hgap : IsGap gap) (htext : xs ++ '"' :: rest = gap ++ '"' :: content) :
    ∃ more, xs = gap ++ '"' :: more := by
  have hne : xs ≠ gap := by
    rintro rfl
    obtain hbrace | hcomma := h ':' (lastVisible_gap hgap)
    · exact absurd hbrace (by decide)
    · exact absurd hcomma (by decide)
  obtain ⟨more, rfl, hmore⟩ | ⟨more, rfl, hmore⟩ := List.append_eq_append_iff.mp htext
  · match more with
    | [] => exact absurd (List.append_nil xs).symm hne
    | c :: more =>
      rw [List.cons_append, List.cons.injEq] at hmore
      rw [← hmore.1] at hgap
      exact absurd (List.mem_append_right xs List.mem_cons_self) (not_mem_gap hgap)
  · match more with
    | [] => exact absurd (List.append_nil gap) hne
    | c :: more =>
      rw [List.cons_append, List.cons.injEq] at hmore
      exact ⟨more, by rw [hmore.1]⟩

/-- What is passed over before a member does not depend on the member. -/
theorem passString_append {xs : List Char} (h : MemberMayFollow xs) :
    ∃ shown hidden left, xs = hidden ++ left ∧
      ∀ rest, passString (xs ++ '"' :: rest) = (shown, left ++ '"' :: rest) := by
  by_cases hrange : ∃ rest, jsonStringValueRange (xs ++ '"' :: rest) ≠ none
  · obtain ⟨rest, hrest⟩ := hrange
    obtain ⟨⟨valueStart, valueEnd⟩, hrange⟩ := Option.ne_none_iff_exists'.mp hrest
    obtain ⟨gap, content, after, htext, hgap, -⟩ := jsonStringValueRange_eq_some hrange
    obtain ⟨more, rfl⟩ := gap_before_member h hgap htext
    by_cases hmem : '"' ∈ more
    · obtain ⟨inside, left, rfl, hinside⟩ := List.eq_append_cons_of_mem hmem
      refine ⟨gap ++ '"' :: redacted, gap ++ '"' :: inside, '"' :: left, by simp, fun rest => ?_⟩
      have hpass := passString_of_gap hgap hinside (left ++ '"' :: rest)
      simpa using hpass
    · refine ⟨gap ++ '"' :: redacted, gap ++ '"' :: more, [], by simp, fun rest => ?_⟩
      have hpass := passString_of_gap hgap hmem rest
      simpa using hpass
  · refine ⟨[], [], xs, rfl, fun rest => ?_⟩
    have hnone : jsonStringValueRange (xs ++ '"' :: rest) = none := by
      by_contra hne
      exact hrange ⟨rest, hne⟩
    rw [passString, hnone]

/-- The pass up to a member does not depend on the member. -/
theorem scanMembers_split {xs : List Char} (h : MemberMayFollow xs) :
    ∃ out, ∀ rest, scanMembers (xs ++ '"' :: rest) = out ++ scanMembers ('"' :: rest) := by
  match xs with
  | [] => exact ⟨[], fun rest => rfl⟩
  | c :: cs =>
    have hkey := memberKey_append h (List.cons_ne_nil c cs)
    cases hmember : memberKey (c :: cs) with
    | none =>
      have htail : MemberMayFollow cs := @MemberMayFollow.suffix [c] cs h
      obtain ⟨out, hout⟩ := scanMembers_split htail
      refine ⟨c :: out, fun rest => ?_⟩
      have hhere : memberKey (c :: (cs ++ '"' :: rest)) = none := (hkey rest).trans hmember
      rw [List.cons_append, scanMembers_of_none hhere, hout, List.cons_append]
    | some key =>
      obtain ⟨-, more, hmore⟩ := memberKey_eq_some hmember
      have hmay : MemberMayFollow more := by
        rw [← hmore] at h
        exact h.suffix
      obtain ⟨shown, hidden, left, rfl, hpass⟩ := passString_append hmay
      have hshorter : left.length ≤ cs.length := by
        have hlen := congrArg List.length hmore
        simp only [quoted, List.length_append, List.length_cons] at hlen
        omega
      obtain ⟨out, hout⟩ := scanMembers_split hmay.suffix
      refine ⟨quoted key ++ shown ++ out, fun rest => ?_⟩
      rw [← hmore, List.append_assoc, scanMembers_quoted (memberKey_eq_some hmember).1, hpass,
        hout, List.append_assoc _ out]
  termination_by xs.length
  decreasing_by
  all_goals simp only [List.length_cons]
  all_goals omega

/-- Of the string of a sensitive member nothing shows. -/
theorem scanMembers_member {key gap content : List Char} (hkey : key ∈ sensitiveFormKeys)
    (hgap : IsGap gap) (hcontent : '"' ∉ content) (rest : List Char) :
    scanMembers (quoted key ++ (gap ++ '"' :: (content ++ '"' :: rest))) =
      quoted key ++ (gap ++ '"' :: redacted) ++ scanMembers ('"' :: rest) := by
  rw [scanMembers_quoted hkey, passString_of_gap hgap hcontent]

/-! ## What is kept -/

theorem passString_cases (afterKey : List Char) :
    passString afterKey = ([], afterKey) ∨
      ∃ gap content rest, afterKey = gap ++ '"' :: (content ++ '"' :: rest) ∧ IsGap gap ∧
        '"' ∉ content ∧ passString afterKey = (gap ++ '"' :: redacted, '"' :: rest) := by
  cases hrange : jsonStringValueRange afterKey with
  | none =>
    left
    rw [passString, hrange]
  | some range =>
    obtain ⟨gap, content, rest, rfl, hgap, hcontent⟩ := jsonStringValueRange_eq_some hrange
    exact Or.inr ⟨gap, content, rest, rfl, hgap, hcontent, passString_of_gap hgap hcontent rest⟩

/-- The pass by its cases: a character that is copied, a name without a string after it, and a
member with a string. -/
theorem scanMembers_induction {P : List Char → List Char → Prop} (hnil : P [] [])
    (hcopy : ∀ c cs, P cs (scanMembers cs) → P (c :: cs) (c :: scanMembers cs))
    (hname : ∀ key rest, key ∈ sensitiveFormKeys → P rest (scanMembers rest) →
      P (quoted key ++ rest) (quoted key ++ scanMembers rest))
    (hmember : ∀ key gap content rest, key ∈ sensitiveFormKeys → IsGap gap → '"' ∉ content →
      P ('"' :: rest) (scanMembers ('"' :: rest)) →
        P (quoted key ++ (gap ++ '"' :: (content ++ '"' :: rest)))
          (quoted key ++ (gap ++ '"' :: redacted) ++ scanMembers ('"' :: rest)))
    (text : List Char) : P text (scanMembers text) := by
  match text with
  | [] =>
    rw [scanMembers]
    exact hnil
  | c :: cs =>
    cases hkey : memberKey (c :: cs) with
    | none =>
      rw [scanMembers_of_none hkey]
      exact hcopy c cs (scanMembers_induction hnil hcopy hname hmember cs)
    | some key =>
      obtain ⟨hsensitive, rest, hrest⟩ := memberKey_eq_some hkey
      have hlen : rest.length < (c :: cs).length := by
        rw [← hrest]
        simp [quoted]
        omega
      rw [← hrest, scanMembers_quoted hsensitive]
      obtain hpass | ⟨gap, content, more, hmore, hgap, hcontent, hpass⟩ := passString_cases rest
      · rw [hpass, List.append_nil]
        exact hname key rest hsensitive (scanMembers_induction hnil hcopy hname hmember rest)
      · have hshorter : ('"' :: more).length ≤ rest.length := by
          rw [hmore]
          simp
          omega
        rw [hpass, hmore]
        exact hmember key gap content more hsensitive hgap hcontent
          (scanMembers_induction hnil hcopy hname hmember ('"' :: more))
  termination_by text.length
  decreasing_by
  · exact Nat.lt_succ_self _
  · exact hlen
  · exact Nat.lt_of_le_of_lt hshorter hlen

/-- Every quote is kept. -/
theorem count_scanMembers (text : List Char) : (scanMembers text).count '"' = text.count '"' := by
  refine scanMembers_induction (P := fun text out => out.count '"' = text.count '"') rfl ?_ ?_ ?_
    text
  · intro c cs ih
    rw [List.count_cons, List.count_cons, ih]
  · intro key rest _ ih
    rw [List.count_append, List.count_append, ih]
  · intro key gap content rest _ _ hcontent ih
    have hredacted : redacted.count '"' = 0 := by decide
    simp only [List.count_append, List.count_cons_self, ih, hredacted,
      List.count_eq_zero.mpr hcontent]
    omega

/-- The last character is kept. -/
theorem getLast?_scanMembers (text : List Char) :
    (scanMembers text).getLast? = text.getLast? := by
  refine scanMembers_induction (P := fun text out => out.getLast? = text.getLast?) rfl ?_ ?_ ?_
    text
  · intro c cs ih
    rw [List.getLast?_cons, List.getLast?_cons, ih]
  · intro key rest _ ih
    rw [List.getLast?_append, List.getLast?_append, ih]
  · intro key gap content rest _ _ _ ih
    simp only [List.getLast?_append, List.getLast?_cons, ih]
    simp

/-- Characters in which no sensitive name begins are copied, up to one that is in no name. -/
theorem scanMembers_stretch {xs : List Char} {c : Char}
    (hc : ∀ key ∈ sensitiveFormKeys, c ∉ quoted key)
    (h : ∀ m < xs.length, ∀ key ∈ sensitiveFormKeys, ¬quoted key <+: xs.drop m)
    (rest : List Char) : scanMembers (xs ++ c :: rest) = xs ++ c :: scanMembers rest := by
  have hhere : memberKey (c :: rest) = none :=
    memberKey_eq_none_iff.mpr fun key hkey hpre =>
      absurd ((@prefix_append_cons_iff _ [] _ _ (hc key hkey)).mp hpre) (by simp [quoted])
  rw [scanMembers_copy (xs ++ c :: rest) xs.length (by simp), List.take_left, List.drop_left,
    scanMembers_of_none hhere]
  intro m hm key hkey hpre
  rw [List.drop_append_of_le_length (Nat.le_of_lt hm), prefix_append_cons_iff (hc key hkey)] at hpre
  exact h m hm key hkey hpre

end OidcExchange
