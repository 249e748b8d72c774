import OidcExchange.Program.DomainAllowlist

/-!
# Which domains an allow-list admits

An entry lists a domain label by label, letters compared within ASCII: an exact entry lists
the domain itself, and `*.base` lists what stands strictly below `base`. The matcher admits
two kinds of domains more. It reads the Kelvin sign as a `k`; and an entry that starts with
a star and no dot admits every longer text that ends like it, at a label boundary or not.
-/

set_option autoImplicit false

namespace OidcExchange

/-! ## What an allow-list says -/

/-- The same label, up to the case of ASCII letters. -/
def SameLabel (a b : List Char) : Prop := a.map Char.toLower = b.map Char.toLower

/-- The same domain, label by label. -/
def SameDomain (a b : List Char) : Prop := List.Forall₂ SameLabel (a.splitOn '.') (b.splitOn '.')

/-- A domain strictly below `base`: something stands before the dot. -/
def StrictSubdomain (domain base : List Char) : Prop :=
  ∃ front back, front ≠ [] ∧ domain = front ++ '.' :: back ∧ SameDomain back base

/-- What an entry lists: `*.base` the strict subdomains of `base`, any other entry itself. -/
def AsciiDomainPattern.Lists (entry : AsciiDomainPattern) (domain : List Char) : Prop :=
  match entry.chars with
  | '*' :: '.' :: base => StrictSubdomain domain base
  | exactly => SameDomain domain exactly

/-- Some entry lists the domain. -/
def Listed (allowlist : List AsciiDomainPattern) (domain : List Char) : Prop :=
  ∃ entry ∈ allowlist, entry.Lists domain

/-- The part of the e-mail after its last `@` is listed. -/
def ListedEmail (allowlist : List AsciiDomainPattern) (email : String) : Prop :=
  ∃ name domain, email.toList = name ++ '@' :: domain ∧ '@' ∉ domain ∧ Listed allowlist domain

/-- The Kelvin sign read as a `k`. -/
def readKelvin (c : Char) : Char := if c = kelvinSign then 'k' else c

/-- The entry is a star directly before a text that the domain, being longer, ends with. -/
def AsciiDomainPattern.EndsBare (entry : AsciiDomainPattern) (domain : List Char) : Prop :=
  ∃ suffix front back, entry.chars = '*' :: suffix ∧ suffix.head? ≠ some '.' ∧ front ≠ [] ∧
    domain = front ++ back ∧ back.map Char.toLower = suffix.map Char.toLower

/-- An e-mail that no entry lists, but that some entry lists, or a bare star ends, once its
Kelvin signs are read as `k`. -/
def MisreadEmail (allowlist : List AsciiDomainPattern) (email : String) : Prop :=
  ∃ name domain, email.toList = name ++ '@' :: domain ∧ '@' ∉ domain ∧
    ¬ Listed allowlist domain ∧
      (Listed allowlist (domain.map readKelvin) ∨
        ∃ entry ∈ allowlist, entry.EndsBare (domain.map readKelvin))

/-! ## Labels -/

/-- Only letters change, and only into letters. -/
theorem toLower_eq_iff {c d : Char} (hd : d.toNat < 65) : c.toLower = d ↔ c = d := by
  unfold Char.toLower
  split
  case isTrue h =>
    have hlow : 65 ≤ c.toNat := UInt32.le_iff_toNat_le.mp h.1
    have hhigh : c.toNat ≤ 90 := UInt32.le_iff_toNat_le.mp h.2
    constructor
    · intro heq
      have hval : (c.val + 32).toNat = d.toNat := congrArg Char.toNat heq
      rw [UInt32.toNat_add] at hval
      change (c.toNat + 32) % 2 ^ 32 = d.toNat at hval
      omega
    · rintro rfl
      omega
  case isFalse => exact Iff.rfl

/-- Lower-casing keeps the labels apart. -/
theorem splitOn_map_toLower (text : List Char) :
    (text.map Char.toLower).splitOn '.' = (text.splitOn '.').map (·.map Char.toLower) := by
  induction text with
  | nil => simp
  | cons c rest ih =>
    have hdot : c.toLower = '.' ↔ c = '.' := toLower_eq_iff (by decide)
    simp only [List.map_cons, List.splitOn_cons_eq_if_modifyHead, beq_iff_eq, hdot, ih]
    by_cases hc : c = '.'
    · simp [hc]
    · cases rest.splitOn '.' <;> simp [hc]

/-- Label by label is the whole text at once. -/
theorem sameDomain_iff {a b : List Char} :
    SameDomain a b ↔ a.map Char.toLower = b.map Char.toLower := by
  have hlabels : SameDomain a b ↔ (a.map Char.toLower).splitOn '.' =
      (b.map Char.toLower).splitOn '.' := by
    rw [splitOn_map_toLower, splitOn_map_toLower, ← List.forall₂_eq_eq_eq,
      List.forall₂_map_left_iff, List.forall₂_map_right_iff]
    exact Iff.rfl
  rw [hlabels]
  constructor
  · intro h
    rw [← @List.intercalate_splitOn _ (a.map _) _ _ '.', h, List.intercalate_splitOn]
  · intro h
    rw [h]

/-! ## Lower case -/

variable (tables : UnicodeTables)

/-- An ASCII letter, or the Kelvin sign, has one ASCII character as its lower case. -/
theorem lowerChar_ascii {c : Char} (hc : (readKelvin c).toNat < 128) (before after : List Char) :
    tables.lowerChar before c after = [(readKelvin c).toLower] := by
  by_cases hkelvin : c = kelvinSign
  · subst hkelvin
    rfl
  · have hread : readKelvin c = c := if_neg hkelvin
    rw [hread] at hc ⊢
    exact if_pos hc

/-- The lower case of any other character ends outside ASCII. -/
theorem lowerChar_outside {c : Char} (hc : ¬ (readKelvin c).toNat < 128)
    (before after : List Char) :
    ∃ init last, tables.lowerChar before c after = init ++ [last] ∧ ¬ last.toNat < 128 := by
  by_cases hkelvin : c = kelvinSign
  · subst hkelvin
    exact absurd (by decide) hc
  have hread : readKelvin c = c := if_neg hkelvin
  rw [hread] at hc
  by_cases hdotted : c = dottedCapitalI
  · subst hdotted
    exact ⟨['i'], combiningDot, rfl, by decide⟩
  · have hother : tables.lowerChar before c after = tables.lowerOther before c after := by
      simp [UnicodeTables.lowerChar, hc, hkelvin, hdotted]
    have hne := tables.lowerOther_ne_nil before c after
    refine ⟨_, _, hother.trans (List.dropLast_append_getLast hne).symm, ?_⟩
    have hlast := tables.lowerOther_outside before c after (Nat.le_of_not_lt hc) hkelvin hdotted
      _ (List.getLast_mem hne)
    omega

theorem lowerChar_ne_nil (before after : List Char) (c : Char) :
    tables.lowerChar before c after ≠ [] := by
  by_cases hc : (readKelvin c).toNat < 128
  · simp [lowerChar_ascii tables hc]
  · obtain ⟨init, last, heq, -⟩ := lowerChar_outside tables hc before after
    simp [heq]

theorem lowerBetween_append (before front back after : List Char) :
    tables.lowerBetween before (front ++ back) after =
      tables.lowerBetween before front (back ++ after) ++
        tables.lowerBetween (before ++ front) back after := by
  induction front generalizing before with
  | nil => simp [UnicodeTables.lowerBetween]
  | cons c rest ih => simp [UnicodeTables.lowerBetween, ih]

theorem lowerBetween_eq_nil {before part after : List Char} :
    tables.lowerBetween before part after = [] ↔ part = [] := by
  cases part with
  | nil => simp [UnicodeTables.lowerBetween]
  | cons c rest => simp [UnicodeTables.lowerBetween, lowerChar_ne_nil]

/-- Lower case stays within ASCII, and comes from within it. -/
theorem toLower_ascii {c : Char} : c.toLower.toNat < 128 ↔ c.toNat < 128 := by
  unfold Char.toLower
  split
  case isTrue h =>
    have hhigh : c.toNat ≤ 90 := UInt32.le_iff_toNat_le.mp h.2
    have hval : (c.val + 32).toNat = (c.toNat + 32) % 2 ^ 32 := UInt32.toNat_add _ _
    change (c.val + 32).toNat < 128 ↔ c.toNat < 128
    omega
  case isFalse => exact Iff.rfl

/-- A part without other characters outside ASCII than the Kelvin sign. -/
theorem lowerBetween_ascii {part : List Char} (hpart : ∀ c ∈ part, (readKelvin c).toNat < 128)
    (before after : List Char) :
    tables.lowerBetween before part after = part.map fun c => (readKelvin c).toLower := by
  induction part generalizing before with
  | nil => rfl
  | cons c rest ih =>
    have hrest := ih (fun x hx => hpart x (List.mem_cons_of_mem _ hx)) (before ++ [c])
    simp [UnicodeTables.lowerBetween, lowerChar_ascii tables (hpart c List.mem_cons_self), hrest]

/-- An ASCII text that ends the lower case of a part is the lower case of what ends the
part: by induction on the part from its end, one character of the text for each. -/
theorem suffix_of_lowerBetween {suffix before part after : List Char}
    (hsuffix : ∀ c ∈ suffix, c.toNat < 128)
    (hends : suffix <:+ tables.lowerBetween before part after) :
    ∃ front back, part = front ++ back ∧
      back.map (fun c => (readKelvin c).toLower) = suffix := by
  induction part using List.reverseRecOn generalizing suffix after with
  | nil =>
    have hnil : suffix = [] := List.suffix_nil.mp hends
    exact ⟨[], [], rfl, hnil.symm⟩
  | append_singleton part c ih =>
    rw [lowerBetween_append] at hends
    simp only [UnicodeTables.lowerBetween, List.append_nil, List.nil_append] at hends
    by_cases hc : (readKelvin c).toNat < 128
    · rw [lowerChar_ascii tables hc, List.suffix_concat_iff] at hends
      obtain rfl | ⟨shorter, rfl, hshorter⟩ := hends
      · exact ⟨part ++ [c], [], by simp, rfl⟩
      · obtain ⟨front, back, rfl, hback⟩ :=
          ih (fun x hx => hsuffix x (List.mem_append_left _ hx)) hshorter
        exact ⟨front, back ++ [c], by simp, by simp [hback]⟩
    · obtain ⟨init, last, heq, hlast⟩ := lowerChar_outside tables hc (before ++ part) after
      rw [heq, ← List.append_assoc, List.suffix_concat_iff] at hends
      obtain rfl | ⟨shorter, rfl, -⟩ := hends
      · exact ⟨part ++ [c], [], by simp, rfl⟩
      · exact absurd (hsuffix last (by simp)) hlast

/-- A text whose lower case is within ASCII reads as ASCII. -/
theorem readKelvin_ascii {back suffix : List Char} (hsuffix : ∀ c ∈ suffix, c.toNat < 128)
    (hback : back.map (fun c => (readKelvin c).toLower) = suffix) :
    ∀ c ∈ back, (readKelvin c).toNat < 128 := by
  intro c hc
  apply toLower_ascii.mp
  apply hsuffix
  rw [← hback]
  exact List.mem_map_of_mem hc

theorem utf8Length_append (front back : List Char) :
    utf8Length (front ++ back) = utf8Length front + utf8Length back := by
  simp [utf8Length]

theorem utf8Length_pos {text : List Char} : 0 < utf8Length text ↔ text ≠ [] := by
  cases text with
  | nil => simp [utf8Length]
  | cons c rest =>
    have hc : 0 < c.utf8Size := Char.utf8Size_pos c
    simp only [utf8Length, List.map_cons, List.sum_cons]
    simp only [ne_eq, reduceCtorEq, not_false_eq_true, iff_true]
    omega

/-- The wildcard test: a longer domain that ends like the text after the star. -/
theorem ends_longer_iff {suffix domain : List Char} (hsuffix : ∀ c ∈ suffix, c.toNat < 128) :
    (suffix <:+ tables.toLowercase domain ∧
        utf8Length suffix < utf8Length (tables.toLowercase domain)) ↔
      ∃ front back, front ≠ [] ∧ domain = front ++ back ∧
        back.map (fun c => (readKelvin c).toLower) = suffix := by
  have hlower : ∀ front back, domain = front ++ back →
      back.map (fun c => (readKelvin c).toLower) = suffix →
      tables.toLowercase domain = tables.lowerBetween [] front back ++ suffix := by
    intro front back hdomain hback
    rw [UnicodeTables.toLowercase, hdomain, lowerBetween_append,
      lowerBetween_ascii tables (readKelvin_ascii hsuffix hback), hback, List.append_nil]
  constructor
  · rintro ⟨hends, hlonger⟩
    obtain ⟨front, back, hdomain, hback⟩ := suffix_of_lowerBetween tables hsuffix hends
    refine ⟨front, back, ?_, hdomain, hback⟩
    rintro rfl
    rw [hlower [] back hdomain hback] at hlonger
    simp [UnicodeTables.lowerBetween] at hlonger
  · rintro ⟨front, back, hfront, hdomain, hback⟩
    have hpos : 0 < utf8Length (tables.lowerBetween [] front back) :=
      utf8Length_pos.mpr fun h => hfront ((lowerBetween_eq_nil tables).mp h)
    rw [hlower front back hdomain hback, utf8Length_append]
    exact ⟨List.suffix_append _ _, by omega⟩

/-- The exact test. -/
theorem toLowercase_eq_iff {entry domain : List Char} (hentry : ∀ c ∈ entry, c.toNat < 128) :
    tables.toLowercase domain = entry ↔
      domain.map (fun c => (readKelvin c).toLower) = entry := by
  constructor
  · intro heq
    have hends : entry <:+ tables.lowerBetween [] domain [] := heq ▸ List.suffix_refl _
    obtain ⟨front, back, hdomain, hback⟩ := suffix_of_lowerBetween tables hentry hends
    have hlower := lowerBetween_append tables [] front back []
    rw [← hdomain, lowerBetween_ascii tables (readKelvin_ascii hentry hback), hback] at hlower
    have hfront : tables.lowerBetween [] front back = [] := by
      have hsame := heq.symm.trans hlower
      simpa using hsame
    rw [hdomain, (lowerBetween_eq_nil tables).mp hfront]
    exact hback
  · intro hdomain
    rw [UnicodeTables.toLowercase, lowerBetween_ascii tables (readKelvin_ascii hentry hdomain)]
    exact hdomain

/-! ## One entry -/

theorem AsciiDomainPattern.ascii (entry : AsciiDomainPattern) :
    ∀ c ∈ entry.chars, c.toNat < 128 := by
  intro c hc
  have haccepted := entry.accepted
  simp only [isAllowlistEntry, Bool.and_eq_true, List.all_eq_true, decide_eq_true_eq] at haccepted
  exact haccepted.1.1.2 c hc

theorem lower_ascii {text : List Char} (htext : ∀ c ∈ text, c.toNat < 128) :
    ∀ c ∈ text.map Char.toLower, c.toNat < 128 := by
  intro c hc
  obtain ⟨x, hx, rfl⟩ := List.mem_map.mp hc
  exact toLower_ascii.mpr (htext x hx)

theorem readKelvin_of_ascii {c : Char} (hc : c.toNat < 128) : readKelvin c = c := by
  refine if_neg ?_
  rintro rfl
  exact absurd hc (by decide)

/-- The lower case of an entry is that of its ASCII letters. -/
theorem AsciiDomainPattern.toLowercase_chars (entry : AsciiDomainPattern) :
    tables.toLowercase entry.chars = entry.chars.map Char.toLower := by
  rw [toLowercase_eq_iff tables (lower_ascii entry.ascii)]
  apply List.map_congr_left
  intro c hc
  rw [readKelvin_of_ascii (entry.ascii c hc)]

/-- An entry with a star: a longer domain that ends like the rest of the entry. -/
theorem AsciiDomainPattern.matchesLower_star (entry : AsciiDomainPattern) {suffix : List Char}
    (hchars : entry.chars = '*' :: suffix) (domain : List Char) :
    entry.matchesLower tables (tables.toLowercase domain) = true ↔
      ∃ front back, front ≠ [] ∧ domain.map readKelvin = front ++ back ∧
        back.map Char.toLower = suffix.map Char.toLower := by
  have hstar : Char.toLower '*' = '*' := by decide
  have hsuffix : ∀ c ∈ suffix.map Char.toLower, c.toNat < 128 := by
    apply lower_ascii
    intro c hc
    exact entry.ascii c (hchars ▸ List.mem_cons_of_mem _ hc)
  unfold AsciiDomainPattern.matchesLower
  rw [entry.toLowercase_chars, hchars, List.map_cons, hstar]
  simp only [Bool.and_eq_true, List.isSuffixOf_iff_suffix, decide_eq_true_eq]
  rw [ends_longer_iff tables hsuffix]
  constructor
  · rintro ⟨front, back, hfront, rfl, hback⟩
    refine ⟨front.map readKelvin, back.map readKelvin, by simpa using hfront, by simp, ?_⟩
    rw [List.map_map]
    exact hback
  · rintro ⟨front, back, hfront, hdomain, hback⟩
    obtain ⟨front, back, rfl, rfl, rfl⟩ := List.map_eq_append_iff.mp hdomain
    refine ⟨front, back, by simpa using hfront, rfl, ?_⟩
    rw [List.map_map] at hback
    exact hback

/-- An entry without a star. -/
theorem AsciiDomainPattern.matchesLower_exact (entry : AsciiDomainPattern)
    (hchars : entry.chars.head? ≠ some '*') (domain : List Char) :
    entry.matchesLower tables (tables.toLowercase domain) = true ↔
      SameDomain (domain.map readKelvin) entry.chars := by
  have hlower := entry.toLowercase_chars tables
  have hstar : ∀ suffix, tables.toLowercase entry.chars ≠ '*' :: suffix := by
    intro suffix heq
    rw [hlower, List.map_eq_cons_iff] at heq
    obtain ⟨c, rest, hentry, hc, -⟩ := heq
    have hc : c = '*' := (toLower_eq_iff (by decide)).mp hc
    exact hchars (by rw [hentry, hc]; rfl)
  unfold AsciiDomainPattern.matchesLower
  split
  case h_1 suffix heq => exact absurd heq (hstar suffix)
  case h_2 =>
    rw [beq_iff_eq, hlower, toLowercase_eq_iff tables (lower_ascii entry.ascii), sameDomain_iff,
      List.map_map]
    exact Iff.rfl

/-- Strictly below `base` is longer and ending in a dot and `base`. -/
theorem strictSubdomain_iff {domain base : List Char} :
    StrictSubdomain domain base ↔ ∃ front back, front ≠ [] ∧ domain = front ++ back ∧
      back.map Char.toLower = ('.' :: base).map Char.toLower := by
  have hdot : Char.toLower '.' = '.' := by decide
  constructor
  · rintro ⟨front, back, hfront, hdomain, hsame⟩
    refine ⟨front, '.' :: back, hfront, hdomain, ?_⟩
    rw [List.map_cons, List.map_cons, sameDomain_iff.mp hsame]
  · rintro ⟨front, back, hfront, rfl, hback⟩
    rw [List.map_cons, hdot, List.map_eq_cons_iff] at hback
    obtain ⟨c, rest, rfl, hc, hrest⟩ := hback
    have hc : c = '.' := (toLower_eq_iff (by decide)).mp hc
    exact ⟨front, rest, hfront, by rw [hc], sameDomain_iff.mpr hrest⟩

/-- An entry that does not start with a star and a dot lists itself. -/
theorem AsciiDomainPattern.lists_exact {entry : AsciiDomainPattern}
    (hchars : ∀ base, entry.chars ≠ '*' :: '.' :: base) (domain : List Char) :
    entry.Lists domain ↔ SameDomain domain entry.chars := by
  unfold AsciiDomainPattern.Lists
  split
  case h_1 base heq => exact absurd heq (hchars base)
  case h_2 => exact Iff.rfl

/-- What is admitted once the Kelvin sign is read as a `k`: what the entry lists, and what a
bare star ends. -/
theorem AsciiDomainPattern.matchesLower_iff (entry : AsciiDomainPattern) (domain : List Char) :
    entry.matchesLower tables (tables.toLowercase domain) = true ↔
      entry.Lists (domain.map readKelvin) ∨ entry.EndsBare (domain.map readKelvin) := by
  by_cases hstar : entry.chars.head? = some '*'
  · obtain ⟨suffix, hchars⟩ := List.head?_eq_some_iff.mp hstar
    rw [entry.matchesLower_star tables hchars]
    by_cases hdot : suffix.head? = some '.'
    · obtain ⟨base, rfl⟩ := List.head?_eq_some_iff.mp hdot
      have hlists : entry.Lists (domain.map readKelvin) ↔
          StrictSubdomain (domain.map readKelvin) base := by
        simp only [AsciiDomainPattern.Lists, hchars]
      have hbare : ¬ entry.EndsBare (domain.map readKelvin) := by
        rintro ⟨suffix, front, back, heq, hne, -⟩
        have hsuffix : '.' :: base = suffix := (List.cons.inj (hchars.symm.trans heq)).2
        exact hne (by rw [← hsuffix]; rfl)
      rw [hlists, strictSubdomain_iff, or_iff_left hbare]
    · have hexact : ∀ base, entry.chars ≠ '*' :: '.' :: base := by
        intro base heq
        have hsuffix : suffix = '.' :: base := (List.cons.inj (hchars.symm.trans heq)).2
        exact hdot (by rw [hsuffix]; rfl)
      rw [lists_exact hexact]
      constructor
      · rintro ⟨front, back, hfront, hdomain, hback⟩
        exact Or.inr ⟨suffix, front, back, hchars, hdot, hfront, hdomain, hback⟩
      · rintro (hsame | ⟨suffix', front, back, heq, -, hfront, hdomain, hback⟩)
        · -- the entry itself ends with what follows its star
          rw [sameDomain_iff, hchars, List.map_cons, List.map_eq_cons_iff] at hsame
          obtain ⟨c, rest, hdomain, -, hrest⟩ := hsame
          exact ⟨[c], rest, by simp, hdomain, hrest⟩
        · have hsuffix : suffix = suffix' := (List.cons.inj (hchars.symm.trans heq)).2
          exact ⟨front, back, hfront, hdomain, hsuffix ▸ hback⟩
  · have hexact : ∀ base, entry.chars ≠ '*' :: '.' :: base := by
      intro base heq
      exact hstar (by rw [heq]; rfl)
    have hbare : ¬ entry.EndsBare (domain.map readKelvin) := by
      rintro ⟨suffix, front, back, heq, -⟩
      exact hstar (by rw [heq]; rfl)
    rw [entry.matchesLower_exact tables hstar, lists_exact hexact, or_iff_left hbare]

/-- A listed domain is listed as well once its Kelvin signs are read as `k`: the part that is
compared is ASCII. -/
theorem AsciiDomainPattern.lists_readKelvin {entry : AsciiDomainPattern} {domain : List Char}
    (hlists : entry.Lists domain) : entry.Lists (domain.map readKelvin) := by
  have hsame : ∀ {a b : List Char}, (∀ c ∈ b, c.toNat < 128) → SameDomain a b →
      SameDomain (a.map readKelvin) b := by
    intro a b hb hab
    have hread : a.map readKelvin = a.map id := by
      apply List.map_congr_left
      intro c hc
      apply readKelvin_of_ascii
      apply toLower_ascii.mp
      apply lower_ascii hb
      rw [← sameDomain_iff.mp hab]
      exact List.mem_map_of_mem hc
    rw [hread, List.map_id]
    exact hab
  by_cases hexact : ∀ base, entry.chars ≠ '*' :: '.' :: base
  · rw [lists_exact hexact] at hlists ⊢
    exact hsame entry.ascii hlists
  · obtain ⟨base, hchars⟩ : ∃ base, entry.chars = '*' :: '.' :: base := by simpa using hexact
    have hbase : ∀ c ∈ base, c.toNat < 128 := by
      intro c hc
      apply entry.ascii
      rw [hchars]
      exact List.mem_cons_of_mem _ (List.mem_cons_of_mem _ hc)
    simp only [AsciiDomainPattern.Lists, hchars] at hlists ⊢
    obtain ⟨front, back, hfront, rfl, hback⟩ := hlists
    have hdot : readKelvin '.' = '.' := by decide
    refine ⟨front.map readKelvin, back.map readKelvin, by simpa using hfront, ?_,
      hsame hbase hback⟩
    rw [List.map_append, List.map_cons, hdot]

/-! ## The last `@` -/

theorem rsplitOnce_eq_none {separator : Char} {text : List Char} (h : separator ∉ text) :
    rsplitOnce separator text = none := by
  induction text with
  | nil => rfl
  | cons c rest ih =>
    simp only [List.mem_cons, not_or] at h
    simp [rsplitOnce, ih h.2, Ne.symm h.1]

/-- What `rsplit_once` finds. -/
theorem rsplitOnce_append {separator : Char} (before : List Char) {after : List Char}
    (h : separator ∉ after) :
    rsplitOnce separator (before ++ separator :: after) = some (before, after) := by
  induction before with
  | nil => simp [rsplitOnce, rsplitOnce_eq_none h]
  | cons c rest ih => simp [rsplitOnce, ih]

/-- A text has a last separator or none. -/
theorem exists_last {separator : Char} {text : List Char} (h : separator ∈ text) :
    ∃ before after, text = before ++ separator :: after ∧ separator ∉ after := by
  induction text with
  | nil => exact absurd h (List.not_mem_nil)
  | cons c rest ih =>
    by_cases hrest : separator ∈ rest
    · obtain ⟨before, after, rfl, hafter⟩ := ih hrest
      exact ⟨c :: before, after, rfl, hafter⟩
    · obtain rfl | hmem := List.mem_cons.mp h
      · exact ⟨[], rest, rfl, hrest⟩
      · exact absurd hmem hrest

/-- The part after the last `@` is one. -/
theorem domain_unique {text name domain name' domain' : List Char} {separator : Char}
    (heq : text = name ++ separator :: domain) (hdomain : separator ∉ domain)
    (heq' : text = name' ++ separator :: domain') (hdomain' : separator ∉ domain') :
    domain = domain' := by
  have hfirst := rsplitOnce_append name hdomain
  rw [← heq, heq', rsplitOnce_append name' hdomain'] at hfirst
  exact (Prod.mk.inj (Option.some.inj hfirst)).2.symm

/-- What the matcher answers for an e-mail. -/
theorem matchesDomainAllowlist_iff (allowlist : List AsciiDomainPattern) (email : String) :
    matchesDomainAllowlist tables allowlist email = true ↔
      ∃ name domain, email.toList = name ++ '@' :: domain ∧ '@' ∉ domain ∧
        (Listed allowlist (domain.map readKelvin) ∨
          ∃ entry ∈ allowlist, entry.EndsBare (domain.map readKelvin)) := by
  unfold matchesDomainAllowlist
  by_cases hat : '@' ∈ email.toList
  · obtain ⟨name, domain, hemail, hdomain⟩ := exists_last hat
    have hany : allowlist.any (·.matchesLower tables (tables.toLowercase domain)) = true ↔
        Listed allowlist (domain.map readKelvin) ∨
          ∃ entry ∈ allowlist, entry.EndsBare (domain.map readKelvin) := by
      simp only [List.any_eq_true, AsciiDomainPattern.matchesLower_iff, Listed, and_or_left,
        exists_or]
    rw [hemail, rsplitOnce_append name hdomain]
    constructor
    · intro hmatches
      exact ⟨name, domain, rfl, hdomain, hany.mp hmatches⟩
    · rintro ⟨name', domain', heq, hdomain', hadmitted⟩
      obtain rfl := domain_unique rfl hdomain heq hdomain'
      exact hany.mpr hadmitted
  · rw [rsplitOnce_eq_none hat]
    refine iff_of_false (by simp) ?_
    rintro ⟨name, domain, heq, -⟩
    exact hat (by simp [heq])

/-- The domain check of the registration policy admits exactly the listed domains, but for
e-mails that are misread. -/
theorem domain_check_sound (allowlist : List AsciiDomainPattern) (email : String) :
    (registrationPolicyReason (some email) (some true)
        (some (matchesDomainAllowlist tables allowlist)) = none ↔ ListedEmail allowlist email) ↔
      ¬ MisreadEmail allowlist email := by
  have hpasses : registrationPolicyReason (some email) (some true)
      (some (matchesDomainAllowlist tables allowlist)) = none ↔
        matchesDomainAllowlist tables allowlist email = true := by
    simp [registrationPolicyReason]
  rw [hpasses, matchesDomainAllowlist_iff]
  constructor
  · rintro hsound ⟨name, domain, heq, hdomain, hunlisted, hadmitted⟩
    obtain ⟨name', domain', heq', hdomain', hlisted⟩ :=
      hsound.mp ⟨name, domain, heq, hdomain, hadmitted⟩
    obtain rfl := domain_unique heq hdomain heq' hdomain'
    exact hunlisted hlisted
  · intro hread
    constructor
    · rintro ⟨name, domain, heq, hdomain, hadmitted⟩
      by_contra hunlisted
      refine hread ⟨name, domain, heq, hdomain, ?_, hadmitted⟩
      exact fun hlisted => hunlisted ⟨name, domain, heq, hdomain, hlisted⟩
    · rintro ⟨name, domain, heq, hdomain, entry, hmem, hlists⟩
      exact ⟨name, domain, heq, hdomain, Or.inl ⟨entry, hmem, AsciiDomainPattern.lists_readKelvin hlists⟩⟩

/-! ## A bare star -/

/-- Tables for texts of ASCII and the two letters that map into it. -/
def plainTables : UnicodeTables where
  lowerOther _ c _ := [c]
  lowerOther_ne_nil _ _ _ := List.cons_ne_nil _ _
  lowerOther_outside := by
    intro before c after hc _ _ x hx
    rw [List.mem_singleton.mp hx]
    exact hc
  debug text := "\"" ++ text ++ "\""

/-- A star directly before a domain. -/
def bareStar : AsciiDomainPattern where
  chars := "*example.com".toList
  trimmed := by decide
  accepted := by decide

/-- The parser accepts a star without a dot, and the matcher then admits a foreign domain. -/
theorem domain_check_bare_star :
    AsciiDomainPattern.parseField plainTables "registration.domain_allowlist" "*example.com" =
        .ok bareStar ∧
      ¬ (registrationPolicyReason (some "eve@evilexample.com") (some true)
            (some (matchesDomainAllowlist plainTables [bareStar])) = none ↔
          ListedEmail [bareStar] "eve@evilexample.com") := by
  refine ⟨rfl, ?_⟩
  intro hsound
  obtain ⟨name, domain, heq, hdomain, entry, hmem, hlists⟩ := hsound.mp (by decide)
  have hemail : "eve@evilexample.com".toList = "eve".toList ++ '@' :: "evilexample.com".toList := by
    decide
  have hforeign := domain_unique hemail (by decide) heq hdomain
  obtain rfl := List.mem_singleton.mp hmem
  have hsame : SameDomain domain bareStar.chars := hlists
  rw [sameDomain_iff, ← hforeign] at hsame
  exact absurd hsame (by decide)

end OidcExchange
