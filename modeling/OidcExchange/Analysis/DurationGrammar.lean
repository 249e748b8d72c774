import OidcExchange.Analysis.DomainAllowlist
import OidcExchange.Program.Durations

/-!
# Which texts are durations

A text is a duration exactly if what is left without the white space around it is a number, with
or without a plus sign before it, and one of four units, and the seconds fit into 64 bits. Every
other text is a configuration error.
-/

set_option autoImplicit false

namespace OidcExchange

open Texts

/-- The seconds of a unit. -/
def unitSeconds : Char → Option ℕ
  | 's' => some 1
  | 'm' => some 60
  | 'h' => some 3600
  | 'd' => some 86400
  | _ => none

/-- Digits and a unit. -/
def PlainDuration (text : List Char) (n : ℕ) : Prop :=
  ∃ digits unit seconds, text = digits ++ [unit] ∧ digits ≠ [] ∧
    (∀ c ∈ digits, c.isDigit = true) ∧ unitSeconds unit = some seconds ∧
      n = Nat.ofDigitChars 10 digits 0 * seconds

/-- Digits and a unit, or a plus sign before them. -/
def DurationText (text : List Char) (n : ℕ) : Prop :=
  PlainDuration text n ∨ ∃ rest, text = '+' :: rest ∧ PlainDuration rest n

/-! ## Units -/

theorem toNat_of_lt {n : ℕ} (h : n < 2 ^ 64) : (UInt64.ofNat n).toNat = n :=
  UInt64.toNat_ofNat_of_lt h

/-- A product is checked: it is the product of the numbers, or there is none. -/
theorem checkedMul_eq_some {a b x : UInt64} :
    checkedMul a b = some x ↔ x.toNat = a.toNat * b.toNat := by
  rw [checkedMul]
  by_cases hfits : a.toNat * b.toNat < 2 ^ 64
  · have hmul : (a * b).toNat = a.toNat * b.toNat := by
      rw [UInt64.toNat_mul, Nat.mod_eq_of_lt hfits]
    rw [if_pos hfits, Option.some_inj, ← hmul, eq_comm, UInt64.toNat_inj]
  · rw [if_neg hfits]
    refine ⟨nofun, fun h => absurd (x.toNat_lt) ?_⟩
    rwa [h]

variable {shown : String} {value secs : UInt64}

theorem scaleBy_of_unknown {unit : Char} (hs : unit ≠ 's') (hm : unit ≠ 'm') (hh : unit ≠ 'h')
    (hd : unit ≠ 'd') :
    Sliced.scaleBy shown value [unit] = .error (.error (.configError
      ("unknown duration suffix in " ++ shown ++ ": " ++ String.ofList [unit]))) := by
  rw [Sliced.scaleBy]
  · exact fun h => hs (List.head_eq_of_cons_eq h)
  · exact fun h => hm (List.head_eq_of_cons_eq h)
  · exact fun h => hh (List.head_eq_of_cons_eq h)
  · exact fun h => hd (List.head_eq_of_cons_eq h)

/-- A number is scaled by the seconds of a unit, if it is one. -/
theorem scaleBy_eq (unit : Char) :
    Sliced.scaleBy shown value [unit] = (unitSeconds unit).elim
      (.error (.error (.configError
        ("unknown duration suffix in " ++ shown ++ ": " ++ String.ofList [unit]))))
      fun seconds => Sliced.fitting shown (checkedMul value (UInt64.ofNat seconds)) := by
  unfold unitSeconds
  split
  · have hone : checkedMul value 1 = some value :=
      checkedMul_eq_some.mpr (Nat.mul_one _).symm
    exact (congrArg (Sliced.fitting shown) hone).symm
  · have hseconds : UInt64.ofNat 60 = 60 := rfl
    rw [Option.elim_some, hseconds, Sliced.scaleBy]
  · have hseconds : UInt64.ofNat 3600 = 3600 := rfl
    rw [Option.elim_some, hseconds, Sliced.scaleBy]
  · have hseconds : UInt64.ofNat 86400 = 86400 := rfl
    rw [Option.elim_some, hseconds, Sliced.scaleBy]
  · rename_i hs hm hh hd
    exact scaleBy_of_unknown hs hm hh hd

theorem unitSeconds_lt {unit : Char} {seconds : ℕ} (h : unitSeconds unit = some seconds) :
    seconds < 2 ^ 64 := by
  unfold unitSeconds at h
  split at h <;> cases h <;> decide

theorem unitSeconds_pos {unit : Char} {seconds : ℕ} (h : unitSeconds unit = some seconds) :
    0 < seconds := by
  unfold unitSeconds at h
  split at h <;> cases h <;> decide

/-- A number is scaled by a unit, exactly if the seconds fit. -/
theorem scaleBy_ok_iff {unit : Char} :
    Sliced.scaleBy shown value [unit] = .ok secs ↔
      ∃ seconds, unitSeconds unit = some seconds ∧ secs.toNat = value.toNat * seconds := by
  rw [scaleBy_eq]
  cases hunit : unitSeconds unit with
  | none => exact ⟨nofun, fun ⟨_, h, _⟩ => nomatch h⟩
  | some seconds =>
    have hscaled : checkedMul value (UInt64.ofNat seconds) = some secs ↔
        secs.toNat = value.toNat * seconds := by
      rw [checkedMul_eq_some, toNat_of_lt (unitSeconds_lt hunit)]
    rw [Option.elim_some]
    constructor
    · intro h
      refine ⟨seconds, rfl, hscaled.mp ?_⟩
      cases hmul : checkedMul value (UInt64.ofNat seconds) with
      | none =>
        rw [hmul] at h
        cases h
      | some x =>
        rw [hmul] at h
        exact congrArg some (Except.ok.inj h)
    · rintro ⟨_, hsame, hsecs⟩
      cases hsame
      rw [hscaled.mpr hsecs]
      rfl

/-- Where a number is not scaled the configuration is refused. -/
theorem scaleBy_ok_or_refused (shown : String) (value : UInt64) (unit : Char) :
    (∃ secs, Sliced.scaleBy shown value [unit] = .ok secs) ∨
      ∃ detail, Sliced.scaleBy shown value [unit] = .error (.error (.configError detail)) := by
  rw [scaleBy_eq]
  cases unitSeconds unit with
  | none => exact Or.inr ⟨_, rfl⟩
  | some seconds =>
    rw [Option.elim_some]
    cases checkedMul value (UInt64.ofNat seconds) with
    | none => exact Or.inr ⟨_, rfl⟩
    | some secs => exact Or.inl ⟨secs, rfl⟩

/-! ## Texts -/

/-- A number with one character after it is read, exactly if it is a duration. -/
theorem readDuration_ok_iff (num : List Char) (unit : Char) :
    Sliced.readDuration shown num [unit] = .ok secs ↔
      DurationText (num ++ [unit]) secs.toNat := by
  have hread : Sliced.readDuration shown num [unit] = .ok secs ↔ ∃ n,
      parseBounded (2 ^ 64) num = .ok n ∧
        Sliced.scaleBy shown (UInt64.ofNat n) [unit] = .ok secs := by
    rw [Sliced.readDuration]
    cases parseBounded (2 ^ 64) num with
    | error e => exact ⟨nofun, fun ⟨_, h, _⟩ => nomatch h⟩
    | ok n => exact ⟨fun h => ⟨n, rfl, h⟩, fun ⟨_, hn, h⟩ => by cases hn; exact h⟩
  rw [hread]
  constructor
  · rintro ⟨n, hn, hscale⟩
    obtain ⟨digits, hnum, hne, hdigits, rfl, hbound⟩ :=
      (parseBounded_ok_iff (Nat.two_pow_pos 64) num).mp hn
    obtain ⟨seconds, hunit, hsecs⟩ := scaleBy_ok_iff.mp hscale
    rw [toNat_of_lt hbound] at hsecs
    have hplain : PlainDuration (digits ++ [unit]) secs.toNat :=
      ⟨digits, unit, seconds, rfl, hne, hdigits, hunit, hsecs⟩
    obtain rfl | rfl := hnum
    · exact Or.inl hplain
    · exact Or.inr ⟨_, List.cons_append, hplain⟩
  · intro h
    have hdigits : ∃ digits seconds, (num = digits ∨ num = '+' :: digits) ∧ digits ≠ [] ∧
        (∀ c ∈ digits, c.isDigit = true) ∧ unitSeconds unit = some seconds ∧
          secs.toNat = Nat.ofDigitChars 10 digits 0 * seconds := by
      obtain ⟨digits, unit', seconds, htext, hrest⟩ | ⟨rest, hplus, digits, unit', seconds, rfl,
        hrest⟩ := h
      · obtain ⟨rfl, hunit⟩ := List.append_inj' htext rfl
        cases hunit
        exact ⟨num, seconds, Or.inl rfl, hrest⟩
      · rw [← List.cons_append] at hplus
        obtain ⟨rfl, hunit⟩ := List.append_inj' hplus rfl
        cases hunit
        exact ⟨digits, seconds, Or.inr rfl, hrest⟩
    obtain ⟨digits, seconds, hnum, hne, hdigits, hunit, hsecs⟩ := hdigits
    -- A unit has at least one second, so the number is no greater than its seconds.
    have hbound : Nat.ofDigitChars 10 digits 0 < 2 ^ 64 := by
      apply Nat.lt_of_le_of_lt _ secs.toNat_lt
      rw [hsecs]
      exact Nat.le_mul_of_pos_right _ (unitSeconds_pos hunit)
    refine ⟨Nat.ofDigitChars 10 digits 0, ?_, ?_⟩
    · exact (parseBounded_ok_iff (Nat.two_pow_pos 64) num).mpr
        ⟨digits, hnum, hne, hdigits, rfl, hbound⟩
    · apply scaleBy_ok_iff.mpr
      rw [toNat_of_lt hbound]
      exact ⟨seconds, hunit, hsecs⟩

theorem readDuration_ok_or_refused (shown : String) (num : List Char) (unit : Char) :
    (∃ secs, Sliced.readDuration shown num [unit] = .ok secs) ∨
      ∃ detail, Sliced.readDuration shown num [unit] = .error (.error (.configError detail)) := by
  rw [Sliced.readDuration]
  cases parseBounded (2 ^ 64) num with
  | error e => exact Or.inr ⟨_, rfl⟩
  | ok n => exact scaleBy_ok_or_refused shown (UInt64.ofNat n) unit

variable {tables : UnicodeTables} {s : String}

/-- No split of a text is a fault: it is before the last character. -/
theorem parseDurationSecs_of_concat {front : List Char} {c : Char}
    (h : trimChars s.toList = front ++ [c]) :
    Sliced.parseDurationSecs tables s =
      Sliced.readDuration (tables.debug (String.ofList (front ++ [c]))) front [c] := by
  have hlength : (utf8 (front ++ [c])).length = (utf8 front).length + (utf8 [c]).length := by
    rw [utf8_append, List.length_append]
  have hpos := length_utf8EncodeChar_pos c
  have hne : (utf8 (front ++ [c])).isEmpty = false := by
    apply List.isEmpty_eq_false_iff.mpr
    apply List.ne_nil_of_length_pos
    rw [hlength, length_utf8_cons]
    omega
  have hsub : subUsize (utf8 (front ++ [c])).length (utf8 [c]).length =
      (.ok (utf8 front).length : Except (Fault Error) ℕ) := by
    rw [subUsize, hlength, if_pos (Nat.le_add_left _ _), Nat.add_sub_cancel]
  rw [Sliced.parseDurationSecs, h]
  simp only [hne, Bool.false_eq_true, if_false, Lossy.decode_utf8, List.getLast?_concat,
    expectSome, bind, Except.bind, hsub, sliceTo_utf8, sliceFrom_utf8, assertThat]
  rw [hlength, if_pos (beq_self_eq_true _)]
  rfl

theorem parseDurationSecs_of_blank (h : trimChars s.toList = []) :
    Sliced.parseDurationSecs tables s = .error (.error (.configError "empty duration string")) := by
  rw [Sliced.parseDurationSecs, h]
  rfl

/-! ## The parser of whole characters -/

theorem parseDigits_eq {digits : List Char} (hne : digits ≠ []) :
    parseDigits digits = (parseRest (2 ^ 64) 0 digits).toOption.map UInt64.ofNat := by
  have hempty : digits.isEmpty = false := List.isEmpty_eq_false_iff.mpr hne
  have hpos : 0 < 2 ^ 64 := Nat.two_pow_pos 64
  rw [parseDigits, hempty, Bool.false_or]
  cases hread : parseRest (2 ^ 64) 0 digits with
  | ok n =>
    obtain ⟨hdigits, hvalue, hn⟩ := (parseRest_ok_iff hpos digits).mp hread
    rw [List.all_eq_true.mpr hdigits]
    have hfold : digits.foldl (fun n c => 10 * n + (c.toNat - '0'.toNat)) 0 = n := hvalue
    simp only [Bool.not_true, Bool.false_eq_true, if_false, hfold, if_pos hn]
    rfl
  | error e =>
    change _ = none
    split
    · rfl
    · rename_i hall
      refine if_neg fun hbound => ?_
      have hdigits : ∀ c ∈ digits, c.isDigit = true := by simpa using hall
      have hok := (parseRest_ok_iff hpos digits).mpr ⟨hdigits, rfl, hbound⟩
      rw [hread] at hok
      cases hok

theorem parseU64_eq (num : List Char) :
    parseU64 num = (parseBounded (2 ^ 64) num).toOption.map UInt64.ofNat := by
  match num with
  | [] => rfl
  | c :: rest =>
    by_cases hc : c = '+'
    · subst hc
      cases rest with
      | nil => rfl
      | cons d rest => exact parseDigits_eq (List.cons_ne_nil d rest)
    · have hnum : parseU64 (c :: rest) = parseDigits (c :: rest) := by
        rw [parseU64]
        exact fun _ h => hc (List.head_eq_of_cons_eq h)
      rw [hnum, parseBounded_of_ne_plus hc, parseDigits_eq (List.cons_ne_nil c rest)]

theorem fitting_eq (shown : String) (x : Option UInt64) :
    Sliced.fitting shown x = (match x with
      | some secs => .ok secs
      | none => refuseConfig ("duration value overflows seconds when parsing " ++ shown) :
        Except Error UInt64).mapError Fault.error := by
  cases x with
  | none => rfl
  | some secs => rfl

/-- The split of the bytes reads what the last character and the characters before it read. -/
theorem sliced_parseDurationSecs (tables : UnicodeTables) (s : String) :
    Sliced.parseDurationSecs tables s = (parseDurationSecs tables s).mapError Fault.error := by
  obtain hblank | ⟨front, unit, htext⟩ := List.eq_nil_or_concat (trimChars s.toList)
  · rw [parseDurationSecs_of_blank hblank, parseDurationSecs, hblank]
    rfl
  · rw [List.concat_eq_append] at htext
    rw [parseDurationSecs_of_concat htext, parseDurationSecs, htext, Sliced.readDuration]
    simp only [List.getLast?_concat, List.dropLast_concat, parseU64_eq]
    cases parseBounded (2 ^ 64) front with
    | error e => rfl
    | ok n =>
      simp only [Except.toOption, Option.map_some]
      split
      · rfl
      · rw [Sliced.scaleBy]
        exact fitting_eq _ _
      · rw [Sliced.scaleBy]
        exact fitting_eq _ _
      · rw [Sliced.scaleBy]
        exact fitting_eq _ _
      · rename_i hs hm hh hd
        rw [scaleBy_of_unknown hs hm hh hd, ← String.singleton_eq_ofList]
        rfl

/-! ## Durations -/

theorem not_durationText_nil (n : ℕ) : ¬DurationText [] n := by
  rintro (⟨digits, unit, -, htext, -⟩ | ⟨rest, htext, -⟩)
  · exact absurd htext.symm (List.append_ne_nil_of_right_ne_nil digits (List.cons_ne_nil unit []))
  · cases htext

/-- A text without the white space around it is read as a number of seconds exactly if it is that
duration, and every other text is refused as a configuration. -/
theorem duration_grammar_exact (tables : UnicodeTables) (s : String) :
    (∀ secs, Sliced.parseDurationSecs tables s = .ok secs ↔
      DurationText (trimChars s.toList) secs.toNat) ∧
    ((∃ secs, Sliced.parseDurationSecs tables s = .ok secs) ∨
      ∃ detail, Sliced.parseDurationSecs tables s = .error (.error (.configError detail))) := by
  obtain hblank | ⟨front, unit, htext⟩ := List.eq_nil_or_concat (trimChars s.toList)
  · rw [parseDurationSecs_of_blank hblank, hblank]
    exact ⟨fun secs => ⟨nofun, fun h => absurd h (not_durationText_nil _)⟩, Or.inr ⟨_, rfl⟩⟩
  · rw [List.concat_eq_append] at htext
    rw [parseDurationSecs_of_concat htext, htext]
    exact ⟨fun secs => readDuration_ok_iff front unit, readDuration_ok_or_refused _ front unit⟩

/-- A plus sign before the digits is not refused. -/
theorem signed_duration_read :
    Sliced.parseDurationSecs plainTables "+5s" = .ok 5 ∧
      ∀ n, ¬PlainDuration (trimChars "+5s".toList) n := by
  refine ⟨by decide, ?_⟩
  rintro n ⟨digits, unit, -, htext, -, hdigits, -⟩
  have hplus : '+' ∈ digits := by
    have htrim : trimChars "+5s".toList = ['+', '5'] ++ ['s'] := by decide
    rw [htrim] at htext
    rw [← (List.append_inj' htext rfl).1]
    exact List.mem_cons_self
  exact absurd (hdigits '+' hplus) (by decide)

end OidcExchange
