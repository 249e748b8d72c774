import OidcExchange.Adapters.TimestampFields
import OidcExchange.Texts.Decimal

/-!
# Reading the fields of a timestamp

A reader of the texts that the fields of an instant are written as, digit by digit. A year outside
four digits has a sign.
-/

set_option autoImplicit false

namespace OidcExchange

open Texts

namespace UtcFields

/-! ## Parts -/

/-- A number of at least one digit, and what follows it. -/
def number (cs : List Char) : Option (ℕ × List Char) :=
  if cs.takeWhile Char.isDigit = [] then none
  else some (Nat.ofDigitChars 10 (cs.takeWhile Char.isDigit) 0, cs.dropWhile Char.isDigit)

/-- What follows a separator. -/
def after (c : Char) : List Char → Option (List Char)
  | [] => none
  | d :: cs => if d = c then some cs else none

/-- A year, which may have a sign. -/
def readYear (cs : List Char) : Option (ℤ × List Char) :=
  match cs with
  | '-' :: cs => (number cs).map fun r => (-(r.1 : ℤ), r.2)
  | '+' :: cs => (number cs).map fun r => ((r.1 : ℤ), r.2)
  | cs => (number cs).map fun r => ((r.1 : ℤ), r.2)

/-- The digits of a fraction, at most nine, in nanoseconds. -/
def readFraction (cs : List Char) : Option (ℕ × List Char) :=
  match cs with
  | '.' :: cs => (number cs).map fun r =>
      (r.1 * 10 ^ (9 - (cs.takeWhile Char.isDigit).length), r.2)
  | cs => some (0, cs)

/-- The fields of a text. -/
def read (cs : List Char) : Option UtcFields := do
  let (year, cs) ← readYear cs
  let (month, cs) ← number (← after '-' cs)
  let (day, cs) ← number (← after '-' cs)
  let (hour, cs) ← number (← after 'T' cs)
  let (minute, cs) ← number (← after ':' cs)
  let (second, cs) ← number (← after ':' cs)
  let (nanos, cs) ← readFraction cs
  if cs = utcOffset then
    some ⟨year, month, day, hour, minute, second, nanos⟩
  else none

example : (read "2024-02-29T12:34:56.123456+00:00".toList).map instant =
    some 1709210096123456000 := by decide +kernel

/-! ## What is written is read -/

variable {width n : ℕ} {rest : List Char}

theorem isDigit_of_mem_pad {c : Char} (h : c ∈ pad width n) : c.isDigit = true := by
  have hdigit : ∀ r < 10, (Nat.digitChar r).isDigit = true := by decide
  induction width generalizing n with
  | zero => exact absurd h List.not_mem_nil
  | succ width ih =>
    rw [pad, List.mem_append, List.mem_singleton] at h
    obtain h | rfl := h
    · exact ih h
    · exact hdigit _ (Nat.mod_lt _ (by omega))

/-- Digits with leading zeros are the number they write. -/
theorem ofDigitChars_pad (h : n < 10 ^ width) : Nat.ofDigitChars 10 (pad width n) 0 = n := by
  have hdigit : ∀ r < 10, (Nat.digitChar r).toNat - '0'.toNat = r := by decide
  induction width generalizing n with
  | zero =>
    have hzero : n = 0 := by omega
    rw [hzero]
    rfl
  | succ width ih =>
    have hfront := ih (n := n / 10) (by rw [Nat.pow_succ] at h; omega)
    rw [pad, Nat.ofDigitChars_append, hfront, Nat.ofDigitChars_cons, Nat.ofDigitChars_nil,
      hdigit _ (Nat.mod_lt _ (by omega))]
    omega

/-- No digit comes next. -/
def Stops (rest : List Char) : Prop := ∀ c ∈ rest.head?, c.isDigit = false

theorem takeWhile_pad (hstops : Stops rest) :
    (pad width n ++ rest).takeWhile Char.isDigit = pad width n := by
  rw [List.takeWhile_append_of_pos fun c hc => isDigit_of_mem_pad hc]
  cases rest with
  | nil => simp
  | cons c rest =>
    have hc := hstops c rfl
    simp [hc]

theorem dropWhile_pad (hstops : Stops rest) :
    (pad width n ++ rest).dropWhile Char.isDigit = rest := by
  rw [List.dropWhile_append_of_pos fun c hc => isDigit_of_mem_pad hc]
  cases rest with
  | nil => rfl
  | cons c rest =>
    have hc := hstops c rfl
    simp [hc]

theorem number_pad (h : n < 10 ^ (width + 1)) (hstops : Stops rest) :
    number (pad (width + 1) n ++ rest) = some (n, rest) := by
  have hne : pad (width + 1) n ≠ [] := List.ne_nil_of_length_pos (by simp)
  rw [number, takeWhile_pad hstops, dropWhile_pad hstops, if_neg hne, ofDigitChars_pad h]

end UtcFields
namespace UtcFields

/-- Every number of the fields has room in its digits. -/
structure Fits (f : UtcFields) : Prop where
  month : f.month < 100
  day : f.day < 100
  hour : f.hour < 100
  minute : f.minute < 100
  second : f.second < 100
  nanos : f.nanos < 1000000000

theorem stops_cons {c : Char} (h : c.isDigit = false) (rest : List Char) : Stops (c :: rest) := by
  intro d hd
  obtain rfl := Option.some.inj hd
  exact h

theorem stops_utcOffset : Stops utcOffset := stops_cons (by decide) _

theorem after_cons (c : Char) (cs : List Char) : after c (c :: cs) = some cs := if_pos rfl

/-- A year is read, whatever its sign and number of digits. -/
theorem readYear_yearText (year : ℤ) {rest : List Char} (hstops : Stops rest) :
    readYear (yearText year ++ rest) = some (year, rest) := by
  have hplain : ∀ (width : ℕ) {n : ℕ}, n < 10 ^ (width + 1) →
      readYear (pad (width + 1) n ++ rest) = some ((n : ℤ), rest) := by
    intro width n hn
    have hread := number_pad hn hstops
    have hhead : ∀ c ∈ (pad (width + 1) n ++ rest).head?, c.isDigit = true := by
      intro c hc
      rw [List.head?_append_of_ne_nil _ (List.ne_nil_of_length_pos (by simp))] at hc
      exact isDigit_of_mem_pad (List.mem_of_mem_head? hc)
    unfold readYear
    split
    · rename_i heq
      exact absurd (hhead '-' (by rw [heq]; rfl)) (by decide)
    · rename_i heq
      exact absurd (hhead '+' (by rw [heq]; rfl)) (by decide)
    · rw [hread]
      rfl
  unfold yearText
  split
  · rename_i h
    rw [hplain 3 (by omega), Int.toNat_of_nonneg h.1]
  · rename_i h
    obtain ⟨width, hwidth⟩ : ∃ width, max 4 (Nat.toDigits 10 year.natAbs).length = width + 1 :=
      ⟨max 4 (Nat.toDigits 10 year.natAbs).length - 1, by omega⟩
    have hroom : year.natAbs < 10 ^ (width + 1) := by
      have hdigits : year.natAbs < 10 ^ (Nat.toDigits 10 year.natAbs).length :=
        (Nat.length_toDigits_le_iff (by decide) Nat.length_toDigits_pos).mp (Nat.le_refl _)
      exact hdigits.trans_le (Nat.pow_le_pow_right (by decide) (by omega))
    have hread := number_pad hroom hstops
    rw [hwidth, List.cons_append]
    by_cases hneg : year < 0
    · simp only [if_pos hneg, readYear, hread, Option.map_some]
      congr 2
      omega
    · simp only [if_neg hneg, readYear, hread, Option.map_some]
      congr 2
      omega

/-- A fraction is read, whatever the number of its digits. -/
theorem readFraction_fractionText {nanos : ℕ} (h : nanos < 1000000000) :
    readFraction (fractionText nanos ++ utcOffset) = some (nanos, utcOffset) := by
  have hdigits : ∀ (width : ℕ) {n : ℕ}, n < 10 ^ (width + 1) →
      readFraction ('.' :: (pad (width + 1) n ++ utcOffset)) =
        some (n * 10 ^ (9 - (width + 1)), utcOffset) := by
    intro width n hn
    simp only [readFraction, number_pad hn stops_utcOffset, Option.map_some,
      takeWhile_pad stops_utcOffset, length_pad]
  unfold fractionText
  split
  · rename_i hzero
    rw [hzero]
    rfl
  · split
    · rename_i hmillis
      rw [List.cons_append, hdigits 2 (by omega)]
      congr 2
      omega
    · split
      · rename_i hmicros
        rw [List.cons_append, hdigits 5 (by omega)]
        congr 2
        omega
      · rw [List.cons_append, hdigits 8 (by omega)]
        congr 2
        omega

/-- **What is written is read**: the fields of a text are those it was written from. -/
theorem read_text {f : UtcFields} (h : f.Fits) : read f.text = some f := by
  have htwo : ∀ {n : ℕ} {rest : List Char}, n < 100 → Stops rest →
      number (pad 2 n ++ rest) = some (n, rest) := @number_pad 1
  have hdash : ∀ rest, Stops ('-' :: rest) := stops_cons (by decide)
  have hcolon : ∀ rest, Stops (':' :: rest) := stops_cons (by decide)
  have hday : ∀ rest, Stops ('T' :: rest) := stops_cons (by decide)
  have hfraction : Stops (fractionText f.nanos ++ utcOffset) := by
    have hdot : ∀ rest, Stops ('.' :: rest) := stops_cons (by decide)
    unfold fractionText
    split
    · exact stops_utcOffset
    · split
      · exact hdot _
      · split <;> exact hdot _
  simp only [read, text, List.append_assoc, List.cons_append, bind, Option.bind,
    readYear_yearText f.year (hdash _), after_cons,
    htwo h.month (hdash _),
    htwo h.day (hday _),
    htwo h.hour (hcolon _),
    htwo h.minute (hcolon _),
    htwo h.second hfraction,
    readFraction_fractionText h.nanos, if_pos]

/-- Two fields with one text are the same. -/
theorem text_injective {f g : UtcFields} (hf : f.Fits) (hg : g.Fits) (h : f.text = g.text) :
    f = g := by
  have hread := read_text hf
  rw [h, read_text hg] at hread
  exact (Option.some.inj hread).symm

theorem monthDay_le (f : UtcFields) : monthLength f.yearOfEra (f.month - 1) ≤ 31 :=
  monthLength_le _ _

theorem Valid.fits {f : UtcFields} (h : f.Valid) : f.Fits := by
  have hlength := f.monthDay_le
  have hday := h.day
  exact ⟨by have := h.month; omega, by omega, by have := h.hour; omega, by have := h.minute; omega,
    by have := h.second; omega, h.nanos⟩

end UtcFields


end OidcExchange
