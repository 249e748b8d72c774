import OidcExchange.Adapters.SingleUse
import OidcExchange.Texts.Increasing

/-!
# Instants as text

The RFC 3339 text of an instant in UTC, as the SQLite and Valkey adapters store it: date and time
of the proleptic Gregorian calendar, then the fewest of no, three, six or nine digits of a second
that are exact, then the offset. A year outside four digits is written with a sign.
-/

set_option autoImplicit false

namespace OidcExchange

open Texts

/-! ## The calendar -/

/-- Days from the first day of the year 0 to the epoch. -/
def daysToEpoch : ℤ := 719528

/-- Days in four centuries. -/
def eraDays : ℤ := 146097

def secsPerDay : ℤ := 86400

def isLeapYear (year : ℕ) : Bool := year % 4 == 0 && (year % 100 != 0 || year % 400 == 0)

def yearLength (year : ℕ) : ℕ := if isLeapYear year then 366 else 365

/-- The length of a month, counted from 0. -/
def monthLength (year : ℕ) : ℕ → ℕ
  | 1 => if isLeapYear year then 29 else 28
  | 3 | 5 | 8 | 10 => 30
  | _ => 31

/-- The year within its four centuries, and the day within the year. -/
def yearAndDay (dayOfEra : ℕ) : ℕ × ℕ := locate yearLength 400 0 dayOfEra

/-- The month and the day within it, both counted from 0. -/
def monthAndDay (year dayOfYear : ℕ) : ℕ × ℕ := locate (monthLength year) 12 0 dayOfYear

/-! ## The text -/

/-- A year of four digits is written without a sign. -/
def yearText (year : ℤ) : List Char :=
  if 0 ≤ year ∧ year < 10000 then pad 4 year.toNat
  else
    (if year < 0 then '-' else '+') ::
      pad (max 4 (Nat.toDigits 10 year.natAbs).length) year.natAbs

def monthDayText (year dayOfYear : ℕ) : List Char :=
  let (month, day) := monthAndDay year dayOfYear
  '-' :: (pad 2 (month + 1) ++ '-' :: pad 2 (day + 1))

/-- The text of a day, counted from the first day of the year 0. -/
def dateText (day : ℤ) : List Char :=
  let (year, dayOfYear) := yearAndDay (day % eraDays).toNat
  yearText (400 * (day / eraDays) + year) ++ monthDayText year dayOfYear

/-- The text of a second of a day. -/
def clockText (second : ℕ) : List Char :=
  'T' :: (pad 2 (second / 3600) ++
    ':' :: (pad 2 (second % 3600 / 60) ++ ':' :: pad 2 (second % 3600 % 60)))

/-- The offset of UTC. -/
def utcOffset : List Char := "+00:00".toList

/-- The fraction of a second, in nanoseconds. -/
def fractionText (nanos : ℕ) : List Char :=
  if nanos = 0 then []
  else if nanos % 1000000 = 0 then '.' :: pad 3 (nanos / 1000000)
  else if nanos % 1000 = 0 then '.' :: pad 6 (nanos / 1000)
  else '.' :: pad 9 nanos

/-- SOURCE: `DateTime<Utc>::to_rfc3339` -/
def rfc3339 (t : Instant) : String :=
  let seconds := t.timestamp
  let day := seconds / secsPerDay + daysToEpoch
  String.ofList (dateText day ++ (clockText (seconds % secsPerDay).toNat ++
    (fractionText (t % nanosPerSec).toNat ++ utcOffset)))

example : rfc3339 1709210096123456000 = "2024-02-29T12:34:56.123456+00:00" := by decide +kernel

/-! ## Order -/

/-- A leap year is one day longer, by its second month. -/
theorem total_monthLength (year : ℕ) : total (monthLength year) 12 0 = yearLength year := by
  unfold yearLength
  cases h : isLeapYear year <;> simp [total, monthLength, h]

theorem total_yearLength : total yearLength 400 0 = 146097 := by decide +kernel

theorem monthLength_le (year month : ℕ) : monthLength year month ≤ 31 := by
  unfold monthLength
  split <;> try split
  all_goals omega

/-- The days of a year sort like their texts. -/
theorem increasing_monthDayText (year : ℕ) :
    Increasing (yearLength year) (monthDayText year) := by
  have hday : Increasing 31 fun day => '-' :: pad 2 (day + 1) :=
    ((increasing_pad 2).mono (by omega)).succ.prepend ['-']
  have hmonth : Increasing 12 fun month => '-' :: pad 2 (month + 1) :=
    ((increasing_pad 2).mono (by omega)).succ.prepend ['-']
  have hbound : ∀ n, n < yearLength year → n < total (monthLength year) 12 0 := by
    intro n hn
    rwa [total_monthLength]
  refine Increasing.split (f := fun month => '-' :: pad 2 (month + 1))
    (g := fun _ day => '-' :: pad 2 (day + 1)) (b := fun _ => 31) (splits_locate _ 12)
    (Fixed.append (Fixed.const ['-']) ((fixed_pad 2).comp (· + 1))) hmonth (fun _ => hday) ?_ ?_
  · intro n hn
    show (locate (monthLength year) 12 0 n).1 < 12
    have := (locate_bound 12 0 (hbound n hn)).1
    omega
  · intro n hn
    exact lt_of_lt_of_le (locate_bound 12 0 (hbound n hn)).2 (monthLength_le _ _)

/-- Days in the years of four digits. -/
def fourDigitDays : ℕ := 3652425

/-- The year of a day, counted from the first day of the year 0. -/
def yearOf (day : ℕ) : ℕ := 400 * (day / 146097) + (yearAndDay (day % 146097)).1

theorem yearAndDay_bound (day : ℕ) :
    (yearAndDay (day % 146097)).1 < 400 ∧
      (yearAndDay (day % 146097)).2 < yearLength (yearAndDay (day % 146097)).1 := by
  have hday : day % 146097 < total yearLength 400 0 := by
    rw [total_yearLength]
    exact Nat.mod_lt _ (by omega)
  have hbound := locate_bound 400 0 hday
  rwa [Nat.zero_add] at hbound

theorem yearOf_mod (day : ℕ) : yearOf day % 400 = (yearAndDay (day % 146097)).1 := by
  have := (yearAndDay_bound day).1
  unfold yearOf
  omega

theorem yearOf_lt {day : ℕ} (h : day < fourDigitDays) : yearOf day < 10000 := by
  have := (yearAndDay_bound day).1
  unfold fourDigitDays at h
  unfold yearOf
  omega

theorem splits_year :
    Splits fourDigitDays yearOf fun day => (yearAndDay (day % 146097)).2 := by
  intro m n hlt hn
  have hm := (yearAndDay_bound m).1
  unfold yearOf
  rcases splits_div_mod fourDigitDays 146097 m n hlt hn with h | ⟨h, hrest⟩
  · refine .inl ?_
    have h' : m / 146097 < n / 146097 := h
    omega
  · have h' : m / 146097 = n / 146097 := h
    have hrest' : m % 146097 < n % 146097 := hrest
    rcases @locate_lt yearLength 400 0 _ _ hrest' with hyear | ⟨hyear, hday⟩
    · refine .inl ?_
      have hyear' : (yearAndDay (m % 146097)).1 < (yearAndDay (n % 146097)).1 := hyear
      omega
    · refine .inr ⟨?_, hday⟩
      have hyear' : (yearAndDay (m % 146097)).1 = (yearAndDay (n % 146097)).1 := hyear
      omega

/-- The text of a day of a four-digit year. -/
def dayText (day : ℕ) : List Char :=
  pad 4 (yearOf day) ++ monthDayText (yearOf day % 400) (yearAndDay (day % 146097)).2

theorem fixed_dayText : Fixed dayText := by
  intro m n
  simp [dayText, monthDayText]

theorem dateText_eq {day : ℕ} (h : day < fourDigitDays) : dateText day = dayText day := by
  have hyear : 400 * ((day : ℤ) / eraDays) + (yearAndDay (day % 146097)).1 = (yearOf day : ℤ) := by
    unfold yearOf eraDays
    omega
  have hera : ((day : ℤ) % eraDays).toNat = day % 146097 := by
    unfold eraDays
    omega
  have hdigits : (0 : ℤ) ≤ yearOf day ∧ (yearOf day : ℤ) < 10000 := by
    have := yearOf_lt h
    omega
  unfold dateText yearText dayText
  simp only [hera, hyear, if_pos hdigits, Int.toNat_natCast, yearOf_mod]

/-- Days sort like their texts. -/
theorem increasing_dayText : Increasing fourDigitDays dayText := by
  refine Increasing.split (f := pad 4) (g := fun year => monthDayText (year % 400))
    (b := fun year => yearLength (year % 400)) splits_year (fixed_pad 4) (increasing_pad 4)
    (fun year => increasing_monthDayText _) (fun n hn => yearOf_lt hn) ?_
  intro n _
  rw [yearOf_mod]
  exact (yearAndDay_bound n).2

/-- Seconds of a day sort like their texts. -/
theorem increasing_clockText : Increasing 86400 clockText := by
  have hsecond : Increasing 60 fun n => ':' :: pad 2 n :=
    ((increasing_pad 2).mono (by omega)).prepend [':']
  have hminute : Increasing 3600 fun n => ':' :: (pad 2 (n / 60) ++ ':' :: pad 2 (n % 60)) := by
    refine (Increasing.split (f := pad 2) (g := fun _ r => ':' :: pad 2 r) (b := fun _ => 60)
      (splits_div_mod _ 60) (fixed_pad 2) (increasing_pad 2) (fun _ => hsecond) ?_ ?_).prepend [':']
    · intro n hn
      show n / 60 < 10 ^ 2
      omega
    · intro n _
      exact Nat.mod_lt _ (by omega)
  refine (Increasing.split (f := pad 2)
    (g := fun _ n => ':' :: (pad 2 (n / 60) ++ ':' :: pad 2 (n % 60))) (b := fun _ => 3600)
    (splits_div_mod _ 3600) (fixed_pad 2) (increasing_pad 2) (fun _ => hminute) ?_ ?_).prepend ['T']
  · intro n hn
    show n / 3600 < 10 ^ 2
    omega
  · intro n _
    exact Nat.mod_lt _ (by omega)

/-- Nine digits are three groups of three. -/
theorem pad_append (width n : ℕ) : pad (width + 3) n = pad width (n / 1000) ++ pad 3 (n % 1000) := by
  have h10 : n % 1000 % 10 = n % 10 := Nat.mod_mod_of_dvd n ⟨100, rfl⟩
  have h100 : n % 1000 / 10 % 10 = n / 10 % 10 := by omega
  have h1000 : n % 1000 / 10 / 10 % 10 = n / 10 / 10 % 10 := by omega
  have hquotient : n / 10 / 10 / 10 = n / 1000 := by omega
  simp only [pad, h10, h100, h1000, hquotient, List.append_assoc, List.nil_append]

/-- The fraction and the offset, as groups of digits. -/
theorem fractionText_eq (nanos : ℕ) :
    fractionText nanos ++ utcOffset =
      if nanos = 0 then utcOffset else '.' :: groups utcOffset 3 nanos := by
  have hnine : pad 9 nanos = pad 3 (nanos / 1000000) ++ (pad 3 (nanos % 1000000 / 1000) ++
      pad 3 (nanos % 1000)) := by
    have hmiddle : nanos / 1000 % 1000 = nanos % 1000000 / 1000 := by omega
    have houter : nanos / 1000 / 1000 = nanos / 1000000 := by omega
    rw [pad_append 6, pad_append 3, hmiddle, houter, List.append_assoc]
  have hsix : pad 6 (nanos / 1000) =
      pad 3 (nanos / 1000000) ++ pad 3 (nanos % 1000000 / 1000) := by
    have hmiddle : nanos / 1000 % 1000 = nanos % 1000000 / 1000 := by omega
    have houter : nanos / 1000 / 1000 = nanos / 1000000 := by omega
    rw [pad_append 3, hmiddle, houter]
  have hmod : nanos % 1000000 % 1000 = nanos % 1000 := Nat.mod_mod_of_dvd nanos ⟨1000, rfl⟩
  simp only [fractionText, groups, Nat.reducePow, Nat.div_one, hmod]
  by_cases hzero : nanos = 0
  · rw [if_pos hzero, if_pos hzero, List.nil_append]
  · rw [if_neg hzero, if_neg hzero, if_neg hzero]
    by_cases hmillis : nanos % 1000000 = 0
    · rw [if_pos hmillis, if_pos hmillis, List.cons_append]
    · rw [if_neg hmillis, if_neg hmillis]
      by_cases hmicros : nanos % 1000 = 0
      · rw [if_pos hmicros, if_pos hmicros, hsix, List.cons_append, List.append_assoc]
      · rw [if_neg hmicros, if_neg hmicros, hnine, List.cons_append, List.append_assoc,
          List.append_assoc]

/-- Fractions of a second sort like their texts. -/
theorem increasing_fractionText :
    Increasing 1000000000 fun nanos => fractionText nanos ++ utcOffset := by
  have hgroups : Increasing (1000 ^ 3) (groups utcOffset 3) :=
    increasing_groups (c := '+') rfl (by decide) 3
  intro m n hlt hn
  show fractionText m ++ utcOffset < fractionText n ++ utcOffset
  rw [fractionText_eq, fractionText_eq]
  have hpos : n ≠ 0 := by omega
  rw [if_neg hpos]
  by_cases hm : m = 0
  · rw [if_pos hm]
    exact cons_lt_cons_of_lt (by decide)
  · rw [if_neg hm]
    exact hgroups.prepend ['.'] m n hlt hn

/-- Nanoseconds of a day, as text. -/
def timeText (n : ℕ) : List Char :=
  clockText (n / 1000000000) ++ (fractionText (n % 1000000000) ++ utcOffset)

theorem fixed_clockText : Fixed clockText := by
  intro m n
  simp [clockText]

theorem increasing_timeText : Increasing 86400000000000 timeText := by
  refine Increasing.split (f := clockText) (g := fun _ r => fractionText r ++ utcOffset)
    (b := fun _ => 1000000000) (splits_div_mod _ 1000000000) fixed_clockText
    increasing_clockText (fun _ => increasing_fractionText) ?_ ?_
  · intro n hn
    show n / 1000000000 < 86400
    omega
  · intro n _
    exact Nat.mod_lt _ (by omega)

/-- The nanoseconds since the first instant of the year 0, as text. -/
def fourDigitText (n : ℕ) : List Char :=
  dayText (n / 86400000000000) ++ timeText (n % 86400000000000)

theorem increasing_fourDigitText :
    Increasing (fourDigitDays * 86400000000000) fourDigitText := by
  refine Increasing.split (f := dayText) (g := fun _ => timeText) (b := fun _ => 86400000000000)
    (splits_div_mod _ 86400000000000) fixed_dayText increasing_dayText
    (fun _ => increasing_timeText) ?_ ?_
  · intro n hn
    exact Nat.div_lt_of_lt_mul (by rwa [Nat.mul_comm] at hn)
  · intro n _
    exact Nat.mod_lt _ (by omega)

theorem FourDigitYear.bounds {t : ℤ} (h : FourDigitYear t) :
    -62167219200000000000 ≤ t ∧ t < 253402300800000000000 := by
  simpa [FourDigitYear, yearZero, yearTenThousand, nanosPerSec] using h

/-- The nanoseconds since the first instant of the year 0. -/
def sinceYearZero (t : ℤ) : ℕ := (t + 62167219200000000000).toNat

theorem sinceYearZero_lt {s t : ℤ} (hs : FourDigitYear s) (h : s < t) :
    sinceYearZero s < sinceYearZero t := by
  have hstart := hs.bounds.1
  unfold sinceYearZero
  omega

theorem sinceYearZero_bound {t : ℤ} (ht : FourDigitYear t) :
    sinceYearZero t < fourDigitDays * 86400000000000 := by
  have hbounds := ht.bounds
  unfold sinceYearZero fourDigitDays
  omega

theorem rfc3339_eq {t : ℤ} (ht : FourDigitYear t) :
    rfc3339 t = String.ofList (fourDigitText (sinceYearZero t)) := by
  have hbound := sinceYearZero_bound ht
  have hnat : t = sinceYearZero t - 62167219200000000000 := by
    have hstart := ht.bounds.1
    unfold sinceYearZero
    omega
  generalize sinceYearZero t = n at *
  have hday : t / 1000000000 / 86400 + 719528 = (n / 86400000000000 : ℕ) := by omega
  have hsecond : (t / 1000000000 % 86400).toNat = n % 86400000000000 / 1000000000 := by omega
  have hnanos : (t % 1000000000).toNat = n % 86400000000000 % 1000000000 := by omega
  have hdays : n / 86400000000000 < fourDigitDays :=
    Nat.div_lt_of_lt_mul (by rwa [Nat.mul_comm] at hbound)
  simp only [rfc3339, Instant.timestamp, secsPerDay, daysToEpoch, nanosPerSec, fourDigitText,
    timeText, hday, hsecond, hnanos, dateText_eq hdays]

/-- Between four-digit years, texts compare like the instants they write. -/
theorem rfc3339_lt_iff {s t : Instant} (hs : FourDigitYear s) (ht : FourDigitYear t) :
    rfc3339 s < rfc3339 t ↔ s < t := by
  have hmono : ∀ {s t : Instant}, FourDigitYear s → FourDigitYear t → s < t →
      rfc3339 s < rfc3339 t := by
    intro s t hs ht hlt
    rw [rfc3339_eq hs, rfc3339_eq ht, String.lt_iff_toList_lt, String.toList_ofList,
      String.toList_ofList]
    exact increasing_fourDigitText _ _ (sinceYearZero_lt hs hlt) (sinceYearZero_bound ht)
  constructor
  · intro h
    rcases Int.lt_trichotomy s t with hlt | heq | hgt
    · exact hlt
    · exact absurd (heq ▸ h) (lt_irrefl _)
    · exact absurd h (lt_asymm (hmono ht hs hgt))
  · exact hmono hs ht

end OidcExchange
