import OidcExchange.Adapters.Timestamps

/-!
# The fields of a timestamp

Year, month, day, hour, minute, second and nanoseconds of an instant in UTC, the text that writes
them, and the instant they name: the days of the years and months before, the day, and the time of
it. Every instant has fields, and its text is the text of its fields.
-/

set_option autoImplicit false

namespace OidcExchange

open Texts

/-- The fields of an instant in UTC; months and days are counted from 1. -/
structure UtcFields : Type where
  year : ℤ
  month : ℕ
  day : ℕ
  hour : ℕ
  minute : ℕ
  second : ℕ
  nanos : ℕ

namespace UtcFields

variable (f : UtcFields)

/-- The year within its four centuries. -/
def yearOfEra : ℕ := (f.year % 400).toNat

/-- The fields name a day of the calendar and a time of that day. -/
structure Valid : Prop where
  month : 1 ≤ f.month ∧ f.month ≤ 12
  day : 1 ≤ f.day ∧ f.day ≤ monthLength f.yearOfEra (f.month - 1)
  hour : f.hour < 24
  minute : f.minute < 60
  second : f.second < 60
  nanos : f.nanos < 1000000000

instance : Decidable f.Valid :=
  decidable_of_iff
    ((1 ≤ f.month ∧ f.month ≤ 12) ∧
      (1 ≤ f.day ∧ f.day ≤ monthLength f.yearOfEra (f.month - 1)) ∧
      f.hour < 24 ∧ f.minute < 60 ∧ f.second < 60 ∧ f.nanos < 1000000000)
    ⟨fun ⟨hmonth, hday, hhour, hminute, hsecond, hnanos⟩ =>
      ⟨hmonth, hday, hhour, hminute, hsecond, hnanos⟩,
     fun h => ⟨h.month, h.day, h.hour, h.minute, h.second, h.nanos⟩⟩

/-- The text of the fields: a date, a time with the fewest of no, three, six or nine digits of a
second that are exact, and the offset. -/
def text : List Char :=
  (yearText f.year ++ '-' :: (pad 2 f.month ++ '-' :: pad 2 f.day)) ++
    ('T' :: (pad 2 f.hour ++ ':' :: (pad 2 f.minute ++ ':' :: pad 2 f.second)) ++
      (fractionText f.nanos ++ utcOffset))

/-- The days from the first day of the year 0: those of the eras, years and months before, and
those of the month. -/
def dayNumber : ℤ :=
  eraDays * (f.year / 400) + total yearLength f.yearOfEra 0 +
    total (monthLength f.yearOfEra) (f.month - 1) 0 + (f.day - 1 : ℕ)

/-- The seconds from the epoch. -/
def secs : ℤ :=
  (f.dayNumber - daysToEpoch) * secsPerDay + (3600 * f.hour + 60 * f.minute + f.second : ℕ)

/-- The instant that the fields name. -/
def instant : Instant := f.secs * nanosPerSec + f.nanos

/-- The fields of a second of an instant. -/
def ofSecs (secs : ℤ) (nanos : ℕ) : UtcFields :=
  let day := secs / secsPerDay + daysToEpoch
  let (year, dayOfYear) := yearAndDay (day % eraDays).toNat
  let (month, dayOfMonth) := monthAndDay year dayOfYear
  let second := (secs % secsPerDay).toNat
  { year := 400 * (day / eraDays) + year
    month := month + 1
    day := dayOfMonth + 1
    hour := second / 3600
    minute := second % 3600 / 60
    second := second % 3600 % 60
    nanos := nanos }

/-- The day of an instant lies in its year and month. -/
theorem month_bound (day : ℤ) :
    (yearAndDay (day % eraDays).toNat).1 < 400 ∧
      (monthAndDay (yearAndDay (day % eraDays).toNat).1
        (yearAndDay (day % eraDays).toNat).2).1 < 12 ∧
      (monthAndDay (yearAndDay (day % eraDays).toNat).1
        (yearAndDay (day % eraDays).toNat).2).2 <
        monthLength (yearAndDay (day % eraDays).toNat).1
          (monthAndDay (yearAndDay (day % eraDays).toNat).1
            (yearAndDay (day % eraDays).toNat).2).1 := by
  have hday : (day % eraDays).toNat = (day % eraDays).toNat % 146097 := by
    unfold eraDays
    omega
  rw [hday]
  obtain ⟨hyear, hin⟩ := yearAndDay_bound (day % eraDays).toNat
  rw [← total_monthLength] at hin
  obtain ⟨hmonth, hdayOfMonth⟩ := locate_bound 12 0 hin
  exact ⟨hyear, by rwa [Nat.zero_add] at hmonth, hdayOfMonth⟩

theorem yearOfEra_ofSecs (secs : ℤ) (nanos : ℕ) :
    (ofSecs secs nanos).yearOfEra =
      (yearAndDay ((secs / secsPerDay + daysToEpoch) % eraDays).toNat).1 := by
  have hyear := (month_bound (secs / secsPerDay + daysToEpoch)).1
  simp only [yearOfEra, ofSecs]
  omega

theorem valid_ofSecs (secs : ℤ) {nanos : ℕ} (hnanos : nanos < 1000000000) :
    (ofSecs secs nanos).Valid := by
  obtain ⟨-, hmonth, hday⟩ := month_bound (secs / secsPerDay + daysToEpoch)
  have hera := yearOfEra_ofSecs secs nanos
  have hsecond : (secs % secsPerDay).toNat < 86400 := by
    unfold secsPerDay
    omega
  constructor
  · exact ⟨Nat.le_add_left 1 _, hmonth⟩
  · rw [hera]
    exact ⟨Nat.le_add_left 1 _, hday⟩
  · show (secs % secsPerDay).toNat / 3600 < 24
    omega
  · show (secs % secsPerDay).toNat % 3600 / 60 < 60
    omega
  · show (secs % secsPerDay).toNat % 3600 % 60 < 60
    omega
  · exact hnanos

/-- The fields of a second name it. -/
theorem secs_ofSecs (secs : ℤ) (nanos : ℕ) : (ofSecs secs nanos).secs = secs := by
  have hera := yearOfEra_ofSecs secs nanos
  have hyear := (month_bound (secs / secsPerDay + daysToEpoch)).1
  have hdays : (ofSecs secs nanos).dayNumber = secs / secsPerDay + daysToEpoch := by
    have hmonths := @total_locate
      (monthLength (yearAndDay ((secs / secsPerDay + daysToEpoch) % eraDays).toNat).1) 12 0
      (yearAndDay ((secs / secsPerDay + daysToEpoch) % eraDays).toNat).2
    have hyears := @total_locate yearLength 400 0
      ((secs / secsPerDay + daysToEpoch) % eraDays).toNat
    rw [dayNumber, hera]
    simp only [ofSecs, Nat.add_sub_cancel]
    rw [Nat.sub_zero] at hmonths hyears
    simp only [yearAndDay, monthAndDay, eraDays] at *
    omega
  rw [UtcFields.secs, hdays]
  simp only [ofSecs, secsPerDay]
  omega

/-- The fields of an instant. -/
def of (t : Instant) : UtcFields := ofSecs t.timestamp (t % nanosPerSec).toNat

/-- The text of an instant is the text of its fields. -/
theorem rfc3339_eq_text (t : Instant) : rfc3339 t = String.ofList (of t).text := by
  simp only [rfc3339, text, of, ofSecs, dateText, monthDayText, clockText, List.append_assoc,
    List.cons_append]

end UtcFields

end OidcExchange
