import OidcExchange.Adapters.TimestampFields

/-!
# Moments with leap seconds

An instant as the package for dates keeps it: a second of its range and nanoseconds, of which the
last second of a minute may have another billion, for a leap second. The text of a leap second has
the second 60, and every moment is the one that the fields of its text name.
-/

set_option autoImplicit false

namespace OidcExchange

open Texts

/-- An instant, or a moment in a leap second. SOURCE: `DateTime<Utc>` -/
structure DateTime : Type where
  secs : ℤ
  nanos : ℕ
  inRange : minInstantSecs ≤ secs ∧ secs < endInstantSecs
  nanosBound : nanos < 1000000000 ∨ nanos < 2000000000 ∧ secs % 60 = 59
  deriving DecidableEq

/-- The fields with the second of a leap second as the one before it. -/
def UtcFields.clock (f : UtcFields) : UtcFields := { f with second := min f.second 59 }

/-- The fields name a moment: the second 60 is the one before it, with a billion nanoseconds more.
SOURCE: `Parsed::to_naive_time` -/
structure UtcFields.Names (f : UtcFields) (m : DateTime) : Prop where
  valid : f.clock.Valid
  second : f.second ≤ 60
  secs : m.secs = f.clock.secs
  nanos : m.nanos = f.nanos + if f.second = 60 then 1000000000 else 0

namespace DateTime

variable (m : DateTime)

/-- SOURCE: `chrono::format::formatting::write_rfc3339` -/
def fields : UtcFields :=
  if m.nanos < 1000000000 then .ofSecs m.secs m.nanos
  else { UtcFields.ofSecs m.secs (m.nanos - 1000000000) with second := 60 }

/-- SOURCE: `DateTime<Utc>::to_rfc3339` -/
def toRfc3339 : String := String.ofList m.fields.text

/-- An instant of the range. -/
def ofInstant (t : ℤ) (h : Representable t) : DateTime where
  secs := Instant.timestamp t
  nanos := (t % nanosPerSec).toNat
  inRange := by
    have hlower : minInstantSecs * nanosPerSec ≤ t := h.1
    have hupper : t < endInstantSecs * nanosPerSec := h.2
    unfold Instant.timestamp
    unfold minInstantSecs endInstantSecs nanosPerSec at *
    omega
  nanosBound := by
    unfold nanosPerSec
    omega

/-- The instant of a moment that is in no leap second. -/
def instant? : Option Instant :=
  if m.nanos < 1000000000 then some (m.secs * nanosPerSec + m.nanos) else none

theorem clock_of_lt {f : UtcFields} (h : f.second < 60) : f.clock = f := by
  have hsecond : min f.second 59 = f.second := by omega
  rw [UtcFields.clock, hsecond]

theorem second_ofSecs {secs : ℤ} (h : secs % 60 = 59) (nanos : ℕ) :
    (UtcFields.ofSecs secs nanos).second = 59 := by
  simp only [UtcFields.ofSecs, secsPerDay]
  omega

/-- A leap second without its second is the second before it. -/
theorem clock_leap {secs : ℤ} (h : secs % 60 = 59) (nanos : ℕ) :
    UtcFields.clock { UtcFields.ofSecs secs nanos with second := 60 } = .ofSecs secs nanos := by
  have hsecond := second_ofSecs h nanos
  generalize UtcFields.ofSecs secs nanos = f at *
  obtain ⟨year, month, day, hour, minute, second, nanos⟩ := f
  obtain rfl : second = 59 := hsecond
  rfl

/-- **The fields of a moment name it.** -/
theorem names : m.fields.Names m := by
  by_cases hplain : m.nanos < 1000000000
  · have hfields : m.fields = .ofSecs m.secs m.nanos := if_pos hplain
    have hvalid := UtcFields.valid_ofSecs m.secs hplain
    have hsecond : (UtcFields.ofSecs m.secs m.nanos).second < 60 := hvalid.second
    rw [hfields]
    constructor
    · rwa [clock_of_lt hsecond]
    · exact hsecond.le
    · rw [clock_of_lt hsecond, UtcFields.secs_ofSecs]
    · rw [if_neg hsecond.ne]
      rfl
  · obtain ⟨hnanos, hminute⟩ := m.nanosBound.resolve_left hplain
    have hfields : m.fields =
        { UtcFields.ofSecs m.secs (m.nanos - 1000000000) with second := 60 } := if_neg hplain
    rw [hfields]
    constructor
    · rw [clock_leap hminute]
      apply UtcFields.valid_ofSecs
      omega
    · exact le_rfl
    · rw [clock_leap hminute, UtcFields.secs_ofSecs]
    · rw [if_pos rfl]
      show m.nanos = m.nanos - 1000000000 + 1000000000
      omega

/-- Fields name one moment. -/
theorem unique {f : UtcFields} {m m' : DateTime} (h : f.Names m) (h' : f.Names m') : m = m' := by
  have hsecs := h.secs.trans h'.secs.symm
  have hnanos := h.nanos.trans h'.nanos.symm
  obtain ⟨secs, nanos, hrange, hbound⟩ := m
  obtain ⟨secs', nanos', hrange', hbound'⟩ := m'
  obtain rfl : secs = secs' := hsecs
  obtain rfl : nanos = nanos' := hnanos
  rfl

theorem nanos_ofInstant_lt {t : ℤ} (h : Representable t) :
    (ofInstant t h).nanos < 1000000000 := by
  show (t % nanosPerSec).toNat < 1000000000
  unfold nanosPerSec
  omega

/-- The text of an instant. -/
theorem toRfc3339_ofInstant {t : ℤ} (h : Representable t) :
    (ofInstant t h).toRfc3339 = rfc3339 t := by
  have hfields : (ofInstant t h).fields = .of t := if_pos (nanos_ofInstant_lt h)
  rw [toRfc3339, hfields, UtcFields.rfc3339_eq_text]

theorem instant?_ofInstant {t : ℤ} (h : Representable t) :
    (ofInstant t h).instant? = some t := by
  have hnanos := nanos_ofInstant_lt h
  have hsum : t / 1000000000 * 1000000000 + ((t % 1000000000).toNat : ℤ) = t := by omega
  rw [instant?, if_pos hnanos]
  exact congrArg some hsum

end DateTime

end OidcExchange
