import OidcExchange.Analysis.LifetimeFlow
import OidcExchange.Analysis.StartUp
import OidcExchange.Analysis.Undisturbed
import OidcExchange.Program.Assertion
import OidcExchange.Program.Configuration

/-!
# The lifetime of an assertion

The check reads the expiry as a signed 64-bit number, subtracts the clock and compares with the
ceiling, itself read as signed. It is exact where the subtraction stays in range and the ceiling is
not read as a negative number.
-/

set_option autoImplicit false

namespace OidcExchange

open Storage

/-- An expiry claim that is a number: its whole part. -/
def ExpiresAtSecs (claims : IdentityClaims) (secs : ℤ) : Prop :=
  ∃ m e, claims.rawClaims.lookup "exp" = some (.number m e) ∧ m.tdiv (10 ^ e) = secs

/-- The check accepts what expires in the future and within the ceiling, at an instant that there
is, answers with that instant, and computes without overflow or panic. -/
structure LifetimeExact (d : Deployment) (claims : IdentityClaims) (now : Instant)
    (maxAssertionSecs : UInt64) : Prop where
  accepts : ∀ t, checkLifetime d claims now maxAssertionSecs = .ok t ↔
    ∃ secs, ExpiresAtSecs claims secs ∧ 0 < secs - now.timestamp ∧
      secs - now.timestamp ≤ maxAssertionSecs.toNat ∧ Instant.ofTimestamp secs = some t
  inRange : ∀ secs, (claims.rawClaims.lookup "exp").bind Value.numericDate = some secs →
    minI64 ≤ secs - now.timestamp ∧ secs - now.timestamp ≤ maxI64
  noPanic : checkLifetime d claims now maxAssertionSecs ≠ .error .panic

/-- The expiry does not lie further back than a signed 64-bit number of seconds, and where it is
ahead the ceiling is such a number. -/
def LifetimeInRange (claims : IdentityClaims) (now : Instant) (maxAssertionSecs : UInt64) : Prop :=
  ∀ secs, ExpiresAtSecs claims secs →
    now.timestamp - 2 ^ 63 ≤ secs ∧
      (maxAssertionSecs.toNat < 2 ^ 63 ∨ secs ≤ now.timestamp ∨ Instant.ofTimestamp secs = none)

/-! ## Reading the expiry -/

variable {d : Deployment} {claims : IdentityClaims} {now : Instant} {maxAssertionSecs : UInt64}
  {secs : ℤ} {t : Instant}

/-- A whole part kept within 64 bits. -/
def clampI64 (secs : ℤ) : ℤ := max minI64 (min secs maxI64)

/-- What is read of an expiry is its whole part, kept within 64 bits. -/
theorem numericDate_eq_some_iff {n : ℤ} :
    (claims.rawClaims.lookup "exp").bind Value.numericDate = some n ↔
      ∃ secs, ExpiresAtSecs claims secs ∧ clampI64 secs = n := by
  constructor
  · intro h
    obtain ⟨v, hv, hread⟩ := Option.bind_eq_some_iff.mp h
    cases v with
    | number m e => exact ⟨_, ⟨m, e, hv, rfl⟩, Option.some.inj hread⟩
    | _ => exact nomatch hread
  · rintro ⟨secs, ⟨m, e, hv, rfl⟩, rfl⟩
    rw [hv]
    rfl

theorem ExpiresAtSecs.unique {secs' : ℤ} (h : ExpiresAtSecs claims secs)
    (h' : ExpiresAtSecs claims secs') : secs = secs' := by
  obtain ⟨m, e, hv, rfl⟩ := h
  obtain ⟨m', e', hv', rfl⟩ := h'
  have heq := Option.some.inj (hv.symm.trans hv')
  injection heq with hm he
  rw [hm, he]

theorem ofTimestamp_eq_some_iff : Instant.ofTimestamp secs = some t ↔
    (minInstantSecs ≤ secs ∧ secs < endInstantSecs) ∧ secs * nanosPerSec = t := by
  rw [Instant.ofTimestamp]
  by_cases hrange : minInstantSecs ≤ secs ∧ secs < endInstantSecs
  · rw [if_pos hrange, Option.some_inj, and_iff_right hrange]
  · rw [if_neg hrange]
    exact iff_of_false (fun h => nomatch h) fun h => hrange h.1

/-- What is an instant is not cut, and what is cut is no instant. -/
theorem clampI64_eq_of_instant
    (h : (minInstantSecs ≤ secs ∧ secs < endInstantSecs) ∨
      (minInstantSecs ≤ clampI64 secs ∧ clampI64 secs < endInstantSecs)) : clampI64 secs = secs := by
  simp only [clampI64, minI64, maxI64, minInstantSecs, endInstantSecs] at h ⊢
  omega

theorem ofTimestamp_clampI64 : Instant.ofTimestamp (clampI64 secs) = Instant.ofTimestamp secs := by
  by_cases hinstant : (minInstantSecs ≤ secs ∧ secs < endInstantSecs) ∨
    (minInstantSecs ≤ clampI64 secs ∧ clampI64 secs < endInstantSecs)
  · rw [clampI64_eq_of_instant hinstant]
  · obtain ⟨hnot, hnot'⟩ := not_or.mp hinstant
    rw [Instant.ofTimestamp, Instant.ofTimestamp, if_neg hnot, if_neg hnot']

/-- A ceiling above the signed range is read as a negative number. -/
theorem signedSecs_cases (maxAssertionSecs : UInt64) :
    (maxAssertionSecs.toNat < 2 ^ 63 ∧ signedSecs maxAssertionSecs = maxAssertionSecs.toNat) ∨
      (2 ^ 63 ≤ maxAssertionSecs.toNat ∧ signedSecs maxAssertionSecs < 0) := by
  have hsigned : signedSecs maxAssertionSecs = maxAssertionSecs.toBitVec.toInt := rfl
  have hbound := maxAssertionSecs.toNat_lt
  rw [hsigned, BitVec.toInt_eq_toNat_cond, UInt64.toNat_toBitVec]
  split
  · exact Or.inl ⟨by omega, rfl⟩
  · exact Or.inr ⟨by omega, by omega⟩

/-! ## The check -/

/-- The check of a number where the subtraction stays in range. -/
theorem checkLifetime_eq (hclock : 0 < now.timestamp) (hsecs : ExpiresAtSecs claims secs)
    (hfits : minI64 ≤ clampI64 secs - now.timestamp) :
    checkLifetime d claims now maxAssertionSecs =
      if clampI64 secs - now.timestamp ≤ 0 then
        rejected "lifetime_ceiling" "assertion is already expired"
      else if signedSecs maxAssertionSecs < clampI64 secs - now.timestamp then
        rejected "lifetime_ceiling" "assertion lifetime exceeds the configured maximum"
      else
        match Instant.ofTimestamp secs with
        | none => rejected "lifetime_ceiling" "assertion has no usable exp claim"
        | some expiresAt => .ok expiresAt := by
  have hread := numericDate_eq_some_iff.mpr ⟨secs, hsecs, rfl⟩
  have hsub : subI64 (ε := AssertionBindError) d (clampI64 secs) now.timestamp =
      .ok (clampI64 secs - now.timestamp) := by
    have hhigh : clampI64 secs ≤ maxI64 := by
      simp only [clampI64, minI64, maxI64]
      omega
    rw [subI64, if_pos ⟨hfits, by omega⟩]
  simp only [checkLifetime, hread, hsub, hclock, decide_true, assertThat, if_true, bind,
    Except.bind, ofTimestamp_clampI64]
  rfl

/-- **The check** accepts between now and the ceiling, as it reads them. -/
theorem checkLifetime_eq_ok_iff (hclock : 0 < now.timestamp) (hsecs : ExpiresAtSecs claims secs)
    (hfits : minI64 ≤ clampI64 secs - now.timestamp) :
    checkLifetime d claims now maxAssertionSecs = .ok t ↔
      0 < clampI64 secs - now.timestamp ∧
        clampI64 secs - now.timestamp ≤ signedSecs maxAssertionSecs ∧
          Instant.ofTimestamp secs = some t := by
  rw [checkLifetime_eq hclock hsecs hfits]
  by_cases hexpired : clampI64 secs - now.timestamp ≤ 0
  · rw [if_pos hexpired]
    exact iff_of_false (fun h => nomatch h) fun h => absurd h.1 (Int.not_lt.mpr hexpired)
  · by_cases hlong : signedSecs maxAssertionSecs < clampI64 secs - now.timestamp
    · rw [if_neg hexpired, if_pos hlong]
      exact iff_of_false (fun h => nomatch h) fun h => absurd h.2.1 (Int.not_le.mpr hlong)
    · rw [if_neg hexpired, if_neg hlong, and_iff_right (Int.not_le.mp hexpired),
        and_iff_right (Int.not_lt.mp hlong)]
      cases Instant.ofTimestamp secs with
      | none => exact iff_of_false (fun h => nomatch h) fun h => nomatch h
      | some expiresAt =>
        rw [Option.some_inj]
        exact ⟨fun h => Except.ok.inj h, fun h => congrArg _ h⟩

theorem checkLifetime_ne_panic (hclock : 0 < now.timestamp) (hsecs : ExpiresAtSecs claims secs)
    (hfits : minI64 ≤ clampI64 secs - now.timestamp) :
    checkLifetime d claims now maxAssertionSecs ≠ .error .panic := by
  rw [checkLifetime_eq hclock hsecs hfits]
  split
  · exact fun h => nomatch h
  · split
    · exact fun h => nomatch h
    · split <;> exact fun h => nomatch h

/-- Without a number there is nothing to compute with. -/
theorem checkLifetime_of_none (h : ∀ secs, ¬ ExpiresAtSecs claims secs) :
    checkLifetime d claims now maxAssertionSecs =
      rejected "lifetime_ceiling" "assertion has no usable exp claim" := by
  have hread : (claims.rawClaims.lookup "exp").bind Value.numericDate = none := by
    cases hsome : (claims.rawClaims.lookup "exp").bind Value.numericDate with
    | none => rfl
    | some n =>
      obtain ⟨secs, hsecs, -⟩ := numericDate_eq_some_iff.mp hsome
      exact absurd hsecs (h secs)
  rw [checkLifetime, hread]

/-! ## Exactness -/

/-- What is checked exactly is in range. -/
theorem lifetimeInRange_of_exact (hclock : 0 < now.timestamp) (hnow : now.timestamp < endInstantSecs)
    (h : LifetimeExact d claims now maxAssertionSecs) :
    LifetimeInRange claims now maxAssertionSecs := by
  intro secs hsecs
  have hrange := h.inRange _ (numericDate_eq_some_iff.mpr ⟨secs, hsecs, rfl⟩)
  have hlow : now.timestamp - 2 ^ 63 ≤ secs := by
    simp only [clampI64, minI64, maxI64, endInstantSecs] at hrange hnow
    omega
  refine ⟨hlow, ?_⟩
  obtain hsmall | ⟨hlarge, hnegative⟩ := signedSecs_cases maxAssertionSecs
  · exact Or.inl hsmall.1
  · right
    by_contra hahead
    obtain ⟨hfuture, hinstant⟩ := not_or.mp hahead
    obtain ⟨t, ht⟩ := Option.ne_none_iff_exists'.mp hinstant
    have hbounds := (ofTimestamp_eq_some_iff.mp ht).1.2
    have hwithin : secs - now.timestamp ≤ maxAssertionSecs.toNat := by
      simp only [endInstantSecs] at hbounds
      omega
    have haccepted := (h.accepts t).mpr ⟨secs, hsecs, by omega, hwithin, ht⟩
    have hceiling := (checkLifetime_eq_ok_iff hclock hsecs hrange.1).mp haccepted
    omega

/-- A number that is in range is checked exactly. -/
theorem lifetimeExact_of_number (hclock : 0 < now.timestamp) (hnow : now.timestamp < endInstantSecs)
    (hsecs : ExpiresAtSecs claims secs) (h : LifetimeInRange claims now maxAssertionSecs) :
    LifetimeExact d claims now maxAssertionSecs := by
  obtain ⟨hlow, hceiling⟩ := h secs hsecs
  have hrange : minI64 ≤ clampI64 secs - now.timestamp ∧
      clampI64 secs - now.timestamp ≤ maxI64 := by
    simp only [clampI64, minI64, maxI64, endInstantSecs] at hnow ⊢
    omega
  refine ⟨fun t => ?_, fun n hn => ?_, checkLifetime_ne_panic hclock hsecs hrange.1⟩
  · rw [checkLifetime_eq_ok_iff hclock hsecs hrange.1]
    constructor
    · rintro ⟨hahead, hwithin, ht⟩
      have hsame := clampI64_eq_of_instant (Or.inl (ofTimestamp_eq_some_iff.mp ht).1)
      rw [hsame] at hahead hwithin
      obtain hsmall | hlarge := signedSecs_cases maxAssertionSecs
      · exact ⟨secs, hsecs, hahead, hsmall.2 ▸ hwithin, ht⟩
      · omega
    · rintro ⟨secs', hsecs', hahead, hwithin, ht⟩
      obtain rfl := hsecs.unique hsecs'
      have hsame := clampI64_eq_of_instant (Or.inl (ofTimestamp_eq_some_iff.mp ht).1)
      rw [hsame]
      refine ⟨hahead, ?_, ht⟩
      obtain hsmall | hlarge := signedSecs_cases maxAssertionSecs
      · exact hsmall.2 ▸ hwithin
      · obtain hfits | hpast | hnone := hceiling
        · omega
        · omega
        · exact nomatch hnone.symm.trans ht
  · obtain ⟨secs', hsecs', rfl⟩ := numericDate_eq_some_iff.mp hn
    obtain rfl := hsecs.unique hsecs'
    exact hrange

/-- What is no number is refused. -/
theorem lifetimeExact_of_none (hnone : ∀ secs, ¬ ExpiresAtSecs claims secs) :
    LifetimeExact d claims now maxAssertionSecs := by
  have hrejected := @checkLifetime_of_none d claims now maxAssertionSecs hnone
  refine ⟨fun t => ?_, fun n hn => ?_, ?_⟩
  · rw [hrejected]
    refine iff_of_false (fun h => nomatch h) fun h => ?_
    obtain ⟨secs, hsecs, -⟩ := h
    exact hnone secs hsecs
  · obtain ⟨secs, hsecs, -⟩ := numericDate_eq_some_iff.mp hn
    exact absurd hsecs (hnone secs)
  · rw [hrejected]
    exact fun h => nomatch h

/-- **The lifetime of an assertion** is checked exactly, at every representable clock after the
epoch, where the subtraction stays in range and the ceiling is not read as negative. -/
theorem lifetime_exact_iff (d : Deployment) (claims : IdentityClaims) (now : Instant)
    (maxAssertionSecs : UInt64) (hclock : 0 < now.timestamp)
    (hnow : now.timestamp < endInstantSecs) :
    LifetimeExact d claims now maxAssertionSecs ↔ LifetimeInRange claims now maxAssertionSecs := by
  constructor
  · exact lifetimeInRange_of_exact hclock hnow
  · intro h
    by_cases hnumber : ∃ secs, ExpiresAtSecs claims secs
    · obtain ⟨secs, hsecs⟩ := hnumber
      exact lifetimeExact_of_number hclock hnow hsecs h
    · exact lifetimeExact_of_none fun secs hsecs => hnumber ⟨secs, hsecs⟩

/-- Claims that expire after a number of seconds. -/
def expiringClaims (secs : ℤ) : IdentityClaims where
  subject := "subject"
  email := none
  emailVerified := none
  name := none
  isPrivateEmail := none
  signingAlg := "RS256"
  rawClaims := (∅ : Table String Value).insert "exp" (.number secs 0)

theorem expiresAtSecs_expiringClaims (secs : ℤ) : ExpiresAtSecs (expiringClaims secs) secs :=
  ⟨secs, 0, AList.lookup_insert _, Int.tdiv_one secs⟩

/-- A minute ahead, under a ceiling of an hour. -/
theorem lifetime_exact_ordinary : LifetimeExact (Sample.deployment true) (expiringClaims 1000000060)
    (1000000000 * nanosPerSec) 3600 := by
  refine (lifetime_exact_iff _ _ _ _ (by decide) (by decide)).mpr fun secs hsecs => ?_
  obtain rfl := (expiresAtSecs_expiringClaims 1000000060).unique hsecs
  exact ⟨by decide, Or.inl (by decide)⟩

/-- A ceiling of half the unsigned range refuses what expires in a minute; an expiry at the other
end of the signed range overflows. -/
theorem lifetime_inexact :
    (∃ c, GrantsConfig.resolve plainTables ⟨true, "5m", "9223372036854775808s"⟩ = .ok c ∧
      ¬ LifetimeExact (Sample.deployment true) (expiringClaims 1000000060)
        (1000000000 * nanosPerSec) c.maxAssertionLifetime) ∧
    ∃ c, GrantsConfig.resolve plainTables ⟨true, "5m", "1h"⟩ = .ok c ∧
      ¬ LifetimeExact (Sample.deployment true) (expiringClaims (-(2 ^ 63)))
        (1000000000 * nanosPerSec) c.maxAssertionLifetime := by
  constructor
  · obtain ⟨c, hc, hmax⟩ : ∃ c,
        GrantsConfig.resolve plainTables ⟨true, "5m", "9223372036854775808s"⟩ = .ok c ∧
          c.maxAssertionLifetime = 2 ^ 63 := exists_ok_of_test (by decide +kernel)
    refine ⟨c, hc, fun h => ?_⟩
    have hceiling := (lifetimeInRange_of_exact (by decide) (by decide) h 1000000060
      (expiresAtSecs_expiringClaims _)).2
    rw [hmax] at hceiling
    exact absurd hceiling (by decide +kernel)
  · obtain ⟨c, hc, -⟩ : ∃ c, GrantsConfig.resolve plainTables ⟨true, "5m", "1h"⟩ = .ok c ∧
        c.maxAssertionLifetime = 3600 := exists_ok_of_test (by decide +kernel)
    refine ⟨c, hc, fun h => ?_⟩
    have hlow := (lifetimeInRange_of_exact (by decide) (by decide) h (-(2 ^ 63))
      (expiresAtSecs_expiringClaims _)).1
    exact absurd hlow (by decide)

end OidcExchange
