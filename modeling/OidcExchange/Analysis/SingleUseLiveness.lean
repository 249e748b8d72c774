import OidcExchange.Adapters.SingleUse
import Mathlib.Data.String.Basic

/-!
# When a single-use record is live

By the port a record is live while its expiry is after the clock. For each store this module
says, of a record that a claim wrote, exactly when a burn and a second claim both go by that
rule and the second claim is not an error.
-/

set_option autoImplicit false

namespace OidcExchange

open Storage

/-- At `now` the record of `key`, which expires at `e`, counts as live exactly while `e` is
after `now`, for a burn and for a claim until `e'`; a claim until after `now` is answered. -/
structure SingleUseStore.Classifies {σ : Type} (S : SingleUseStore σ) (s : σ) (key : String)
    (e now e' : Instant) : Prop where
  take : (S.take now key s).1 = .ok true ↔ now < e
  put : (S.put now key e' s).1 = .ok false ↔ now < e
  answered : now < e' → ∃ claimed, (S.put now key e' s).1 = .ok claimed

variable {key : String} {e now e' t₀ : Instant}

/-! ## LMDB -/

namespace Lmdb

variable {t t' : Table String Instant}

theorem lookup_of_put (h : putSingleUse t₀ key e t = (.ok true, t')) : t'.lookup key = some e := by
  unfold putSingleUse at h
  split at h
  · exact absurd h (by simp)
  · split at h
    · obtain ⟨-, rfl⟩ := Prod.mk.inj h
      exact AList.lookup_insert t
    · split at h
      · exact absurd h (by simp [storeError])
      · split at h
        · exact absurd h (by simp)
        · obtain ⟨-, rfl⟩ := Prod.mk.inj h
          exact AList.lookup_insert t

/-- Years that are read back are compared as instants; no other expiry is ever answered. -/
theorem classifies_iff (hkey : key ≠ "") (h : t.lookup key = some e) :
    singleUse.Classifies t key e now e' ↔ FourDigitYear e ∨ e ≤ now ∧ e' ≤ now := by
  by_cases hyear : FourDigitYear e
  · have htake : (singleUse.take now key t).1 = .ok (decide (now < e)) := by
      simp [singleUse, takeSingleUse, hkey, h, reread, hyear]
    have hput : (singleUse.put now key e' t).1 = .ok (!decide (now < e)) := by
      by_cases hlive : now < e
      · simp [singleUse, putSingleUse, hkey, h, reread, hyear, hlive]
      · simp [singleUse, putSingleUse, hkey, h, reread, hyear, hlive]
    refine iff_of_true ⟨?_, ?_, ?_⟩ (Or.inl hyear)
    · simp [htake]
    · simp [hput]
    · intro _
      exact ⟨_, hput⟩
  · have htake : (singleUse.take now key t).1 =
        storeError "single_use record has unparsable expiry: input contains invalid characters" := by
      simp [singleUse, takeSingleUse, hkey, h, reread, hyear]
    have hput : (singleUse.put now key e' t).1 =
        storeError "single_use record has unparsable expiry: input contains invalid characters" := by
      simp [singleUse, putSingleUse, hkey, h, reread, hyear]
    constructor
    · intro hclass
      refine Or.inr ⟨?_, ?_⟩
      · by_contra hlive
        have := hclass.take.mpr (Int.not_le.mp hlive)
        simp [htake, storeError] at this
      · by_contra hnext
        obtain ⟨claimed, hclaimed⟩ := hclass.answered (Int.not_le.mp hnext)
        simp [hput, storeError] at hclaimed
    · rintro (hyear' | ⟨hpast, hnext⟩)
      · exact absurd hyear' hyear
      · refine ⟨?_, ?_, ?_⟩
        · simp [htake, storeError, Int.not_lt.mpr hpast]
        · simp [hput, storeError, Int.not_lt.mpr hpast]
        · intro hlater
          exact absurd hlater (Int.not_lt.mpr hnext)

end Lmdb

/-! ## SQLite -/

namespace Sqlite

variable {text : Instant → String} {t t' : Table String String}

theorem lookup_of_put (h : putSingleUse text t₀ key e t = (.ok true, t')) :
    t'.lookup key = some (text e) := by
  unfold putSingleUse at h
  split at h
  · exact absurd h (by simp)
  · split at h
    · obtain ⟨-, rfl⟩ := Prod.mk.inj h
      exact AList.lookup_insert t
    · split at h
      · obtain ⟨-, rfl⟩ := Prod.mk.inj h
        exact AList.lookup_insert t
      · exact absurd h (by simp)

/-- The claim asks whether the text is before the clock's, the burn whether it is after: they
part where it is the same, and both go wrong where the texts do not sort as the instants. -/
theorem classifies_iff (hkey : key ≠ "") (hinj : text e = text now → e = now)
    (h : t.lookup key = some (text e)) :
    (singleUse text).Classifies t key e now e' ↔
      e ≠ now ∧ (text now < text e ↔ now < e) := by
  have htake : ((singleUse text).take now key t).1 = .ok (decide (text now < text e)) := by
    by_cases hlive : text now < text e
    · simp [singleUse, takeSingleUse, hkey, h, hlive]
    · simp [singleUse, takeSingleUse, hkey, h, hlive]
  have hput : ((singleUse text).put now key e' t).1 = .ok (decide (text e < text now)) := by
    by_cases hdead : text e < text now
    · simp [singleUse, putSingleUse, hkey, h, hdead]
    · simp [singleUse, putSingleUse, hkey, h, hdead]
  constructor
  · intro hclass
    have htake' : text now < text e ↔ now < e := by simpa [htake] using hclass.take
    have hput' : ¬ text e < text now ↔ now < e := by simpa [hput] using hclass.put
    refine ⟨?_, htake'⟩
    rintro rfl
    exact absurd (hput'.mp (lt_irrefl _)) (Int.lt_irrefl e)
  · rintro ⟨hne, hsort⟩
    have htext : text e ≠ text now := fun heq => hne (hinj heq)
    refine ⟨?_, ?_, ?_⟩
    · simp [htake, hsort]
    · have hflip : ¬ text e < text now ↔ text now < text e :=
        ⟨fun hnot => lt_of_le_of_ne (not_lt.mp hnot) (Ne.symm htext), fun hlt => lt_asymm hlt⟩
      rw [hput, ← hsort, ← hflip]
      simp
    · intro _
      exact ⟨_, hput⟩

end Sqlite

/-! ## DynamoDB -/

namespace Dynamo

variable {t t' : Table String ℤ}

theorem lookup_of_put (h : putSingleUse t₀ key e t = (.ok true, t')) :
    t'.lookup key = some e.timestamp := by
  unfold putSingleUse at h
  split at h
  · exact absurd h (by simp)
  · split at h
    · obtain ⟨-, rfl⟩ := Prod.mk.inj h
      exact AList.lookup_insert t
    · split at h
      · obtain ⟨-, rfl⟩ := Prod.mk.inj h
        exact AList.lookup_insert t
      · exact absurd h (by simp)

theorem ofTimestamp_timestamp (h : Representable e) :
    Instant.ofTimestamp e.timestamp = some (e.timestamp * nanosPerSec) := by
  obtain ⟨hmin, hend⟩ := h
  refine if_pos ⟨?_, ?_⟩
  · exact Int.le_ediv_of_mul_le (by decide) hmin
  · exact Int.ediv_lt_of_lt_mul (by decide) hend

/-- A clock is before the whole second of an instant while its own second is an earlier one. -/
theorem lt_timestamp_iff : now < e.timestamp * nanosPerSec ↔ now.timestamp < e.timestamp := by
  have hint : ∀ a b : ℤ, a < b / 1000000000 * 1000000000 ↔ a / 1000000000 < b / 1000000000 := by
    intro a b
    omega
  exact hint now e

theorem lt_iff_of_timestamp_ne (h : e.timestamp ≠ now.timestamp) :
    now < e ↔ now.timestamp < e.timestamp := by
  have hint : ∀ a b : ℤ, b / 1000000000 ≠ a / 1000000000 →
      (a < b ↔ a / 1000000000 < b / 1000000000) := by
    intro a b hab
    omega
  exact hint now e h

/-- The claim compares whole seconds, the burn the whole second of the expiry with the clock:
they part within one second. -/
theorem classifies_iff (hkey : key ≠ "") (he : Representable e)
    (h : t.lookup key = some e.timestamp) :
    singleUse.Classifies t key e now e' ↔ e.timestamp ≠ now.timestamp := by
  have htake : (singleUse.take now key t).1 =
      .ok (decide (now < e.timestamp * nanosPerSec)) := by
    simp [singleUse, takeSingleUse, hkey, h, ofTimestamp_timestamp he]
  have hput : (singleUse.put now key e' t).1 = .ok (decide (e.timestamp < now.timestamp)) := by
    by_cases hdead : e.timestamp < now.timestamp
    · simp [singleUse, putSingleUse, hkey, h, hdead]
    · simp [singleUse, putSingleUse, hkey, h, hdead]
  have hput' : (singleUse.put now key e' t).1 = .ok false ↔ ¬ e.timestamp < now.timestamp := by
    simp [hput]
  constructor
  · intro hclass hsame
    have hstale : ¬ e.timestamp < now.timestamp := by
      rw [hsame]
      exact Int.lt_irrefl _
    have hlive : now < e := hclass.put.mp (hput'.mpr hstale)
    have hnot : ¬ now < e.timestamp * nanosPerSec := by
      rw [lt_timestamp_iff, hsame]
      exact Int.lt_irrefl _
    have := hclass.take.mpr hlive
    simp [htake, hnot] at this
  · intro hne
    have hrule : now < e ↔ now.timestamp < e.timestamp := lt_iff_of_timestamp_ne hne
    refine ⟨?_, ?_, ?_⟩
    · rw [htake, hrule, ← lt_timestamp_iff]
      simp
    · rw [hput', hrule, Int.not_lt]
      exact ⟨fun hle => lt_of_le_of_ne hle (Ne.symm hne), Int.le_of_lt⟩
    · intro _
      exact ⟨_, hput⟩

end Dynamo

/-! ## Valkey -/

namespace Valkey

variable {t t' : Table String Instant}

/-- A span has a whole second in it. -/
theorem one_le_secs_iff (d : ℤ) : 1 ≤ d.tdiv nanosPerSec ↔ nanosPerSec ≤ d := by
  have hnanos : nanosPerSec = 1000000000 := rfl
  by_cases hneg : 0 ≤ d
  · rw [Int.tdiv_eq_ediv_of_nonneg hneg, hnanos]
    omega
  · have hopp : (-d).tdiv nanosPerSec = -(d.tdiv nanosPerSec) := Int.neg_tdiv d nanosPerSec
    rw [Int.tdiv_eq_ediv_of_nonneg (by omega), hnanos] at hopp
    rw [hnanos]
    omega

/-- When the server drops the record that a claim at `t₀` wrote. -/
def deadline (t₀ e : Instant) : Instant := t₀ + (e - t₀).tdiv nanosPerSec * nanosPerSec

theorem lookup_of_put (h : putSingleUse t₀ key e t = (.ok true, t')) :
    t'.lookup key = some (deadline t₀ e) := by
  unfold putSingleUse at h
  simp only at h
  split at h
  · exact absurd h (by simp)
  · split at h
    · exact absurd h (by simp [storeError])
    · split at h
      · exact absurd h (by simp)
      · obtain ⟨-, rfl⟩ := Prod.mk.inj h
        exact AList.lookup_insert _

/-- A claim that wrote a record was at least a second before its expiry. -/
theorem second_ahead_of_put (h : putSingleUse t₀ key e t = (.ok true, t')) :
    nanosPerSec ≤ e - t₀ := by
  rw [← one_le_secs_iff]
  unfold putSingleUse at h
  simp only at h
  split at h
  · exact absurd h (by simp)
  · split at h
    · exact absurd h (by simp [storeError])
    · rename_i hahead
      exact Int.not_lt.mp hahead

theorem deadline_le (hahead : nanosPerSec ≤ e - t₀) : deadline t₀ e ≤ e := by
  have hint : ∀ a b : ℤ, 1000000000 ≤ b - a →
      a + (b - a).tdiv 1000000000 * 1000000000 ≤ b := by
    intro a b hab
    rw [Int.tdiv_eq_ediv_of_nonneg (by omega)]
    omega
  exact hint t₀ e hahead

theorem lookup_aliveAt {d : Instant} (h : t.lookup key = some d) :
    ((aliveAt now t).lookup key).isSome = decide (now < d) := by
  by_cases hlive : now < d
  · have : (aliveAt now t).lookup key = some d :=
      Table.lookup_deleteWhere_eq_some.mpr ⟨h, by simpa using hlive⟩
    simp [this, hlive]
  · have : (aliveAt now t).lookup key = none := by
      rw [← Option.not_isSome_iff_eq_none, Option.isSome_iff_exists]
      rintro ⟨d', hd'⟩
      obtain ⟨hlookup, hnot⟩ := Table.lookup_deleteWhere_eq_some.mp hd'
      obtain rfl : d = d' := Option.some.inj (h.symm.trans hlookup)
      simp [Int.not_lt.mp hlive] at hnot
    simp [this, hlive]

theorem take_eq (hkey : key ≠ "") {d : Instant} (h : t.lookup key = some d) :
    (singleUse.take now key t).1 = .ok (decide (now < d)) := by
  simp [singleUse, takeSingleUse, hkey, lookup_aliveAt h]

theorem put_eq_error (hkey : key ≠ "") (hshort : ¬ now + nanosPerSec ≤ e') :
    (singleUse.put now key e' t).1 =
      storeError ("refusing to store single-use record with non-future expires_at (ttl_seconds=" ++
        toString ((e' - now).tdiv nanosPerSec) ++ ")") := by
  have hless : (e' - now).tdiv nanosPerSec < singleUseTtlSecondsMin := by
    apply Int.not_le.mp
    intro hle
    have := (one_le_secs_iff _).mp hle
    exact hshort (Int.add_le_of_le_sub_left this)
  simp [singleUse, putSingleUse, hkey, hless]

theorem put_eq_ok (hkey : key ≠ "") (hlong : now + nanosPerSec ≤ e') {d : Instant}
    (h : t.lookup key = some d) :
    (singleUse.put now key e' t).1 = .ok (!decide (now < d)) := by
  have hnot : ¬ (e' - now).tdiv nanosPerSec < singleUseTtlSecondsMin :=
    Int.not_lt.mpr ((one_le_secs_iff _).mpr (Int.le_sub_left_of_add_le hlong))
  have halive : ((aliveAt now t).lookup key).isSome = decide (now < d) := lookup_aliveAt h
  by_cases hlive : now < d
  · obtain ⟨d', hd'⟩ := Option.isSome_iff_exists.mp (halive.trans (decide_eq_true hlive))
    simp [singleUse, putSingleUse, hkey, hnot, hd', hlive]
  · have hnone : (aliveAt now t).lookup key = none := by
      simpa [hlive] using halive
    simp [singleUse, putSingleUse, hkey, hnot, hnone, hlive]

/-- The record is dropped on a whole second after it was written, and no claim is taken for
less than a second. -/
theorem classifies_iff (hkey : key ≠ "") (hahead : nanosPerSec ≤ e - t₀)
    (h : t.lookup key = some (deadline t₀ e)) :
    singleUse.Classifies t key e now e' ↔
      now < deadline t₀ e ∧ now + nanosPerSec ≤ e' ∨
        e ≤ now ∧ (e' ≤ now ∨ now + nanosPerSec ≤ e') := by
  have htake : (singleUse.take now key t).1 = .ok (decide (now < deadline t₀ e)) :=
    take_eq hkey h
  have hdead := deadline_le hahead
  constructor
  · intro hclass
    have hrule : now < deadline t₀ e ↔ now < e := by simpa [htake] using hclass.take
    by_cases hlive : now < e
    · left
      refine ⟨hrule.mpr hlive, ?_⟩
      by_contra hshort
      have hput := hclass.put.mpr hlive
      rw [put_eq_error hkey hshort] at hput
      simp [storeError] at hput
    · right
      refine ⟨Int.not_lt.mp hlive, ?_⟩
      by_contra hneither
      obtain ⟨hnext, hshort⟩ := not_or.mp hneither
      obtain ⟨claimed, hclaimed⟩ := hclass.answered (Int.not_le.mp hnext)
      rw [put_eq_error hkey hshort] at hclaimed
      simp [storeError] at hclaimed
  · rintro (⟨hlive, hlong⟩ | ⟨hpast, hnext⟩)
    · have he : now < e := Int.lt_of_lt_of_le hlive hdead
      have hput := put_eq_ok hkey hlong h
      refine ⟨?_, ?_, ?_⟩
      · simp [htake, hlive, he]
      · simp [hput, hlive, he]
      · intro _
        exact ⟨_, hput⟩
    · have hgone : ¬ now < deadline t₀ e := Int.not_lt.mpr (Int.le_trans hdead hpast)
      have he : ¬ now < e := Int.not_lt.mpr hpast
      refine ⟨?_, ?_, ?_⟩
      · simp [htake, hgone, he]
      · by_cases hlong : now + nanosPerSec ≤ e'
        · simp [put_eq_ok hkey hlong h, hgone, he]
        · simp [put_eq_error hkey hlong, storeError, he]
      · intro hlater
        have hlong : now + nanosPerSec ≤ e' := hnext.resolve_left (Int.not_le.mpr hlater)
        exact ⟨_, put_eq_ok hkey hlong h⟩

end Valkey

/-! ## All stores -/

/-- **When single-use liveness agrees.** Of a record that a claim wrote at `t₀`: LMDB goes by
the port unless it cannot read the year back, SQLite unless the clock shows the expiry itself or
the texts do not sort as the instants, DynamoDB unless the clock is in the second of the expiry,
and Valkey unless the record is already dropped or the next claim is for less than a second. -/
theorem single_use_classification (text : Instant → String) (key : String)
    (e now e' t₀ : Instant) (hkey : key ≠ "") (he : Representable e)
    (hinj : text e = text now → e = now) :
    (∀ t t', Lmdb.putSingleUse t₀ key e t = (.ok true, t') →
      (Lmdb.singleUse.Classifies t' key e now e' ↔ FourDigitYear e ∨ e ≤ now ∧ e' ≤ now)) ∧
    (∀ t t', Sqlite.putSingleUse text t₀ key e t = (.ok true, t') →
      ((Sqlite.singleUse text).Classifies t' key e now e' ↔
        e ≠ now ∧ (text now < text e ↔ now < e))) ∧
    (∀ t t', Dynamo.putSingleUse t₀ key e t = (.ok true, t') →
      (Dynamo.singleUse.Classifies t' key e now e' ↔ e.timestamp ≠ now.timestamp)) ∧
    (∀ t t', Valkey.putSingleUse t₀ key e t = (.ok true, t') →
      (Valkey.singleUse.Classifies t' key e now e' ↔
        now < Valkey.deadline t₀ e ∧ now + nanosPerSec ≤ e' ∨
          e ≤ now ∧ (e' ≤ now ∨ now + nanosPerSec ≤ e'))) := by
  refine ⟨?_, ?_, ?_, ?_⟩
  · intro t t' hput
    exact Lmdb.classifies_iff hkey (Lmdb.lookup_of_put hput)
  · intro t t' hput
    exact Sqlite.classifies_iff hkey hinj (Sqlite.lookup_of_put hput)
  · intro t t' hput
    exact Dynamo.classifies_iff hkey he (Dynamo.lookup_of_put hput)
  · intro t t' hput
    exact Valkey.classifies_iff hkey (Valkey.second_ahead_of_put hput) (Valkey.lookup_of_put hput)

namespace SingleUseSample

/-- 2023-11-14T22:13:20Z -/
def expiry : Instant := 1700000000000000000

/-- Ten seconds before. -/
def claimed : Instant := 1699999990000000000

/-- Half a second after. -/
def halfSecondLater : Instant := 1700000000500000000

/-- The texts of these instants. -/
def rfc3339 (t : Instant) : String :=
  if t = claimed then "2023-11-14T22:13:10+00:00"
  else if t = expiry then "2023-11-14T22:13:20+00:00"
  else "2023-11-14T22:13:20.500+00:00"

def nonceKey : String := "nonce:1"

end SingleUseSample

open SingleUseSample

/-- Ten seconds before the expiry every store goes by the port. -/
theorem single_use_classification_ahead :
    Lmdb.singleUse.Classifies (Lmdb.putSingleUse claimed nonceKey expiry ∅).2 nonceKey expiry
      claimed expiry ∧
    (Sqlite.singleUse rfc3339).Classifies
      (Sqlite.putSingleUse rfc3339 claimed nonceKey expiry ∅).2 nonceKey expiry claimed expiry ∧
    Dynamo.singleUse.Classifies (Dynamo.putSingleUse claimed nonceKey expiry ∅).2 nonceKey expiry
      claimed expiry ∧
    Valkey.singleUse.Classifies (Valkey.putSingleUse claimed nonceKey expiry ∅).2 nonceKey expiry
      claimed expiry := by
  obtain ⟨hlmdb, hsqlite, hdynamo, hvalkey⟩ :=
    single_use_classification rfc3339 nonceKey expiry claimed expiry claimed (by decide +kernel)
      (by decide +kernel) (by decide +kernel)
  exact ⟨(hlmdb ∅ _ rfl).mpr (by decide +kernel), (hsqlite ∅ _ rfl).mpr (by decide +kernel),
    (hdynamo ∅ _ rfl).mpr (by decide +kernel), (hvalkey ∅ _ rfl).mpr (by decide +kernel)⟩

/-- Records that a store neither burns nor gives up, and claims it answers with an error: at the
instant of the expiry (SQLite), within its second (DynamoDB), for the year 10000 (LMDB) and for
half a second (Valkey). -/
theorem single_use_misclassified :
    (∃ t, Sqlite.putSingleUse rfc3339 claimed nonceKey expiry ∅ = (.ok true, t) ∧
      (Sqlite.takeSingleUse rfc3339 expiry nonceKey t).1 = .ok false ∧
      (Sqlite.putSingleUse rfc3339 expiry nonceKey halfSecondLater t).1 = .ok false) ∧
    (∃ t, Dynamo.putSingleUse claimed nonceKey expiry ∅ = (.ok true, t) ∧
      (Dynamo.takeSingleUse halfSecondLater nonceKey t).1 = .ok false ∧
      (Dynamo.putSingleUse halfSecondLater nonceKey (halfSecondLater + nanosPerSec) t).1 =
        .ok false) ∧
    (∃ t, Lmdb.putSingleUse claimed nonceKey yearTenThousand ∅ = (.ok true, t) ∧
      (Lmdb.putSingleUse claimed nonceKey expiry t).1 =
        storeError "single_use record has unparsable expiry: input contains invalid characters") ∧
    (Valkey.putSingleUse expiry nonceKey halfSecondLater ∅).1 =
      storeError "refusing to store single-use record with non-future expires_at (ttl_seconds=0)" := by
  refine ⟨⟨_, rfl, ?_, ?_⟩, ⟨_, rfl, ?_, ?_⟩, ⟨_, rfl, ?_⟩, ?_⟩
  · decide +kernel
  · decide +kernel
  · decide +kernel
  · decide +kernel
  · decide +kernel
  · decide +kernel

end OidcExchange
