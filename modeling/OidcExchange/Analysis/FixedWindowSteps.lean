import OidcExchange.Adapters.RateLimits

/-!
# Steps of the public limiter

What a check does to the bucket of its own key and to those of the others. A key that is not
displaced stays metered, and its own checks are answered by the window of its hits.
-/

set_option autoImplicit false

namespace OidcExchange

open Storage Interleaving Throttling

variable {l : FixedWindowRateLimiter} {key key' : ThrottleKey} {now : ℕ} {hits : List ℕ}
  {state : Table ThrottleKey Bucket}

/-! ## The map -/

/-- The key that a new one displaces. -/
def FixedWindowRateLimiter.victim (l : FixedWindowRateLimiter) (key : ThrottleKey)
    (state : Table ThrottleKey Bucket) : Option ThrottleKey :=
  if l.full key state then oldestKey state else none

theorem mem_of_oldestKey {κ : Type} {t : Table κ Bucket} {k : κ} (h : oldestKey t = some k) :
    k ∈ t.keys := by
  obtain ⟨e, he, rfl⟩ := Option.map_eq_some_iff.mp h
  exact List.mem_map_of_mem (List.argmin_mem he)

theorem oldestKey_isSome {κ : Type} {t : Table κ Bucket} (h : 0 < t.entries.length) :
    ∃ k, oldestKey t = some k := by
  cases holdest : t.entries.argmin fun e => e.2.startedAt with
  | none =>
    rw [List.argmin_eq_none.mp holdest] at h
    exact absurd h (Nat.lt_irrefl 0)
  | some e => exact ⟨e.1, by rw [oldestKey, holdest]; rfl⟩

/-- The key that is making room is not among the others. -/
theorem evict_eq (l : FixedWindowRateLimiter) (key : ThrottleKey)
    (state : Table ThrottleKey Bucket) :
    l.evict key state = (l.victim key state).elim state state.erase := by
  rw [FixedWindowRateLimiter.evict, FixedWindowRateLimiter.victim]
  split <;> rfl

/-- A key that is not displaced is kept. -/
theorem lookup_evict (h : l.victim key state ≠ some key') :
    (l.evict key state).lookup key' = state.lookup key' := by
  rw [evict_eq]
  cases hvictim : l.victim key state with
  | none => rfl
  | some other =>
    rw [hvictim] at h
    exact AList.lookup_erase_ne fun heq => h (congrArg some heq.symm)

/-- A key never displaces itself. -/
theorem victim_ne_self : l.victim key state ≠ some key := by
  rw [FixedWindowRateLimiter.victim]
  intro h
  split at h
  · rename_i hfull
    rw [FixedWindowRateLimiter.full, Bool.and_eq_true, Option.isNone_iff_eq_none] at hfull
    have hmem := mem_of_oldestKey h
    rw [← AList.mem_keys, ← AList.lookup_isSome, hfull.1] at hmem
    exact absurd hmem (by simp)
  · exact nomatch h

theorem length_retain_le : (l.retain now state).entries.length ≤ state.entries.length :=
  List.length_filter_le _ _

/-- After making room a new key fits. -/
theorem length_evict_insert (h : state.entries.length ≤ l.maxEntries) (bucket : Bucket) :
    ((l.evict key state).insert key bucket).entries.length ≤ l.maxEntries := by
  rw [Table.length_insert, lookup_evict victim_ne_self, evict_eq]
  cases hkept : state.lookup key with
  | some kept =>
    have hvictim : l.victim key state = none := by
      simp [FixedWindowRateLimiter.victim, FixedWindowRateLimiter.full, hkept]
    rw [hvictim]
    exact h
  | none =>
    by_cases hfull : state.entries.length = l.maxEntries
    · obtain ⟨oldest, holdest⟩ := oldestKey_isSome (t := state) (hfull ▸ l.maxEntries_pos)
      have hvictim : l.victim key state = some oldest := by
        simp [FixedWindowRateLimiter.victim, FixedWindowRateLimiter.full, hkept, hfull, holdest]
      have hlength := Table.length_erase (mem_of_oldestKey holdest)
      rw [hvictim]
      simp only [Option.elim_some, Option.isSome_none, Bool.false_eq_true, if_false]
      omega
    · have hvictim : l.victim key state = none := by
        simp [FixedWindowRateLimiter.victim, FixedWindowRateLimiter.full, hfull]
      rw [hvictim]
      simp only [Option.elim_none, Option.isSome_none, Bool.false_eq_true, if_false]
      omega

/-! ## Meters -/

/-- A bucket is retained exactly while its window is open. -/
theorem lookup_retain {bucket : Bucket} :
    (l.retain now state).lookup key = some bucket ↔
      state.lookup key = some bucket ∧ now - bucket.startedAt < l.window := by
  unfold FixedWindowRateLimiter.retain
  rw [Table.lookup_deleteWhere_eq_some]
  simp

/-- What is retained still meters the key. -/
theorem meters_retain {budget : ℕ} (h : Meters l.window budget now hits (state.lookup key)) :
    Meters l.window budget now hits ((l.retain now state).lookup key) := by
  cases hkept : (l.retain now state).lookup key with
  | some bucket =>
    rw [← (lookup_retain.mp hkept).1]
    exact h
  | none =>
    cases hlookup : state.lookup key with
    | none =>
      rw [hlookup] at h
      exact h
    | some bucket =>
      rw [hlookup] at h
      apply h.dropped
      intro hopen
      rw [lookup_retain.mpr ⟨hlookup, hopen⟩] at hkept
      exact nomatch hkept


/-- The key that a call displaces. -/
def FixedWindowRateLimiter.displaces (l : FixedWindowRateLimiter) (call : CheckCall)
    (state : Table ThrottleKey Bucket) : Option ThrottleKey :=
  match call.key with
  | .operatorAuth _ => none
  | .throttle key =>
    if (l.budgets.forKey key).toNat = 0 then none else l.victim key (l.retain call.now state)

/-- The answer to a call whose key has had the hits, newest first. -/
def FixedWindowRateLimiter.verdict (l : FixedWindowRateLimiter) (key : ThrottleKey)
    (hits : List ℕ) (now : ℕ) : CheckAnswer :=
  ⟨some (if (standing l.window hits now).2 ≤ (l.budgets.forKey key).toNat then .allow
    else .deny (remainingSecs l.window (now - (standing l.window hits now).1))),
    some (standing l.window hits now).1⟩

/-- A budget of zero admits everything and stores nothing. -/
theorem checkAt_zero (h : (l.budgets.forKey key).toNat = 0) :
    l.checkAt key now state = (.allow, state) := by
  rw [FixedWindowRateLimiter.checkAt, if_pos h]

/-- A check with a budget draws on the bucket that is kept, or on a new one. -/
theorem checkAt_eq (h : (l.budgets.forKey key).toNat ≠ 0) {bucket : Bucket}
    (hbucket : ((l.retain now state).lookup key).getD ⟨now, 0⟩ = bucket) :
    l.checkAt key now state =
      if bucket.consumed < (l.budgets.forKey key).toNat then
        (.allow, (l.evict key (l.retain now state)).insert key
          { bucket with consumed := bucket.consumed + 1 })
      else (.deny (remainingSecs l.window (now - bucket.startedAt)),
        (l.evict key (l.retain now state)).insert key bucket) := by
  rw [FixedWindowRateLimiter.checkAt, if_neg h]
  simp only [lookup_evict victim_ne_self, hbucket]

/-- A check leaves the meters of the keys that it does not displace. -/
theorem meters_checkAt_ne {budget : ℕ} (hne : key' ≠ key)
    (hvictim : l.victim key (l.retain now state) ≠ some key')
    (h : Meters l.window budget now hits (state.lookup key')) :
    Meters l.window budget now hits ((l.checkAt key now state).2.lookup key') := by
  by_cases hbudget : (l.budgets.forKey key).toNat = 0
  · rw [checkAt_zero hbudget]
    exact h
  · have hkept := meters_retain h
    rw [← lookup_evict hvictim] at hkept
    rw [checkAt_eq hbudget rfl]
    split
    · rw [AList.lookup_insert_ne hne]
      exact hkept
    · rw [AList.lookup_insert_ne hne]
      exact hkept

/-- **A check of a key with a budget** is answered by the window of its hits, and is one more. -/
theorem checkAt_verdict (hbudget : 0 < (l.budgets.forKey key).toNat)
    (h : Meters l.window (l.budgets.forKey key).toNat now hits (state.lookup key)) :
    l.verdict key hits now = ⟨some (l.checkAt key now state).1,
        ((l.checkAt key now state).2.lookup key).map Bucket.startedAt⟩ ∧
      Meters l.window (l.budgets.forKey key).toNat now (now :: hits)
        ((l.checkAt key now state).2.lookup key) := by
  have hkept := meters_retain h
  have hnonzero : (l.budgets.forKey key).toNat ≠ 0 := Nat.ne_of_gt hbudget
  rw [FixedWindowRateLimiter.verdict]
  cases hlookup : (l.retain now state).lookup key with
  | none =>
    rw [hlookup] at hkept
    have hbucket : ((l.retain now state).lookup key).getD ⟨now, 0⟩ = ⟨now, 0⟩ := by
      rw [hlookup]
      rfl
    rw [checkAt_eq hnonzero hbucket, if_pos hbudget, AList.lookup_insert,
      standing_of_closed hkept]
    refine ⟨?_, hkept.opened hbudget⟩
    simp only [if_pos (Nat.succ_le_of_lt hbudget), Option.map_some]
  | some bucket =>
    rw [hlookup] at hkept
    have hopen := (lookup_retain.mp hlookup).2
    have hhit := hkept.hit hopen
    obtain ⟨n, hwindow, hconsumed⟩ := hkept
    have hbucket : ((l.retain now state).lookup key).getD ⟨now, 0⟩ = bucket := by
      rw [hlookup]
      rfl
    rw [checkAt_eq hnonzero hbucket, standing_of_open hwindow hopen]
    by_cases hleft : bucket.consumed < (l.budgets.forKey key).toNat
    · have hmin : min (bucket.consumed + 1) (l.budgets.forKey key).toNat =
          bucket.consumed + 1 := by omega
      rw [hmin] at hhit
      rw [if_pos hleft, AList.lookup_insert]
      refine ⟨?_, hhit⟩
      simp only [if_pos (show n + 1 ≤ (l.budgets.forKey key).toNat by omega), Option.map_some]
    · have hmin : min (bucket.consumed + 1) (l.budgets.forKey key).toNat = bucket.consumed := by
        omega
      rw [hmin] at hhit
      rw [if_neg hleft, AList.lookup_insert]
      refine ⟨?_, hhit⟩
      simp only [if_neg (show ¬ n + 1 ≤ (l.budgets.forKey key).toNat by omega), Option.map_some]

end OidcExchange
