import OidcExchange.Analysis.LimiterPoisoning
import OidcExchange.Analysis.PublicLimits

/-!
# The delay after a denial

A denial tells in whole seconds when to come again, rounded down and at least one. The delay is
never more than a second over what it has to be; it is long enough where what is left is a whole
number of seconds or less than one. A failure that begins a phase reports what was left of the one
before.
-/

set_option autoImplicit false

namespace OidcExchange

open Storage Interleaving Throttling

/-- The instant that a denial names. -/
def comingAgain (now secs : ℕ) : ℕ := now + secs * nanosPerSec.toNat

/-- What is left of a lifetime is a whole number of seconds, or at most one. -/
def WholeSecondsLeft (lifetime startedAt now : ℕ) : Prop :=
  startedAt + lifetime ≤ now + nanosPerSec.toNat ∨
    (startedAt ≤ now ∧ nanosPerSec.toNat ∣ startedAt + lifetime - now)

/-- A call that is denied at an instant is admitted after the delay it is told, and the delay is
at most one second more than the least there is. -/
def RetryHonest {κ α σ : Type} (S : Interleaving.Service κ α σ) (decision : α → Option RateLimitDecision)
    (state : σ) (call : κ) (later : ℕ → κ) : Prop :=
  ∀ secs, decision (S.serve call state).1 = some (.deny secs) →
    ∀ state', S.rearranges (S.serve call state).2 state' →
      decision (S.serve (later secs) state').1 = some .allow ∧
        ∀ less, decision (S.serve (later less) state').1 = some .allow → secs ≤ less + 1

/-! ## Rounding -/

section Rounding

variable {lifetime startedAt now less elapsed : ℕ}

/-- The delay covers what is left exactly where nothing is lost in rounding. -/
theorem remainingSecs_covers (hopen : now - startedAt < lifetime) :
    startedAt + lifetime ≤ comingAgain now (remainingSecs lifetime (now - startedAt)) ↔
      WholeSecondsLeft lifetime startedAt now := by
  have hnanos : nanosPerSec.toNat = 1000000000 := rfl
  rw [comingAgain, remainingSecs, WholeSecondsLeft, hnanos]
  omega

/-- A whole lifetime is covered by the delay of a part of it only within a second. -/
theorem remainingSecs_short (helapsed : 0 < elapsed) (hopen : elapsed < lifetime) :
    now + lifetime ≤ comingAgain now (remainingSecs lifetime elapsed) ↔
      lifetime ≤ nanosPerSec.toNat := by
  have hnanos : nanosPerSec.toNat = 1000000000 := rfl
  rw [comingAgain, remainingSecs, hnanos]
  omega

/-- The delay is at most one more than any that covers what is left. -/
theorem remainingSecs_le (h : lifetime - elapsed ≤ less * nanosPerSec.toNat) :
    remainingSecs lifetime elapsed ≤ less + 1 := by
  have hnanos : nanosPerSec.toNat = 1000000000 := rfl
  rw [hnanos] at h
  rw [remainingSecs, hnanos]
  omega

end Rounding

/-! ## Denials -/

section Honest

variable {κ α σ : Type} {S : Interleaving.Service κ α σ} {decision : α → Option RateLimitDecision} {state : σ}
  {call : κ} {later : ℕ → κ} {secs due now : ℕ} {admits : Prop}

/-- What is not denied is told no delay. -/
theorem retryHonest_of_not_denied (h : ∀ secs, decision (S.serve call state).1 ≠ some (.deny secs)) :
    RetryHonest S decision state call later :=
  fun secs hdenied => absurd hdenied (h secs)

/-- A denial is honest exactly where its delay reaches the instant from which on there is
admission. -/
theorem retryHonest_iff (hdenied : decision (S.serve call state).1 = some (.deny secs))
    (hrefl : ∀ s, S.rearranges s s)
    (hlater : ∀ state', S.rearranges (S.serve call state).2 state' → ∀ n,
      decision (S.serve (later n) state').1 = some .allow ↔ admits ∧ due ≤ comingAgain now n)
    (hleast : ∀ less, due ≤ comingAgain now less → secs ≤ less + 1) :
    RetryHonest S decision state call later ↔ admits ∧ due ≤ comingAgain now secs := by
  constructor
  · intro h
    exact (hlater _ (hrefl _) secs).mp (h secs hdenied _ (hrefl _)).1
  · intro hcovers secs' hdenied' state' hsame
    obtain rfl : secs = secs' := by
      have heq := hdenied.symm.trans hdenied'
      injection heq with heq
      injection heq
    refine ⟨(hlater state' hsame secs).mpr hcovers, fun less hless => ?_⟩
    exact hleast less ((hlater state' hsame less).mp hless).2

end Honest

/-! ## The public limiter -/

namespace FixedWindowRateLimiter

variable {l : FixedWindowRateLimiter} {key : ThrottleKey} {now later : ℕ} {bucket : Bucket}
  {state : Table ThrottleKey Bucket}

/-- A window that is open without a unit left is left at a whole number of seconds. -/
def WaitsWhole (l : FixedWindowRateLimiter) (call : CheckCall) (state : Table ThrottleKey Bucket) :
    Prop :=
  ∀ key bucket, call.key = .throttle key → (l.budgets.forKey key).toNat ≠ 0 →
    (l.retain call.now state).lookup key = some bucket →
      (l.budgets.forKey key).toNat ≤ bucket.consumed →
        WholeSecondsLeft l.window bucket.startedAt call.now

/-- A window without a unit left denies, and stays. -/
theorem checkAt_spent (hbudget : (l.budgets.forKey key).toNat ≠ 0)
    (hkept : (l.retain now state).lookup key = some bucket)
    (hspent : (l.budgets.forKey key).toNat ≤ bucket.consumed) :
    (l.checkAt key now state).1 = .deny (remainingSecs l.window (now - bucket.startedAt)) ∧
      (l.checkAt key now state).2.lookup key = some bucket := by
  have hbucket : ((l.retain now state).lookup key).getD ⟨now, 0⟩ = bucket := by
    rw [hkept]
    rfl
  rw [checkAt_eq hbudget hbucket, if_neg (Nat.not_lt.mpr hspent)]
  exact ⟨rfl, AList.lookup_insert _⟩

/-- Otherwise nothing is denied. -/
theorem checkAt_unspent (h : (l.budgets.forKey key).toNat = 0 ∨
    ∀ bucket, (l.retain now state).lookup key = some bucket →
      bucket.consumed < (l.budgets.forKey key).toNat) :
    (l.checkAt key now state).1 = .allow := by
  by_cases hbudget : (l.budgets.forKey key).toNat = 0
  · rw [checkAt_zero hbudget]
  · have hleft := h.resolve_left hbudget
    rw [checkAt_eq hbudget rfl]
    cases hkept : (l.retain now state).lookup key with
    | some bucket => rw [Option.getD_some, if_pos (hleft bucket hkept)]
    | none => rw [Option.getD_none, if_pos (Nat.pos_of_ne_zero hbudget)]

/-- A spent window admits again from its end on. -/
theorem checkAt_later_iff (hbudget : (l.budgets.forKey key).toNat ≠ 0)
    (hkept : state.lookup key = some bucket)
    (hspent : (l.budgets.forKey key).toNat ≤ bucket.consumed) :
    (l.checkAt key later state).1 = .allow ↔ bucket.startedAt + l.window ≤ later := by
  by_cases hopen : later - bucket.startedAt < l.window
  · obtain ⟨hdenied, -⟩ := checkAt_spent hbudget (lookup_retain.mpr ⟨hkept, hopen⟩) hspent
    rw [hdenied]
    have hpos := l.window_pos
    simp only [reduceCtorEq, false_iff]
    omega
  · have hallowed : (l.checkAt key later state).1 = .allow := by
      refine checkAt_unspent (Or.inr fun bucket' hbucket' => ?_)
      obtain ⟨hsame, hstill⟩ := lookup_retain.mp hbucket'
      obtain rfl := Option.some.inj (hkept.symm.trans hsame)
      exact absurd hstill hopen
    have hpos := l.window_pos
    exact iff_of_true hallowed (by omega)

/-- **The delay of the public limiter** is honest exactly where nothing is lost in rounding. -/
theorem retryHonest_iff_waitsWhole (l : FixedWindowRateLimiter) (call : CheckCall)
    (state : Table ThrottleKey Bucket) :
    RetryHonest l.service CheckAnswer.decision state call
        (fun secs => { call with now := comingAgain call.now secs }) ↔ l.WaitsWhole call state := by
  obtain ⟨key, now⟩ := call
  cases key with
  | operatorAuth peer =>
    exact iff_of_true (retryHonest_of_not_denied fun secs h => nomatch h)
      fun key bucket h => nomatch h
  | throttle key =>
    by_cases hspends : (l.budgets.forKey key).toNat ≠ 0 ∧ ∃ bucket,
        (l.retain now state).lookup key = some bucket ∧
          (l.budgets.forKey key).toNat ≤ bucket.consumed
    · obtain ⟨hbudget, bucket, hkept, hspent⟩ := hspends
      obtain ⟨hdenied, hafter⟩ := checkAt_spent hbudget hkept hspent
      have hlater : ∀ state', Rehashed (l.checkAt key now state).2 state' → ∀ n,
          some (l.checkAt key (comingAgain now n) state').1 = some RateLimitDecision.allow ↔
            True ∧ bucket.startedAt + l.window ≤ comingAgain now n := by
        intro state' hsame n
        have hkept' : state'.lookup key = some bucket := by
          rw [← AList.perm_lookup hsame]
          exact hafter
        rw [true_and, Option.some_inj]
        exact checkAt_later_iff hbudget hkept' hspent
      have hleast : ∀ less, bucket.startedAt + l.window ≤ comingAgain now less →
          remainingSecs l.window (now - bucket.startedAt) ≤ less + 1 := by
        intro less hless
        rw [comingAgain] at hless
        exact remainingSecs_le (by omega)
      have hiff := @retryHonest_iff _ _ _ l.service CheckAnswer.decision state ⟨.throttle key, now⟩
        (fun secs => ⟨.throttle key, comingAgain now secs⟩) _ _ now True (congrArg some hdenied)
        (fun s => List.Perm.refl s.entries) hlater hleast
      refine hiff.trans ?_
      rw [true_and, remainingSecs_covers (lookup_retain.mp hkept).2]
      constructor
      · intro hwhole key' bucket' hkey _ hkept' _
        cases hkey
        obtain rfl := Option.some.inj (hkept.symm.trans hkept')
        exact hwhole
      · intro hwaits
        exact hwaits key bucket rfl hbudget hkept hspent
    · have hallowed : (l.checkAt key now state).1 = .allow := by
        refine checkAt_unspent ?_
        by_cases hbudget : (l.budgets.forKey key).toNat = 0
        · exact Or.inl hbudget
        · refine Or.inr fun bucket hbucket => Nat.lt_of_not_le fun hspent => ?_
          exact hspends ⟨hbudget, bucket, hbucket, hspent⟩
      refine iff_of_true (retryHonest_of_not_denied fun secs h => ?_)
        fun key' bucket hkey hbudget hkept hspent => ?_
      · exact nomatch (Option.some.inj h).symm.trans hallowed
      · cases hkey
        exact absurd ⟨hbudget, bucket, hkept, hspent⟩ hspends

end FixedWindowRateLimiter


/-! ## The limiter of the operator plane -/

namespace AdminAuthRateLimiter

variable {l : AdminAuthRateLimiter} {kind : PeerCallKind} {now later : ℕ} {bucket : Bucket}
  {kept : Option Bucket} {state : PeerBuckets} {call : PeerCall}

/-- A call for which no unit is left, or that spends the last one. -/
def Spends (l : AdminAuthRateLimiter) (kind : PeerCallKind) (bucket : Bucket) (now : ℕ) : Prop :=
  match kind with
  | .check => l.maxAuthFailures ≤ bucket.consumed
  | .consume => l.maxAuthFailures ≤ (l.rolled bucket now l.span).consumed + 1

/-- Whether a failure begins a phase. -/
def Rolls (l : AdminAuthRateLimiter) (kind : PeerCallKind) (bucket : Bucket) (now : ℕ) : Prop :=
  kind = .consume ∧ l.rolled bucket now l.span ≠ bucket

/-- What is denied is left at a whole number of seconds; a failure that begins a phase is denied
only where a whole phase lasts for no more than one. A later failure is admitted where a unit does
not lock out. -/
def WaitsWhole (l : AdminAuthRateLimiter) (call : PeerCall) (kind : PeerCallKind)
    (state : PeerBuckets) : Prop :=
  state.poisoned = false → l.span ≤ maxDuration →
    l.SparesNewcomer call.peer call.now state.peers →
      ∀ bucket, l.entered call.now (state.peers.lookup call.peer) = bucket →
        l.Spends call.kind bucket call.now →
          (kind = .consume → 1 < l.maxAuthFailures) ∧
            (l.Rolls call.kind bucket call.now → l.span ≤ nanosPerSec.toNat) ∧
            (¬ l.Rolls call.kind bucket call.now →
              WholeSecondsLeft l.span bucket.startedAt call.now)

/-- A spent bucket does not roll over before it has run out. -/
theorem rolled_of_spent (hspent : l.maxAuthFailures ≤ bucket.consumed)
    (halive : now - bucket.startedAt < l.span) : l.rolled bucket now l.span = bucket := by
  rw [rolled, if_neg]
  omega

/-- A failure that begins a phase comes after the window of the phase before. -/
theorem rolled_of_ne (halive : now - bucket.startedAt < l.span)
    (h : l.rolled bucket now l.span ≠ bucket) :
    l.rolled bucket now l.span = ⟨now, 0⟩ ∧ 0 < now - bucket.startedAt := by
  have hwindow := l.failureWindow_pos
  rw [rolled] at h ⊢
  split at h
  · rename_i hover
    rw [if_pos hover]
    exact ⟨rfl, by omega⟩
  · exact absurd rfl h

/-- A denial leaves a spent bucket, and its delay is what was left of the bucket before. -/
theorem ruling_of_spends (halive : now - bucket.startedAt < l.span)
    (hspends : l.Spends kind bucket now) :
    (l.ruling kind bucket now).1 = .deny (remainingSecs l.span (now - bucket.startedAt)) ∧
      l.maxAuthFailures ≤ (l.ruling kind bucket now).2.consumed ∧
      (kind = .check → (l.ruling kind bucket now).2.startedAt = bucket.startedAt) ∧
      (kind = .consume → (l.ruling kind bucket now).2.startedAt =
        (l.rolled bucket now l.span).startedAt) := by
  cases kind with
  | check =>
    have hno : ¬ (bucket.consumed < l.maxAuthFailures ∨ l.span ≤ now - bucket.startedAt) := by
      rw [Spends] at hspends
      omega
    exact ⟨by rw [ruling, decisionAt, if_neg hno], hspends, fun _ => rfl, fun h => by cases h⟩
  | consume =>
    rw [Spends] at hspends
    simp only [ruling, recorded]
    by_cases hleft : (l.rolled bucket now l.span).consumed < l.maxAuthFailures
    · simp only [if_pos hleft, if_pos hspends]
      exact ⟨trivial, hspends, fun h => (by cases h), fun _ => trivial⟩
    · simp only [if_neg hleft]
      exact ⟨trivial, Nat.le_of_not_lt hleft, fun h => (by cases h), fun _ => trivial⟩

/-- Otherwise nothing is denied. -/
theorem ruling_of_not_spends (h : ¬ l.Spends kind bucket now) :
    (l.ruling kind bucket now).1 = .allow := by
  cases kind with
  | check =>
    rw [Spends, Nat.not_le] at h
    rw [ruling, decisionAt, if_pos (Or.inl h)]
  | consume =>
    rw [Spends, Nat.not_le] at h
    simp only [ruling, recorded]
    rw [if_pos (Nat.lt_of_succ_lt h), if_neg (Nat.not_le.mpr h)]

/-- A spent bucket admits again once it has run out. -/
theorem ruling_later_iff (hspent : l.maxAuthFailures ≤ bucket.consumed) :
    (l.ruling kind (l.entered later (some bucket)) later).1 = .allow ↔
      (kind = .consume → 1 < l.maxAuthFailures) ∧ bucket.startedAt + l.span ≤ later := by
  have hpos := l.span_pos
  by_cases halive : later - bucket.startedAt < l.span
  · have hentered : l.entered later (some bucket) = bucket := by
      have htrue : l.alive later bucket = true := decide_eq_true halive
      rw [entered, Option.filter_some, if_pos htrue, Option.getD_some]
    have hspends : l.Spends kind bucket later := by
      cases kind with
      | check => exact hspent
      | consume =>
        rw [Spends, rolled_of_spent hspent halive]
        exact Nat.le_succ_of_le hspent
    rw [hentered, (ruling_of_spends halive hspends).1]
    simp only [reduceCtorEq, false_iff, not_and]
    omega
  · have hentered : l.entered later (some bucket) = ⟨later, 0⟩ := by
      have hnot : ¬ l.alive later bucket = true := fun h => halive (of_decide_eq_true h)
      rw [entered, Option.filter_some, if_neg hnot, Option.getD_none]
    have hstill : later - later < l.span := by omega
    have hspends_iff : l.Spends kind ⟨later, 0⟩ later ↔
        kind = .consume ∧ l.maxAuthFailures ≤ 1 := by
      have hleast := l.maxAuthFailures_pos
      have hrolled : l.rolled ⟨later, 0⟩ later l.span = ⟨later, 0⟩ := by
        rw [rolled]
        split <;> rfl
      cases kind with
      | check => simp [Spends, Nat.pos_iff_ne_zero.mp hleast]
      | consume => simp [Spends, hrolled]
    rw [hentered]
    have hover : bucket.startedAt + l.span ≤ later := by omega
    by_cases hspends : l.Spends kind ⟨later, 0⟩ later
    · rw [(ruling_of_spends hstill hspends).1]
      obtain ⟨rfl, hone⟩ := hspends_iff.mp hspends
      simp only [reduceCtorEq, false_iff, not_and]
      intro hmore
      exact absurd (hmore trivial) (Nat.not_lt_of_le hone)
    · refine iff_of_true (ruling_of_not_spends hspends) ⟨fun hkind => ?_, hover⟩
      exact Nat.lt_of_not_le fun hone => hspends (hspends_iff.mpr ⟨hkind, hone⟩)

/-- The bucket that a denial leaves began with its call, or when the one before did. -/
theorem ruling_startedAt (halive : now - bucket.startedAt < l.span)
    (hspends : l.Spends kind bucket now) :
    (l.Rolls kind bucket now ∧ 0 < now - bucket.startedAt ∧
        (l.ruling kind bucket now).2.startedAt = now) ∨
      (¬ l.Rolls kind bucket now ∧
        (l.ruling kind bucket now).2.startedAt = bucket.startedAt) := by
  obtain ⟨-, -, hcheck, hconsume⟩ := ruling_of_spends halive hspends
  by_cases hrolls : l.Rolls kind bucket now
  · obtain ⟨hrolled, helapsed⟩ := rolled_of_ne halive hrolls.2
    have hstart := hconsume hrolls.1
    rw [hrolled] at hstart
    exact Or.inl ⟨hrolls, helapsed, hstart⟩
  · refine Or.inr ⟨hrolls, ?_⟩
    cases kind with
    | check => exact hcheck rfl
    | consume =>
      have hsame : l.rolled bucket now l.span = bucket := by
        by_contra hne
        exact hrolls ⟨rfl, hne⟩
      rw [hconsume rfl, hsame]

/-- The delay reaches the end of the bucket that the denial leaves exactly where nothing is lost in
rounding, and in no phase that is only beginning. -/
theorem remainingSecs_reaches (halive : now - bucket.startedAt < l.span)
    (hspends : l.Spends kind bucket now) :
    (l.ruling kind bucket now).2.startedAt + l.span ≤
        comingAgain now (remainingSecs l.span (now - bucket.startedAt)) ↔
      (l.Rolls kind bucket now → l.span ≤ nanosPerSec.toNat) ∧
        (¬ l.Rolls kind bucket now → WholeSecondsLeft l.span bucket.startedAt now) := by
  obtain ⟨hrolls, helapsed, hstart⟩ | ⟨hrolls, hstart⟩ := ruling_startedAt halive hspends
  · rw [hstart, remainingSecs_short helapsed halive]
    simp only [hrolls, not_true_eq_false, false_implies, true_implies, and_true]
  · rw [hstart, remainingSecs_covers halive]
    simp only [hrolls, not_false_eq_true, false_implies, true_implies, true_and]

/-- It is at most one more than any that reaches it. -/
theorem remainingSecs_least (halive : now - bucket.startedAt < l.span)
    (hspends : l.Spends kind bucket now) {less : ℕ}
    (hless : (l.ruling kind bucket now).2.startedAt + l.span ≤ comingAgain now less) :
    remainingSecs l.span (now - bucket.startedAt) ≤ less + 1 := by
  apply remainingSecs_le
  rw [comingAgain] at hless
  obtain ⟨-, -, hstart⟩ | ⟨-, hstart⟩ := ruling_startedAt halive hspends
  · omega
  · omega

end AdminAuthRateLimiter


namespace AdminAuthRateLimiter

variable {l : AdminAuthRateLimiter} {peer : String} {now : ℕ} {bucket : Bucket}
  {peers : Table String Bucket}

/-- A peer that is tracked makes room for itself when it has run out. -/
theorem sparesNewcomer_of_tracked (hkept : peers.lookup peer = some bucket)
    (hbound : peers.entries.length ≤ maxTrackedPeers) : l.SparesNewcomer peer now peers := by
  intro habsent hfull
  have hdropped : (l.living now peers).entries.length < peers.entries.length := by
    refine List.length_filter_lt_length_iff_exists.mpr
      ⟨⟨peer, bucket⟩, AList.mem_lookup_iff.mp hkept, fun hkeeps => ?_⟩
    have hstill : (l.living now peers).lookup peer = some bucket :=
      AList.mem_lookup_iff.mpr (List.mem_filter.mpr ⟨AList.mem_lookup_iff.mp hkept, hkeeps⟩)
    exact nomatch habsent.symm.trans hstill
  omega

/-- The answer where a call is refused nothing: under a broken lock, without a lifetime, or where
it panics. -/
theorem callAt_unlimited {c : PeerCall} {state : PeerBuckets}
    (h : ¬ (state.poisoned = false ∧ l.span ≤ maxDuration ∧
      l.SparesNewcomer c.peer c.now state.peers)) (secs : ℕ) :
    (l.callAt c state).1 ≠ some (.deny secs) := by
  cases hsound : state.poisoned with
  | true =>
    rw [callAt_of_poisoned c hsound]
    exact fun hdenied => nomatch hdenied
  | false =>
    by_cases hfits : l.span ≤ maxDuration
    · rw [callAt_none hfits hsound fun hspares => h ⟨hsound, hfits, hspares⟩]
      exact fun hdenied => nomatch hdenied
    · rw [callAt_of_overflow (Nat.lt_of_not_le hfits) c hsound]
      exact fun hdenied => nomatch hdenied

/-- **The delay of the operator plane** is honest exactly where nothing is lost in rounding. -/
theorem retryHonest_iff_waitsWhole (l : AdminAuthRateLimiter) (call : PeerCall)
    (kind : PeerCallKind) {state : PeerBuckets}
    (hbound : state.peers.entries.length ≤ maxTrackedPeers) :
    RetryHonest l.service PeerAnswer.decision state call
        (fun secs => ⟨kind, call.peer, comingAgain call.now secs⟩) ↔
      l.WaitsWhole call kind state := by
  by_cases hlimited : state.poisoned = false ∧ l.span ≤ maxDuration ∧
    l.SparesNewcomer call.peer call.now state.peers
  · obtain ⟨hsound, hfits, hspares⟩ := hlimited
    obtain ⟨peers', hcall, hself, hbound'⟩ := callAt_ruling hfits hsound hbound hspares
    have halive := @entered_alive l call.now (state.peers.lookup call.peer)
    by_cases hspends : l.Spends call.kind (l.entered call.now (state.peers.lookup call.peer)) call.now
    · obtain ⟨hdenied, hspent, -⟩ := ruling_of_spends halive hspends
      have hreaches := remainingSecs_reaches halive hspends
      have hlater : ∀ state', l.service.rearranges (l.callAt call state).2 state' → ∀ n,
          (l.callAt ⟨kind, call.peer, comingAgain call.now n⟩ state').1 = some .allow ↔
            (kind = .consume → 1 < l.maxAuthFailures) ∧
              (l.ruling call.kind (l.entered call.now (state.peers.lookup call.peer))
                call.now).2.startedAt + l.span ≤ comingAgain call.now n := by
        intro state' hsame n
        rw [hcall] at hsame
        have hkept : state'.peers.lookup call.peer = some (l.ruling call.kind
            (l.entered call.now (state.peers.lookup call.peer)) call.now).2 := by
          rw [← AList.perm_lookup hsame.1]
          exact hself
        have hlength : state'.peers.entries.length ≤ maxTrackedPeers := hsame.1.length_eq ▸ hbound'
        obtain ⟨peers'', hcall', -⟩ := @callAt_ruling l hfits
          ⟨kind, call.peer, comingAgain call.now n⟩ state' (hsame.2.trans hsound) hlength
          (sparesNewcomer_of_tracked hkept hlength)
        rw [hcall', Option.some_inj, hkept]
        exact ruling_later_iff hspent
      have hiff := @retryHonest_iff _ _ _ l.service PeerAnswer.decision state call
        (fun secs => ⟨kind, call.peer, comingAgain call.now secs⟩) _ _ call.now
        (kind = .consume → 1 < l.maxAuthFailures)
        ((congrArg Prod.fst hcall).trans (congrArg some hdenied))
        (fun s => ⟨List.Perm.refl s.peers.entries, rfl⟩) hlater
        (fun less hless => remainingSecs_least halive hspends hless)
      rw [hiff, hreaches]
      constructor
      · rintro h - - - bucket rfl -
        exact h
      · intro hwaits
        exact hwaits hsound hfits hspares _ rfl hspends
    · refine iff_of_true (retryHonest_of_not_denied fun secs h => ?_) ?_
      · have hallowed := ruling_of_not_spends hspends
        have hanswer := (congrArg Prod.fst hcall).trans (congrArg some hallowed)
        exact nomatch hanswer.symm.trans h
      · rintro - - - bucket rfl hspends'
        exact absurd hspends' hspends
  · refine iff_of_true (retryHonest_of_not_denied (callAt_unlimited hlimited)) ?_
    intro hsound hfits hspares
    exact absurd ⟨hsound, hfits, hspares⟩ hlimited

end AdminAuthRateLimiter

/-! ## Both limiters -/

/-- **The delay after a denial** is honest exactly where nothing is lost in rounding, and, for
operators, where the denial does not begin a phase of more than a second. -/
theorem retry_after_honest_iff (throttle : FixedWindowRateLimiter) (l : AdminAuthRateLimiter) :
    (∀ (state : Table ThrottleKey Bucket) (call : CheckCall),
      RetryHonest throttle.service CheckAnswer.decision state call
          (fun secs => { call with now := comingAgain call.now secs }) ↔
        throttle.WaitsWhole call state) ∧
    ∀ (as : List PeerMove) (log : PeerLog),
      (adminLimiter l).Run System.anyStep (.start noPeers) as log →
        ∀ (call : PeerCall) (kind : PeerCallKind),
          RetryHonest l.service PeerAnswer.decision log.state call
              (fun secs => ⟨kind, call.peer, comingAgain call.now secs⟩) ↔
            l.WaitsWhole call kind log.state :=
  ⟨fun state call => throttle.retryHonest_iff_waitsWhole call state, fun _ _ hrun call kind =>
    l.retryHonest_iff_waitsWhole call kind (bounded_of_run hrun)⟩

/-- The failure that locks a peer out. -/
def lastFailure : PeerCall := ⟨.consume, "192.0.2.7", 0⟩

/-- A peer that is locked out by one failure. -/
def lockedPeer : PeerLog :=
  (guessLimiter 1 Nat.one_pos).service.answer lastFailure (.start noPeers)

theorem run_lockedPeer : (adminLimiter (guessLimiter 1 (by decide))).Run System.anyStep
    (.start noPeers) [.call lastFailure] lockedPeer :=
  .single trivial rfl

/-- One second after the failure the delay is the whole number of seconds that is left. -/
theorem retry_after_honest_on_the_second :
    RetryHonest (guessLimiter 1 (by decide)).service PeerAnswer.decision lockedPeer.state
      ⟨.check, "192.0.2.7", nanosPerSec.toNat⟩
      (fun secs => ⟨.check, "192.0.2.7", comingAgain nanosPerSec.toNat secs⟩) := by
  refine ((retry_after_honest_iff onceAMinute (guessLimiter 1 (by decide))).2 _ _ run_lockedPeer
    ⟨.check, "192.0.2.7", nanosPerSec.toNat⟩ .check).mpr ?_
  rintro - - - bucket hbucket -
  have hstart : bucket = ⟨0, 1⟩ := by
    rw [← hbucket]
    decide +kernel
  subst hstart
  exact ⟨fun h => (nomatch h), fun h => (nomatch h.1), fun _ => Or.inr (by decide)⟩

/-- The request that uses up a minute. -/
def firstRequest : CheckCall := ⟨.throttle (.clientAddr "192.0.2.7"), 0⟩

/-- Half a second later the delay is too short, for an address as for a peer. -/
theorem retry_after_too_short :
    (∃ as log, (publicLimiter onceAMinute).Run System.anyStep (.start ∅) as log ∧
      ¬ RetryHonest onceAMinute.service CheckAnswer.decision log.state
        ⟨.throttle (.clientAddr "192.0.2.7"), nanosPerSec.toNat / 2⟩
        (fun secs => ⟨.throttle (.clientAddr "192.0.2.7"),
          comingAgain (nanosPerSec.toNat / 2) secs⟩)) ∧
    ∃ as log, (adminLimiter (guessLimiter 1 (by decide))).Run System.anyStep
        (.start noPeers) as log ∧
      ¬ RetryHonest (guessLimiter 1 (by decide)).service PeerAnswer.decision log.state
        ⟨.check, "192.0.2.7", nanosPerSec.toNat / 2⟩
        (fun secs => ⟨.check, "192.0.2.7", comingAgain (nanosPerSec.toNat / 2) secs⟩) := by
  constructor
  · refine ⟨[.call firstRequest], onceAMinute.service.answer firstRequest (.start ∅),
      .single trivial rfl, fun h => ?_⟩
    have hwhole := (onceAMinute.retryHonest_iff_waitsWhole _ _).mp h (.clientAddr "192.0.2.7") ⟨0, 1⟩ rfl
      (by decide) (by decide +kernel) (by decide)
    exact absurd hwhole (by simp only [WholeSecondsLeft]; decide)
  · refine ⟨_, _, run_lockedPeer, fun h => ?_⟩
    have hwaits := ((guessLimiter 1 (by decide)).retryHonest_iff_waitsWhole _ _
      (bounded_of_run run_lockedPeer)).mp h
    have htracked : lockedPeer.state.peers.lookup "192.0.2.7" = some ⟨0, 1⟩ := by decide +kernel
    have hwhole := (hwaits (by decide +kernel) (by decide)
      (AdminAuthRateLimiter.sparesNewcomer_of_tracked htracked (bounded_of_run run_lockedPeer))
      ⟨0, 1⟩ (by decide +kernel) (Nat.le_refl 1)).2.2
      (fun hrolls => nomatch hrolls.1)
    exact absurd hwhole (by simp only [WholeSecondsLeft]; decide)


end OidcExchange
