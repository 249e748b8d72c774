import OidcExchange.Analysis.FixedWindowSteps

/-!
# The law of the public limiter

The answers to the calls of one key are those of a fixed window that sees no other call, as long as
the key is not displaced: a call is allowed while its window has allowed less than the budget. Zero
budgets store nothing, and the map stays within its bound whoever calls.
-/

set_option autoImplicit false

namespace OidcExchange

open Storage Interleaving Throttling

variable {l : FixedWindowRateLimiter} {key : ThrottleKey}

abbrev CheckLog : Type := Log CheckCall CheckAnswer (Table ThrottleKey Bucket)

abbrev CheckMove : Type := Move CheckCall (Table ThrottleKey Bucket)

/-- The limiter as a transition system. -/
abbrev publicLimiter (l : FixedWindowRateLimiter) : System CheckLog CheckMove := l.service.system

/-- The instant of the newest call. -/
def latestCheck : List (CheckCall × CheckAnswer) → ℕ
  | [] => 0
  | e :: _ => e.1.now

/-- The instants of the calls never go back. -/
def ChecksInOrder (log : CheckLog) : CheckMove → Prop
  | .call c => latestCheck log.served ≤ c.now
  | .rearrange _ => True

/-- Nor is the key displaced. -/
def KeepsKey (l : FixedWindowRateLimiter) (key : ThrottleKey) (log : CheckLog) (m : CheckMove) :
    Prop :=
  ChecksInOrder log m ∧ ∀ c, m = .call c → l.displaces c log.state ≠ some key

/-- The instant of a call of the key. -/
def checkOf (key : ThrottleKey) (c : CheckCall) : Option ℕ :=
  if c.key = .throttle key then some c.now else none

/-- The calls of the key that were allowed in the window that began at an instant. -/
def allowedIn (key : ThrottleKey) (opened : ℕ) (served : List (CheckCall × CheckAnswer)) :
    List (CheckCall × CheckAnswer) :=
  served.filter fun e => decide (e.1.key = .throttle key ∧ e.2.decision = some .allow ∧
    e.2.startedAt = some opened)

/-! ## One key -/

/-- The bucket of a key stands for the window of its calls, which have been answered by it. -/
structure WindowLedger (l : FixedWindowRateLimiter) (key : ThrottleKey) (log : CheckLog) : Prop where
  meters : Meters l.window (l.budgets.forKey key).toNat (latestCheck log.served)
    (ownCalls (checkOf key) log.served) (log.state.lookup key)
  replayed : ownAnswers (checkOf key) log.served =
    replay (l.verdict key) (ownCalls (checkOf key) log.served)
  ordered : (latestCheck log.served :: ownCalls (checkOf key) log.served).Pairwise (· ≥ ·)

theorem WindowLedger.start : WindowLedger l key (.start ∅) :=
  ⟨meters_nil, rfl, List.pairwise_singleton _ _⟩

theorem checkOf_self {c : CheckCall} (h : c.key = .throttle key) : checkOf key c = some c.now :=
  if_pos h

theorem checkOf_other {c : CheckCall} (h : c.key ≠ .throttle key) : checkOf key c = none :=
  if_neg h

/-- A call keeps the ledger of every key that it does not displace. -/
theorem WindowLedger.answer (hbudget : 0 < (l.budgets.forKey key).toNat) {log : CheckLog}
    (h : WindowLedger l key log) {c : CheckCall} (horder : latestCheck log.served ≤ c.now)
    (hkeeps : l.displaces c log.state ≠ some key) :
    WindowLedger l key (l.service.answer c log) := by
  have hmeters := h.meters.of_le horder
  obtain ⟨called, now⟩ := c
  by_cases hown : called = .throttle key
  · subst hown
    obtain ⟨hverdict, hafter⟩ := checkAt_verdict hbudget hmeters
    refine ⟨?_, ?_, ?_⟩
    · rw [Interleaving.Service.answer, ownCalls_cons_some (checkOf_self rfl)]
      exact hafter
    · exact replay_cons_some (checkOf_self rfl) hverdict.symm h.replayed
    · have hcall : (now :: ownCalls (checkOf key) log.served).Pairwise (· ≥ ·) :=
        pairwise_later h.ordered horder
      rw [Interleaving.Service.answer, ownCalls_cons_some (checkOf_self rfl)]
      refine List.pairwise_cons.mpr ⟨fun t ht => ?_, hcall⟩
      obtain rfl | ht := List.mem_cons.mp ht
      · exact Nat.le_refl _
      · exact (List.pairwise_cons.mp hcall).1 t ht
  · have hother : checkOf key ⟨called, now⟩ = none := checkOf_other hown
    refine ⟨?_, replay_cons_none hother h.replayed, ?_⟩
    · rw [Interleaving.Service.answer, ownCalls_cons_none hother]
      cases called with
      | operatorAuth peer => exact hmeters
      | throttle key' =>
        have hne : key ≠ key' := fun heq => hown (congrArg LimitedKey.throttle heq.symm)
        by_cases hzero : (l.budgets.forKey key').toNat = 0
        · show Meters _ _ now _ ((l.checkAt key' now log.state).2.lookup key)
          rw [checkAt_zero hzero]
          exact hmeters
        · apply meters_checkAt_ne hne _ hmeters
          rw [FixedWindowRateLimiter.displaces] at hkeeps
          simpa [hzero] using hkeeps
    · rw [Interleaving.Service.answer, ownCalls_cons_none hother]
      exact pairwise_later h.ordered horder

/-- Rearranging keeps every ledger. -/
theorem WindowLedger.rearrange {log : CheckLog} (h : WindowLedger l key log)
    {state : Table ThrottleKey Bucket} (hsame : Rehashed log.state state) :
    WindowLedger l key { log with state := state } := by
  refine ⟨?_, h.replayed, h.ordered⟩
  rw [← AList.perm_lookup hsame]
  exact h.meters

/-- Every run that keeps the key keeps its ledger. -/
theorem windowLedger_of_run (hbudget : 0 < (l.budgets.forKey key).toNat) {as : List CheckMove}
    {log : CheckLog} (hrun : (publicLimiter l).Run (KeepsKey l key) (.start ∅) as log) :
    WindowLedger l key log := by
  refine hrun.preserves (fun log m log' h hmeets hstep => ?_) .start
  obtain ⟨c, rfl, rfl⟩ | ⟨state, rfl, hsame, rfl⟩ := Interleaving.Service.step_cases hstep
  · exact h.answer hbudget hmeets.1 (hmeets.2 c rfl)
  · exact h.rearrange hsame

theorem verdict_allow_iff {hits : List ℕ} {now : ℕ} :
    (l.verdict key hits now).decision = some .allow ↔
      (standing l.window hits now).2 ≤ (l.budgets.forKey key).toNat := by
  rw [FixedWindowRateLimiter.verdict, Option.some.injEq]
  by_cases hleft : (standing l.window hits now).2 ≤ (l.budgets.forKey key).toNat
  · simp [hleft]
  · simp [hleft]

/-- What the calls of the key were allowed is what its windows have admitted. -/
theorem length_allowedIn {served : List (CheckCall × CheckAnswer)}
    (h : ownAnswers (checkOf key) served =
      replay (l.verdict key) (ownCalls (checkOf key) served)) (opened : ℕ) :
    (allowedIn key opened served).length =
      admittedIn l.window (l.budgets.forKey key).toNat opened (ownCalls (checkOf key) served) := by
  induction served with
  | nil => rfl
  | cons e served ih =>
    obtain ⟨c, a⟩ := e
    by_cases hown : c.key = .throttle key
    · obtain ⟨rfl, hrest⟩ := answer_of_replay h (List.nil_append _).symm (checkOf_self hown)
      rw [ownCalls_cons_some (checkOf_self hown), admittedIn, ← ih hrest, allowedIn,
        List.filter_cons]
      have hcounts : decide (c.key = .throttle key ∧
          (l.verdict key (ownCalls (checkOf key) served) c.now).decision = some .allow ∧
            (l.verdict key (ownCalls (checkOf key) served) c.now).startedAt = some opened) =
          decide ((standing l.window (ownCalls (checkOf key) served) c.now).1 = opened ∧
            (standing l.window (ownCalls (checkOf key) served) c.now).2 ≤
              (l.budgets.forKey key).toNat) := by
        rw [decide_eq_decide, verdict_allow_iff]
        simp only [hown, true_and, FixedWindowRateLimiter.verdict, Option.some.injEq]
        exact and_comm
      simp only [hcounts, decide_eq_true_eq]
      split <;> rfl
    · rw [ownCalls_cons_none (checkOf_other hown)]
      rw [ownAnswers_cons_none (checkOf_other hown),
        ownCalls_cons_none (checkOf_other hown)] at h
      rw [← ih h, allowedIn, List.filter_cons_of_neg (by simp [hown])]
      rfl

/-- How a call of the key was answered. -/
theorem WindowLedger.answered {state : Table ThrottleKey Bucket}
    {later earlier : List (CheckCall × CheckAnswer)} {c : CheckCall} {a : CheckAnswer}
    (h : WindowLedger l key ⟨state, later ++ (c, a) :: earlier⟩) (hown : c.key = .throttle key) :
    ∃ opened, a.startedAt = some opened ∧ opened ≤ c.now ∧ c.now < opened + l.window ∧
      a.decision ≠ none ∧
      (a.decision = some .allow ↔
        (allowedIn key opened earlier).length < (l.budgets.forKey key).toNat) ∧
      ∀ e ∈ earlier, e.1.key = .throttle key → ∀ s, e.2.startedAt = some s →
        c.now < s + l.window → s = opened := by
  obtain ⟨rfl, hearlier⟩ := answer_of_replay h.replayed rfl (checkOf_self hown)
  have hlatest : ∀ t ∈ ownCalls (checkOf key) earlier, t ≤ c.now := by
    have hordered := (List.pairwise_cons.mp h.ordered).2
    rw [ownCalls_append, ownCalls_cons_some (checkOf_self hown), List.pairwise_append] at hordered
    exact (List.pairwise_cons.mp hordered.2.1).1
  obtain ⟨hbegun, hrunning⟩ := standing_within l.window_pos hlatest
  refine ⟨(standing l.window (ownCalls (checkOf key) earlier) c.now).1, rfl, hbegun, hrunning,
    Option.some_ne_none _, ?_, fun e he hkey s hs hwithin => ?_⟩
  · rw [verdict_allow_iff, standing_le_iff l.window_pos, length_allowedIn hearlier]
  · obtain ⟨more, rest, rfl⟩ := List.append_of_mem he
    obtain ⟨hanswer, -⟩ := answer_of_replay hearlier rfl (checkOf_self hkey)
    have hbegan : (standing l.window (ownCalls (checkOf key) rest) e.1.now).1 = s := by
      rw [hanswer] at hs
      exact Option.some.inj hs
    rw [ownCalls_append, ownCalls_cons_some (checkOf_self hkey)] at hlatest ⊢
    rw [← hbegan] at hwithin ⊢
    exact (standing_of_running l.window_pos _ hlatest hwithin).symm

/-! ## Every key -/

/-- The map is within its bound, and keys without a budget are admitted and not stored. -/
structure MapLedger (l : FixedWindowRateLimiter) (log : CheckLog) : Prop where
  bounded : log.state.entries.length ≤ l.maxEntries
  unstored : ∀ key, (l.budgets.forKey key).toNat = 0 → log.state.lookup key = none
  admitted : ∀ key, (l.budgets.forKey key).toNat = 0 → ∀ e ∈ log.served,
    e.1.key = .throttle key → e.2.decision = some .allow

theorem lookup_checkAt_zero (hzero : (l.budgets.forKey key).toNat = 0) (key' : ThrottleKey)
    {now : ℕ} {state : Table ThrottleKey Bucket} (h : state.lookup key = none) :
    (l.checkAt key' now state).2.lookup key = none := by
  by_cases hbudget : (l.budgets.forKey key').toNat = 0
  · rw [checkAt_zero hbudget]
    exact h
  · have hne : key ≠ key' := by
      rintro rfl
      exact hbudget hzero
    have hretained : (l.retain now state).lookup key = none := by
      cases hkept : (l.retain now state).lookup key with
      | none => rfl
      | some bucket => rw [(lookup_retain.mp hkept).1] at h; exact nomatch h
    have hevicted : (l.evict key' (l.retain now state)).lookup key = none := by
      rw [evict_eq]
      cases hvictim : l.victim key' (l.retain now state) with
      | none => exact hretained
      | some other =>
        rw [Option.elim_some, Table.lookup_erase_ite]
        split
        · rfl
        · exact hretained
    rw [checkAt_eq hbudget rfl]
    split
    · rw [AList.lookup_insert_ne hne]
      exact hevicted
    · rw [AList.lookup_insert_ne hne]
      exact hevicted

theorem length_checkAt_le {now : ℕ} {state : Table ThrottleKey Bucket}
    (h : state.entries.length ≤ l.maxEntries) (key : ThrottleKey) :
    (l.checkAt key now state).2.entries.length ≤ l.maxEntries := by
  by_cases hbudget : (l.budgets.forKey key).toNat = 0
  · rw [checkAt_zero hbudget]
    exact h
  · have hretained : (l.retain now state).entries.length ≤ l.maxEntries :=
      length_retain_le.trans h
    rw [checkAt_eq hbudget rfl]
    split
    · exact length_evict_insert hretained _
    · exact length_evict_insert hretained _

/-- Every call keeps the map as it should be. -/
theorem MapLedger.answer {log : CheckLog} (h : MapLedger l log) (c : CheckCall) :
    MapLedger l (l.service.answer c log) := by
  obtain ⟨called, now⟩ := c
  cases called with
  | operatorAuth peer =>
    refine ⟨h.bounded, h.unstored, fun key hzero e he hkey => ?_⟩
    obtain rfl | he := List.mem_cons.mp he
    · exact nomatch hkey
    · exact h.admitted key hzero e he hkey
  | throttle key' =>
    refine ⟨length_checkAt_le h.bounded key', fun key hzero => ?_, fun key hzero e he hkey => ?_⟩
    · exact lookup_checkAt_zero hzero key' (h.unstored key hzero)
    · obtain rfl | he := List.mem_cons.mp he
      · obtain rfl : key' = key := LimitedKey.throttle.inj hkey
        show some (l.checkAt key' now log.state).1 = some .allow
        rw [checkAt_zero hzero]
      · exact h.admitted key hzero e he hkey

theorem mapLedger_of_run {as : List CheckMove} {log : CheckLog}
    (hrun : (publicLimiter l).Run ChecksInOrder (.start ∅) as log) : MapLedger l log := by
  have hstart : MapLedger l (.start ∅) :=
    ⟨Nat.zero_le _, fun _ _ => rfl, fun _ _ _ h => nomatch h⟩
  refine hrun.preserves (fun log m log' h _ hstep => ?_) hstart
  obtain ⟨c, rfl, rfl⟩ | ⟨state, rfl, hsame, rfl⟩ := Interleaving.Service.step_cases hstep
  · exact h.answer c
  · refine ⟨?_, fun key hzero => ?_, h.admitted⟩
    · rw [← List.Perm.length_eq hsame]
      exact h.bounded
    · rw [← AList.perm_lookup hsame]
      exact h.unstored key hzero

/-- **The law of the public limiter**: the map is within its bound, a zero budget admits everything
and stores nothing, and a key that is not displaced is allowed exactly its budget in each of its
windows, whatever is called for the others. -/
theorem public_limiter_law (l : FixedWindowRateLimiter) :
    (∀ as log, (publicLimiter l).Run ChecksInOrder (.start ∅) as log →
      log.state.entries.length ≤ l.maxEntries ∧
      ∀ key, (l.budgets.forKey key).toNat = 0 → log.state.lookup key = none ∧
        ∀ e ∈ log.served, e.1.key = .throttle key → e.2.decision = some .allow) ∧
    (∀ key, 0 < (l.budgets.forKey key).toNat →
      ∀ as log, (publicLimiter l).Run (KeepsKey l key) (.start ∅) as log →
        (∀ opened, (allowedIn key opened log.served).length ≤ (l.budgets.forKey key).toNat) ∧
        ∀ later c a earlier, log.served = later ++ (c, a) :: earlier → c.key = .throttle key →
          ∃ opened, a.startedAt = some opened ∧ opened ≤ c.now ∧ c.now < opened + l.window ∧
            a.decision ≠ none ∧
            (a.decision = some .allow ↔
              (allowedIn key opened earlier).length < (l.budgets.forKey key).toNat) ∧
            ∀ e ∈ earlier, e.1.key = .throttle key → ∀ s, e.2.startedAt = some s →
              c.now < s + l.window → s = opened) ∧
    ∀ key, 0 < (l.budgets.forKey key).toNat → ∀ as log as' log',
      (publicLimiter l).Run (KeepsKey l key) (.start ∅) as log →
      (publicLimiter l).Run (KeepsKey l key) (.start ∅) as' log' →
      ownCalls (checkOf key) log.served = ownCalls (checkOf key) log'.served →
      ownAnswers (checkOf key) log.served = ownAnswers (checkOf key) log'.served := by
  refine ⟨fun as log hrun => ?_, fun key hbudget as log hrun => ?_,
    fun key hbudget as log as' log' hrun hrun' hcalls => ?_⟩
  · have hmap := mapLedger_of_run hrun
    exact ⟨hmap.bounded, fun key hzero => ⟨hmap.unstored key hzero, hmap.admitted key hzero⟩⟩
  · have hkey := windowLedger_of_run hbudget hrun
    refine ⟨fun opened => ?_, fun later c a earlier hsplit hown => ?_⟩
    · rw [length_allowedIn hkey.replayed]
      exact admittedIn_le l.window_pos opened _
    · obtain ⟨state, served⟩ := log
      subst hsplit
      exact hkey.answered hown
  · exact ownAnswers_eq (windowLedger_of_run hbudget hrun).replayed
      (windowLedger_of_run hbudget hrun').replayed hcalls

/-- The test of the condition. -/
def keepsKey (l : FixedWindowRateLimiter) (key : ThrottleKey) (log : CheckLog) : CheckMove → Bool
  | .call c => decide (latestCheck log.served ≤ c.now) && decide (l.displaces c log.state ≠ some key)
  | .rearrange _ => true

theorem keepsKey_sound (log : CheckLog) (m : CheckMove) (h : keepsKey l key log m = true) :
    KeepsKey l key log m := by
  cases m with
  | call c =>
    obtain ⟨horder, hkeeps⟩ := Bool.and_eq_true_iff.mp h
    have hlater : latestCheck log.served ≤ c.now := of_decide_eq_true horder
    refine ⟨hlater, fun c' heq => ?_⟩
    cases heq
    exact of_decide_eq_true hkeeps
  | rearrange state => exact ⟨trivial, fun c heq => nomatch heq⟩

/-- One request a minute for each address. -/
def onceAMinute : FixedWindowRateLimiter :=
  ⟨60 * nanosPerSec.toNat, ⟨1, 0, 1, 1⟩, 4, minute_pos, Nat.succ_pos 3⟩

/-- An address that calls twice within a minute, beside another one, is denied the second time. -/
theorem public_limiter_law_twice : ∃ as log,
    (publicLimiter onceAMinute).Run (KeepsKey onceAMinute (.clientAddr "192.0.2.1"))
        (.start ∅) as log ∧
      (∃ earlier a, log.served = (⟨.throttle (.clientAddr "192.0.2.1"), 2⟩, a) :: earlier ∧
        a.decision ≠ some .allow) ∧
      (allowedIn (.clientAddr "192.0.2.1") 0 log.served).length ≤ 1 := by
  obtain ⟨log, hrun, hlast⟩ := System.Run.of_followWhen_any (M := publicLimiter onceAMinute)
    keepsKey_sound (show ((publicLimiter onceAMinute).followWhen
      (keepsKey onceAMinute (.clientAddr "192.0.2.1")) (.start ∅)
      [.call ⟨.throttle (.clientAddr "192.0.2.1"), 0⟩, .call ⟨.throttle (.clientAddr "192.0.2.2"), 1⟩,
        .call ⟨.throttle (.clientAddr "192.0.2.1"), 2⟩]).any (fun log =>
          log.served.head?.any fun e => decide (e.1.key = .throttle (.clientAddr "192.0.2.1") ∧
            e.1.now = 2 ∧ e.2.decision ≠ some .allow)) = true by decide +kernel)
  refine ⟨_, log, hrun, ?_, ?_⟩
  · obtain ⟨⟨⟨called, now⟩, a⟩, hhead, hshape⟩ := (Option.any_eq_true _ _).mp hlast
    obtain ⟨earlier, hserved⟩ := List.head?_eq_some_iff.mp hhead
    obtain ⟨rfl, rfl, hdenied⟩ := of_decide_eq_true hshape
    exact ⟨earlier, a, hserved, hdenied⟩
  · exact ((public_limiter_law onceAMinute).2.1 _ (by decide) _ log hrun).1 0

end OidcExchange
