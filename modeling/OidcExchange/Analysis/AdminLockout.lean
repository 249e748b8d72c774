import OidcExchange.Analysis.GuessingBudget
import OidcExchange.Adapters.RateLimits

/-!
# The lockout of a peer

Where nobody is displaced, the answers to the calls for one peer are those of a phase that sees no
other call. The failure that spends the budget comes before the window of its phase has closed, and
the phase lasts for window and lockout, so the lockout is whole from that failure on. Where the sum
of the two has no representation the first call panics instead, and nothing is limited from then
on.
-/

set_option autoImplicit false

namespace OidcExchange

open Storage Interleaving Throttling

abbrev PeerLog : Type := Log PeerCall PeerAnswer PeerBuckets

abbrev PeerMove : Type := Move PeerCall PeerBuckets

/-- The limiter as a transition system. -/
abbrev adminLimiter (l : AdminAuthRateLimiter) : System PeerLog PeerMove := l.service.system

/-- No peer, and no panic under the lock yet. -/
def noPeers : PeerBuckets := ⟨∅, false⟩

/-- The instant of the newest call. -/
def latestCall : List (PeerCall × PeerAnswer) → ℕ
  | [] => 0
  | e :: _ => e.1.now

/-- The instants of the calls never go back. -/
def CallsInOrder (log : PeerLog) : PeerMove → Prop
  | .call c => latestCall log.served ≤ c.now
  | .rearrange _ => True

/-- Nor is a peer displaced. -/
def KeepsAll (l : AdminAuthRateLimiter) (log : PeerLog) (m : PeerMove) : Prop :=
  CallsInOrder log m ∧ ∀ c, m = .call c → l.hasRoom c.now log.state.peers c.peer = true

/-- What a call for the peer brings. -/
def callOf (peer : String) (c : PeerCall) : Option (PeerCallKind × ℕ) :=
  if c.peer = peer then some (c.kind, c.now) else none

/-! ## The law -/

section Law

variable (l : AdminAuthRateLimiter) (peer : String)

/-- A consumption of the peer that finds a unit left. -/
def Counts (e : PeerCall × PeerAnswer) : Bool :=
  decide (e.1.peer = peer ∧ e.1.kind = .consume ∧ e.2.spent < l.maxAuthFailures)

/-- The consumptions that count in the phase that began at an instant. -/
def countedIn (started : ℕ) (served : List (PeerCall × PeerAnswer)) :
    List (PeerCall × PeerAnswer) :=
  served.filter fun e => Counts l peer e && decide (e.2.bucket.map Bucket.startedAt = some started)

/-- A consumption that spends the last unit of a phase. -/
def SpendsLast (started : ℕ) (e : PeerCall × PeerAnswer) : Prop :=
  Counts l peer e = true ∧ e.2.bucket = some ⟨started, l.maxAuthFailures⟩

/-- After the consumption that spends the last unit the peer is locked out for the whole lockout;
no phase counts more than the budget; what counts towards the lockout is younger than the window;
and the calls for other peers change nothing. -/
structure LockoutLaw : Prop where
  lockedOut : ∀ as log, (adminLimiter l).Run (KeepsAll l) (.start noPeers) as log →
    ∀ peer later trip earlier started, log.served = later ++ trip :: earlier →
      SpendsLast l peer started trip → ∀ e ∈ later, e.1.kind = .check → e.1.peer = peer →
        e.1.now < trip.1.now + l.lockout → ∃ secs, e.2.decision = some (.deny secs)
  withinBudget : ∀ as log, (adminLimiter l).Run (KeepsAll l) (.start noPeers) as log →
    ∀ peer started, (countedIn l peer started log.served).length ≤ l.maxAuthFailures
  youngEnough : ∀ as log, (adminLimiter l).Run (KeepsAll l) (.start noPeers) as log →
    ∀ peer later trip earlier started, log.served = later ++ trip :: earlier →
      SpendsLast l peer started trip →
        (countedIn l peer started (trip :: earlier)).length = l.maxAuthFailures ∧
        ∀ e ∈ countedIn l peer started (trip :: earlier), trip.1.now < e.1.now + l.failureWindow
  independent : ∀ as log as' log', (adminLimiter l).Run (KeepsAll l) (.start noPeers) as log →
    (adminLimiter l).Run (KeepsAll l) (.start noPeers) as' log' →
      ∀ peer, ownCalls (callOf peer) log.served = ownCalls (callOf peer) log'.served →
        ownAnswers (callOf peer) log.served = ownAnswers (callOf peer) log'.served

end Law

/-! ## One peer -/

namespace AdminAuthRateLimiter

variable (l : AdminAuthRateLimiter)

/-- The bucket of a peer after its calls, newest first. -/
def phase : List (PeerCallKind × ℕ) → Option Bucket
  | [] => none
  | (.check, now) :: calls => some (l.entered now (phase calls))
  | (.consume, now) :: calls => some (l.recorded (l.entered now (phase calls)) now l.span).2

/-- The answer to a call after those before it, newest first. -/
def judgement (calls : List (PeerCallKind × ℕ)) : PeerCallKind × ℕ → PeerAnswer
  | (.check, now) =>
    ⟨some (l.decisionAt (l.entered now (l.phase calls)) now l.span),
      l.spentUnits now (l.phase calls), l.phase ((.check, now) :: calls)⟩
  | (.consume, now) =>
    ⟨some (l.recorded (l.entered now (l.phase calls)) now l.span).1,
      l.spentUnits now (l.phase calls), l.phase ((.consume, now) :: calls)⟩

variable {l} {now later : ℕ} {kept kept' : Option Bucket} {state : PeerBuckets} {peer peer' : String}

/-- A bucket that is alive later is alive now. -/
theorem alive_of_le {bucket : Bucket} (hlater : now ≤ later) (h : l.alive later bucket = true) :
    l.alive now bucket = true := by
  simp only [alive, decide_eq_true_eq] at h ⊢
  omega

/-- What is the same among the living now is the same among the living later. -/
theorem filter_alive_later (hlater : now ≤ later)
    (h : kept.filter (l.alive now) = kept'.filter (l.alive now)) :
    kept.filter (l.alive later) = kept'.filter (l.alive later) := by
  have hboth : ∀ kept : Option Bucket,
      (kept.filter (l.alive now)).filter (l.alive later) = kept.filter (l.alive later) := by
    intro kept
    cases kept with
    | none => rfl
    | some bucket =>
      by_cases hnow : l.alive now bucket = true
      · rw [Option.filter_some, if_pos hnow]
      · have hnot : ¬ l.alive later bucket = true := fun h => hnow (alive_of_le hlater h)
        rw [Option.filter_some, if_neg hnow, Option.filter_none, Option.filter_some, if_neg hnot]
  rw [← hboth kept, ← hboth kept', h]

theorem entered_congr (h : kept.filter (l.alive now) = kept'.filter (l.alive now)) :
    l.entered now kept = l.entered now kept' := by
  rw [entered, entered, h]

theorem spentUnits_congr (h : kept.filter (l.alive now) = kept'.filter (l.alive now)) :
    l.spentUnits now kept = l.spentUnits now kept' := by
  rw [← @spentUnits_filter l now kept, ← @spentUnits_filter l now kept', h]

/-- The decision of a recorded failure. -/
theorem consumeAt_decision (hfits : l.span ≤ maxDuration) (hsound : state.poisoned = false)
    (hroom : l.hasRoom now state.peers peer = true) :
    (l.consumeAt peer now state).1 =
      some (l.recorded (l.entered now (state.peers.lookup peer)) now l.span).1 := by
  obtain ⟨live, hlive, -⟩ := liveBuckets_eq hroom
  simp [consumeAt, withState, hsound, bucketLifetime_eq hfits, hlive]

section Calls

variable (hfits : l.span ≤ maxDuration) (hsound : state.poisoned = false) {c : PeerCall}
  (hroom : l.hasRoom c.now state.peers c.peer = true)

include hfits hsound hroom

/-- A call leaves the living buckets of the other peers. -/
theorem callAt_others : (l.callAt c state).2.poisoned = false ∧
    ∀ peer', peer' ≠ c.peer → (l.callAt c state).2.peers.lookup peer' =
      (state.peers.lookup peer').filter (l.alive c.now) := by
  obtain ⟨kind, peer, now⟩ := c
  cases kind with
  | check =>
    obtain ⟨-, hsound', -, hothers⟩ := checkAt_spec hfits hsound hroom
    exact ⟨hsound', hothers⟩
  | consume =>
    obtain ⟨-, hsound', -, hothers⟩ := consumeAt_spec hfits hsound hroom
    exact ⟨hsound', hothers⟩

/-- **A call** is answered by the bucket of its peer, which becomes the next of its phase. -/
theorem callAt_own {calls : List (PeerCallKind × ℕ)}
    (hkept : (state.peers.lookup c.peer).filter (l.alive c.now) =
      (l.phase calls).filter (l.alive c.now)) :
    (⟨(l.callAt c state).1, l.spentUnits c.now (state.peers.lookup c.peer),
        (l.callAt c state).2.peers.lookup c.peer⟩ : PeerAnswer) =
      l.judgement calls (c.kind, c.now) ∧
      (l.callAt c state).2.peers.lookup c.peer = l.phase ((c.kind, c.now) :: calls) := by
  obtain ⟨kind, peer, now⟩ := c
  have hentered := entered_congr hkept
  have hspent := spentUnits_congr hkept
  cases kind with
  | check =>
    obtain ⟨hdecision, -, hpeer, -⟩ := checkAt_spec hfits hsound hroom
    have hphase : (l.checkAt peer now state).2.peers.lookup peer =
        l.phase ((.check, now) :: calls) := by
      rw [hpeer, hentered, phase]
    refine ⟨?_, hphase⟩
    simp only [callAt, judgement, hdecision, hphase, hspent, hentered]
  | consume =>
    obtain ⟨-, -, hpeer, -⟩ := consumeAt_spec hfits hsound hroom
    have hdecision := consumeAt_decision hfits hsound hroom
    have hphase : (l.consumeAt peer now state).2.peers.lookup peer =
        l.phase ((.consume, now) :: calls) := by
      rw [hpeer, hentered, phase]
    refine ⟨?_, hphase⟩
    simp only [callAt, judgement, hdecision, hphase, hspent, hentered]

end Calls

end AdminAuthRateLimiter

variable {l : AdminAuthRateLimiter} {peer : String}

/-- The bucket of a peer is that of its phase until it has run out, and its calls have been answered
by that. -/
structure PeerLedger (l : AdminAuthRateLimiter) (peer : String) (log : PeerLog) : Prop where
  sound : log.state.poisoned = false
  kept : (log.state.peers.lookup peer).filter (l.alive (latestCall log.served)) =
    (l.phase (ownCalls (callOf peer) log.served)).filter (l.alive (latestCall log.served))
  replayed : ownAnswers (callOf peer) log.served =
    replay l.judgement (ownCalls (callOf peer) log.served)
  ordered : (latestCall log.served ::
    (ownCalls (callOf peer) log.served).map Prod.snd).Pairwise (· ≥ ·)

theorem PeerLedger.start : PeerLedger l peer (.start noPeers) :=
  ⟨rfl, rfl, rfl, List.pairwise_singleton _ _⟩

theorem callOf_self {c : PeerCall} (h : c.peer = peer) : callOf peer c = some (c.kind, c.now) :=
  if_pos h

theorem callOf_other {c : PeerCall} (h : c.peer ≠ peer) : callOf peer c = none :=
  if_neg h

/-- A call keeps the ledger of every peer where there is room. -/
theorem PeerLedger.answer (hfits : l.span ≤ maxDuration) {log : PeerLog}
    (h : PeerLedger l peer log) {c : PeerCall} (horder : latestCall log.served ≤ c.now)
    (hroom : l.hasRoom c.now log.state.peers c.peer = true) :
    PeerLedger l peer (l.service.answer c log) := by
  have hkept := AdminAuthRateLimiter.filter_alive_later horder h.kept
  have hcall := pairwise_later h.ordered horder
  obtain ⟨hsound, hothers⟩ := AdminAuthRateLimiter.callAt_others hfits h.sound hroom
  by_cases hown : c.peer = peer
  · subst hown
    obtain ⟨hanswer, hpeer⟩ := AdminAuthRateLimiter.callAt_own hfits h.sound hroom hkept
    refine ⟨hsound, ?_, replay_cons_some (callOf_self rfl) hanswer h.replayed, ?_⟩
    · rw [Interleaving.Service.answer, ownCalls_cons_some (callOf_self rfl)]
      exact congrArg _ hpeer
    · rw [Interleaving.Service.answer, ownCalls_cons_some (callOf_self rfl), List.map_cons]
      refine List.pairwise_cons.mpr ⟨fun t ht => ?_, hcall⟩
      obtain rfl | ht := List.mem_cons.mp ht
      · exact Nat.le_refl _
      · exact (List.pairwise_cons.mp hcall).1 t ht
  · have hother := callOf_other hown
    refine ⟨hsound, ?_, replay_cons_none hother h.replayed, ?_⟩
    · rw [Interleaving.Service.answer, ownCalls_cons_none hother]
      refine Eq.trans ?_ hkept
      show ((l.callAt c log.state).2.peers.lookup peer).filter (l.alive c.now) = _
      rw [hothers peer (Ne.symm hown), Option.filter_filter]
      simp only [Bool.and_self]
    · rw [Interleaving.Service.answer, ownCalls_cons_none hother]
      exact hcall

/-- Rearranging keeps every ledger. -/
theorem PeerLedger.rearrange {log : PeerLog} (h : PeerLedger l peer log) {state : PeerBuckets}
    (hsame : Rehashed log.state.peers state.peers)
    (hpoisoned : state.poisoned = log.state.poisoned) :
    PeerLedger l peer { log with state := state } := by
  refine ⟨hpoisoned.trans h.sound, ?_, h.replayed, h.ordered⟩
  rw [← AList.perm_lookup hsame]
  exact h.kept

/-- Every run without displacements keeps the ledger of every peer. -/
theorem peerLedger_of_run (hfits : l.span ≤ maxDuration) {as : List PeerMove} {log : PeerLog}
    (hrun : (adminLimiter l).Run (KeepsAll l) (.start noPeers) as log) (peer : String) :
    PeerLedger l peer log := by
  refine hrun.preserves (fun log m log' h hmeets hstep => ?_) .start
  obtain ⟨c, rfl, rfl⟩ | ⟨state, rfl, hsame, rfl⟩ := Interleaving.Service.step_cases hstep
  · exact h.answer hfits hmeets.1 (hmeets.2 c rfl)
  · exact h.rearrange hsame.1 hsame.2

/-! ## Phases -/

namespace AdminAuthRateLimiter

variable {now : ℕ} {kind : PeerCallKind} {calls : List (PeerCallKind × ℕ)} {bucket : Bucket}

/-- The bucket that a failure leaves. -/
theorem recorded_snd (l : AdminAuthRateLimiter) (bucket : Bucket) (now : ℕ) :
    (l.recorded bucket now l.span).2 =
      if (l.rolled bucket now l.span).consumed < l.maxAuthFailures then
        { l.rolled bucket now l.span with consumed := (l.rolled bucket now l.span).consumed + 1 }
      else l.rolled bucket now l.span := by
  rw [recorded]
  by_cases hleft : (l.rolled bucket now l.span).consumed < l.maxAuthFailures
  · simp only [hleft, if_true]
    split <;> rfl
  · simp only [hleft, if_false]

/-- A call goes on with the phase that is there. -/
structure GoesOn (l : AdminAuthRateLimiter) (kind : PeerCallKind) (now : ℕ)
    (before after : Bucket) : Prop where
  alive : now - before.startedAt < l.span
  startedAt : after.startedAt = before.startedAt
  units : (kind = .consume ∧ l.spentUnits now (some before) < l.maxAuthFailures ∧
      l.spentUnits now (some before) = before.consumed ∧ after.consumed = before.consumed + 1 ∧
        now - before.startedAt < l.failureWindow) ∨
    (after = before ∧ ¬ (kind = .consume ∧ l.spentUnits now (some before) < l.maxAuthFailures))

/-- A call begins a phase. -/
structure BeginsAnew (l : AdminAuthRateLimiter) (kind : PeerCallKind) (now : ℕ)
    (before : Option Bucket) (after : Bucket) : Prop where
  startedAt : after.startedAt = now
  later : ∀ bucket, before = some bucket → bucket.startedAt < now
  spent : l.spentUnits now before = 0
  units : after.consumed = if kind = .consume then 1 else 0

theorem entered_split (l : AdminAuthRateLimiter) (now : ℕ) (kept : Option Bucket) :
    (∃ bucket, kept = some bucket ∧ l.entered now kept = bucket ∧
      now - bucket.startedAt < l.span) ∨
    (l.entered now kept = ⟨now, 0⟩ ∧ l.spentUnits now kept = 0 ∧
      ∀ bucket, kept = some bucket → bucket.startedAt < now) := by
  obtain hsame | ⟨hfresh, hgone⟩ := entered_cases now kept (l := l)
  · exact Or.inl ⟨l.entered now kept, hsame, rfl, entered_alive⟩
  · refine Or.inr ⟨hfresh, ?_, fun bucket hbucket => ?_⟩
    · rw [← spentUnits_entered, hfresh]
      obtain ⟨hzero, -⟩ | ⟨hsame, -⟩ := spentUnits_cases (l := l) now ⟨now, 0⟩
      · exact hzero
      · exact hsame
    · have hpos := l.span_pos
      have hover := hgone bucket hbucket
      omega

/-- What one call makes of a phase. -/
theorem phase_cons (l : AdminAuthRateLimiter) (kind : PeerCallKind) (now : ℕ)
    (calls : List (PeerCallKind × ℕ)) :
    ∃ after, l.phase ((kind, now) :: calls) = some after ∧
      (BeginsAnew l kind now (l.phase calls) after ∨
        ∃ before, l.phase calls = some before ∧ GoesOn l kind now before after) := by
  have hwindow := l.failureWindow_pos
  have hmax := l.maxAuthFailures_pos
  obtain ⟨before, hbefore, hentered, halive⟩ | ⟨hentered, hspent, hlater⟩ :=
    l.entered_split now (l.phase calls)
  · cases kind with
    | check =>
      refine ⟨before, by rw [phase, hentered], Or.inr ⟨before, hbefore, halive, rfl, Or.inr ?_⟩⟩
      exact ⟨rfl, fun h => nomatch h.1⟩
    | consume =>
      refine ⟨_, rfl, ?_⟩
      rw [hentered, recorded_snd, hbefore]
      by_cases hover : l.span ≤ now - before.startedAt ∨
          (l.failureWindow ≤ now - before.startedAt ∧ before.consumed < l.maxAuthFailures)
      · have hrolled : l.rolled before now l.span = ⟨now, 0⟩ := if_pos hover
        rw [hrolled, if_pos hmax]
        refine Or.inl ⟨rfl, fun bucket hbucket => ?_, congrArg Bucket.consumed hrolled, rfl⟩
        obtain rfl := Option.some.inj hbucket
        omega
      · have hrolled : l.rolled before now l.span = before := if_neg hover
        have hspent : l.spentUnits now (some before) = before.consumed :=
          congrArg Bucket.consumed hrolled
        rw [hrolled]
        refine Or.inr ⟨before, rfl, ?_⟩
        by_cases hleft : before.consumed < l.maxAuthFailures
        · rw [if_pos hleft]
          exact ⟨halive, rfl, Or.inl ⟨rfl, hspent ▸ hleft, hspent, rfl, by omega⟩⟩
        · rw [if_neg hleft]
          exact ⟨halive, rfl, Or.inr ⟨rfl, fun h => hleft (hspent ▸ h.2)⟩⟩
  · cases kind with
    | check => exact ⟨⟨now, 0⟩, by rw [phase, hentered], Or.inl ⟨rfl, hlater, hspent, rfl⟩⟩
    | consume =>
      refine ⟨_, rfl, Or.inl ?_⟩
      have hrolled : l.rolled ⟨now, 0⟩ now l.span = ⟨now, 0⟩ := by
        rw [rolled]
        split <;> rfl
      rw [hentered, recorded_snd, hrolled, if_pos hmax]
      exact ⟨rfl, hlater, hspent, rfl⟩

/-- How many units of the phase that began at an instant the calls have spent. -/
def unitsIn (l : AdminAuthRateLimiter) (started : ℕ) : List (PeerCallKind × ℕ) → ℕ
  | [] => 0
  | (kind, now) :: calls => unitsIn l started calls +
      if kind = .consume ∧ l.spentUnits now (l.phase calls) < l.maxAuthFailures ∧
        (l.phase ((kind, now) :: calls)).map Bucket.startedAt = some started then 1 else 0

/-- The units of the current phase are in its bucket, which holds no more than the budget, and a
phase that is yet to begin has none. -/
theorem unitsIn_phase (h : l.phase calls = some bucket) :
    l.unitsIn bucket.startedAt calls = bucket.consumed ∧
      bucket.consumed ≤ l.maxAuthFailures ∧
      ∀ later, bucket.startedAt < later → l.unitsIn later calls = 0 := by
  have hmax := l.maxAuthFailures_pos
  induction calls generalizing bucket with
  | nil => exact nomatch h
  | cons call calls ih =>
    obtain ⟨kind, now⟩ := call
    obtain ⟨after, hafter, hanew | ⟨before, hbefore, hgoes⟩⟩ := l.phase_cons kind now calls
    · obtain rfl : after = bucket := Option.some.inj (hafter.symm.trans h)
      have hnone : ∀ later, now ≤ later → l.unitsIn later calls = 0 := by
        intro later hlater
        cases hphase : l.phase calls with
        | none =>
          cases calls with
          | nil => rfl
          | cons call calls =>
            obtain ⟨after, hafter, -⟩ := l.phase_cons call.1 call.2 calls
            exact nomatch hafter.symm.trans hphase
        | some before =>
          exact (ih hphase).2.2 later (Nat.lt_of_lt_of_le (hanew.later before hphase) hlater)
      simp only [unitsIn, hafter, hanew.spent, hmax, true_and, Option.map_some, Option.some.injEq,
        hanew.units, hanew.startedAt]
      refine ⟨?_, ?_, fun later hlater => ?_⟩
      · rw [hnone now (Nat.le_refl now)]
        simp
      · split
        · exact hmax
        · exact Nat.zero_le _
      · rw [hnone later (Nat.le_of_lt hlater), if_neg fun h => Nat.ne_of_lt hlater h.2]
    · obtain rfl : after = bucket := Option.some.inj (hafter.symm.trans h)
      obtain ⟨hunits, hbound, hnone⟩ := ih hbefore
      simp only [unitsIn, hafter, hbefore, Option.map_some, Option.some.injEq, hgoes.startedAt]
      refine ⟨?_, ?_, fun later hlater => ?_⟩
      · obtain ⟨hconsume, hleft, -, hconsumed, -⟩ | ⟨rfl, hnot⟩ := hgoes.units
        · rw [if_pos ⟨hconsume, hleft, trivial⟩, hunits, hconsumed]
        · rw [if_neg fun h => hnot ⟨h.1, h.2.1⟩, hunits, Nat.add_zero]
      · obtain ⟨-, hleft, hspent, hconsumed, -⟩ | ⟨rfl, -⟩ := hgoes.units
        · omega
        · exact hbound
      · rw [hnone later hlater, if_neg fun h => Nat.ne_of_lt hlater h.2.2]

/-- No phase spends more than the budget. -/
theorem unitsIn_le (started : ℕ) (calls : List (PeerCallKind × ℕ)) :
    l.unitsIn started calls ≤ l.maxAuthFailures := by
  induction calls with
  | nil => exact Nat.zero_le _
  | cons call calls ih =>
    obtain ⟨after, hafter, -⟩ := l.phase_cons call.1 call.2 calls
    by_cases hhere : after.startedAt = started
    · obtain ⟨hunits, hbound, -⟩ := unitsIn_phase hafter
      rw [← hhere, hunits]
      exact hbound
    · rw [unitsIn, hafter, if_neg fun h => hhere (Option.some.inj h.2.2)]
      exact ih

/-- A phase began with one of its calls. -/
theorem startedAt_mem (h : l.phase calls = some bucket) :
    bucket.startedAt ∈ calls.map Prod.snd := by
  induction calls generalizing bucket with
  | nil => exact nomatch h
  | cons call calls ih =>
    obtain ⟨after, hafter, hanew | ⟨before, hbefore, hgoes⟩⟩ := l.phase_cons call.1 call.2 calls
    · obtain rfl : after = bucket := Option.some.inj (hafter.symm.trans h)
      rw [hanew.startedAt]
      exact List.mem_cons_self
    · obtain rfl : after = bucket := Option.some.inj (hafter.symm.trans h)
      rw [hgoes.startedAt]
      exact List.mem_cons_of_mem _ (ih hbefore)

/-- A phase whose budget is spent stays as it is until it has run out. -/
theorem phase_of_locked (h : l.phase calls = some bucket)
    (hspent : bucket.consumed = l.maxAuthFailures) (more : List (PeerCallKind × ℕ))
    (hrunning : ∀ call ∈ more, call.2 < bucket.startedAt + l.span) :
    l.phase (more ++ calls) = some bucket := by
  induction more with
  | nil => exact h
  | cons call more ih =>
    have hbefore := ih fun call' hcall' => hrunning call' (List.mem_cons_of_mem _ hcall')
    have hcall := hrunning call List.mem_cons_self
    have hspan := l.span_pos
    obtain ⟨after, hafter, hanew | ⟨before, hsame, hgoes⟩⟩ := l.phase_cons call.1 call.2 (more ++ calls)
    · exfalso
      rw [hbefore] at hanew
      have hzero := hanew.spent
      have hmax := l.maxAuthFailures_pos
      obtain ⟨-, hover⟩ | ⟨hsame, -⟩ := spentUnits_cases (l := l) call.2 bucket
      · omega
      · omega
    · obtain rfl : bucket = before := Option.some.inj (hbefore.symm.trans hsame)
      obtain ⟨-, hleft, hunits, -⟩ | ⟨rfl, -⟩ := hgoes.units
      · omega
      · exact hafter

end AdminAuthRateLimiter

/-! ## What the calls show -/

/-- The consumptions that count are the units of the phase. -/
theorem length_countedIn {served : List (PeerCall × PeerAnswer)}
    (h : ownAnswers (callOf peer) served = replay l.judgement (ownCalls (callOf peer) served))
    (started : ℕ) :
    (countedIn l peer started served).length =
      l.unitsIn started (ownCalls (callOf peer) served) := by
  induction served with
  | nil => rfl
  | cons e served ih =>
    obtain ⟨c, a⟩ := e
    by_cases hown : c.peer = peer
    · obtain ⟨hanswer, hrest⟩ := answer_of_replay h (List.nil_append _).symm (callOf_self hown)
      have hspent : a.spent = l.spentUnits c.now (l.phase (ownCalls (callOf peer) served)) := by
        rw [hanswer]
        cases c.kind <;> rfl
      have hbucket : a.bucket = l.phase ((c.kind, c.now) :: ownCalls (callOf peer) served) := by
        rw [hanswer]
        cases c.kind <;> rfl
      rw [ownCalls_cons_some (callOf_self hown), AdminAuthRateLimiter.unitsIn, ← ih hrest,
        countedIn, List.filter_cons]
      simp only [Counts, hown, true_and, hspent, hbucket, Bool.and_eq_true, decide_eq_true_eq,
        and_assoc]
      split <;> rfl
    · rw [ownCalls_cons_none (callOf_other hown)]
      rw [ownAnswers_cons_none (callOf_other hown), ownCalls_cons_none (callOf_other hown)] at h
      rw [← ih h, countedIn, List.filter_cons_of_neg (by simp [Counts, hown])]
      rfl

section Answers

variable {state : PeerBuckets} {later earlier : List (PeerCall × PeerAnswer)} {c : PeerCall}
  {a : PeerAnswer} {started : ℕ}

/-- The calls before one come at earlier instants. -/
theorem PeerLedger.before (h : PeerLedger l peer ⟨state, later ++ (c, a) :: earlier⟩)
    (hown : c.peer = peer) : ∀ call ∈ ownCalls (callOf peer) earlier, call.2 ≤ c.now := by
  have hordered := (List.pairwise_cons.mp h.ordered).2
  rw [ownCalls_append, ownCalls_cons_some (callOf_self hown), List.map_append, List.map_cons,
    List.pairwise_append] at hordered
  have hfirst := (List.pairwise_cons.mp hordered.2.1).1
  exact fun call hcall => hfirst call.2 (List.mem_map_of_mem hcall)

/-- The bucket after a call is that of the phase. -/
theorem PeerLedger.bucket (h : PeerLedger l peer ⟨state, later ++ (c, a) :: earlier⟩)
    (hown : c.peer = peer) :
    a.bucket = l.phase ((c.kind, c.now) :: ownCalls (callOf peer) earlier) := by
  rw [(answer_of_replay h.replayed rfl (callOf_self hown)).1]
  cases c.kind <;> rfl

/-- The last unit is spent before the window of the phase has closed. -/
theorem PeerLedger.spentInWindow (h : PeerLedger l peer ⟨state, later ++ (c, a) :: earlier⟩)
    (hspends : SpendsLast l peer started (c, a)) : c.now < started + l.failureWindow := by
  obtain ⟨hcounts, hbucket⟩ := hspends
  obtain ⟨hown, hconsume, hleft⟩ := of_decide_eq_true hcounts
  have hwindow := l.failureWindow_pos
  have hanswer := (answer_of_replay h.replayed rfl (callOf_self hown)).1
  have hspent : a.spent = l.spentUnits c.now (l.phase (ownCalls (callOf peer) earlier)) := by
    rw [hanswer]
    cases c.kind <;> rfl
  have hphase := h.bucket hown
  obtain ⟨after, hafter, hanew | ⟨before, hbefore, hgoes⟩⟩ :=
    l.phase_cons c.kind c.now (ownCalls (callOf peer) earlier)
  · rw [hafter, hbucket] at hphase
    obtain rfl := Option.some.inj hphase
    have hstarted := hanew.startedAt
    simp only at hstarted
    omega
  · rw [hafter, hbucket] at hphase
    obtain rfl := Option.some.inj hphase
    rw [hspent, hbefore] at hleft
    obtain ⟨-, -, -, -, hyoung⟩ | ⟨-, hnot⟩ := hgoes.units
    · have hstarted := hgoes.startedAt
      simp only at hstarted
      omega
    · exact absurd ⟨hconsume, hleft⟩ hnot

/-- A check of a spent phase that has not run out is denied. -/
theorem judgement_locked {calls : List (PeerCallKind × ℕ)} {now : ℕ}
    (h : l.phase calls = some ⟨started, l.maxAuthFailures⟩) (hrunning : now < started + l.span) :
    ∃ secs, (l.judgement calls (.check, now)).decision = some (.deny secs) := by
  have hspan := l.span_pos
  have halive : l.alive now ⟨started, l.maxAuthFailures⟩ = true := by
    rw [AdminAuthRateLimiter.alive, decide_eq_true_eq]
    simp only
    omega
  have hentered : l.entered now (l.phase calls) = ⟨started, l.maxAuthFailures⟩ := by
    rw [h, AdminAuthRateLimiter.entered, Option.filter_some, if_pos halive]
    rfl
  rw [AdminAuthRateLimiter.alive, decide_eq_true_eq] at halive
  simp only [AdminAuthRateLimiter.judgement, hentered, AdminAuthRateLimiter.decisionAt]
  rw [if_neg (by simp only at halive ⊢; omega)]
  exact ⟨_, rfl⟩

/-- After the last unit is spent every check within the lockout is denied. -/
theorem PeerLedger.lockedOut {e : PeerCall × PeerAnswer}
    (h : PeerLedger l peer ⟨state, later ++ (c, a) :: earlier⟩)
    (hspends : SpendsLast l peer started (c, a)) (he : e ∈ later) (hcheck : e.1.kind = .check)
    (hpeer : e.1.peer = peer) (hwithin : e.1.now < c.now + l.lockout) :
    ∃ secs, e.2.decision = some (.deny secs) := by
  obtain ⟨hown, hconsume, -⟩ := of_decide_eq_true hspends.1
  have hyoung := h.spentInWindow hspends
  have hphase := (h.bucket hown).symm.trans hspends.2
  obtain ⟨more, rest, rfl⟩ := List.append_of_mem he
  have hsplit : (more ++ e :: rest) ++ (c, a) :: earlier =
      more ++ (e.1, e.2) :: (rest ++ (c, a) :: earlier) := by
    simp
  rw [hsplit] at h
  have hbefore := h.before hpeer
  have hanswer := (answer_of_replay h.replayed rfl (callOf_self hpeer)).1
  rw [ownCalls_append, ownCalls_cons_some (callOf_self hown)] at hbefore hanswer
  have hrunning : e.1.now < started + l.span := by
    rw [AdminAuthRateLimiter.span]
    omega
  have hlocked := AdminAuthRateLimiter.phase_of_locked hphase rfl
    (ownCalls (callOf peer) rest) fun call hcall =>
      Nat.lt_of_le_of_lt (hbefore call (List.mem_append_left _ hcall)) hrunning
  rw [hanswer, hcheck]
  exact judgement_locked hlocked hrunning

/-- What counts towards the lockout is younger than the window. -/
theorem PeerLedger.youngEnough (h : PeerLedger l peer ⟨state, later ++ (c, a) :: earlier⟩)
    (hspends : SpendsLast l peer started (c, a)) :
    (countedIn l peer started ((c, a) :: earlier)).length = l.maxAuthFailures ∧
      ∀ e ∈ countedIn l peer started ((c, a) :: earlier), c.now < e.1.now + l.failureWindow := by
  obtain ⟨hown, -, -⟩ := of_decide_eq_true hspends.1
  have hyoung := h.spentInWindow hspends
  have hphase := (h.bucket hown).symm.trans hspends.2
  obtain ⟨hanswer, hearlier⟩ := answer_of_replay h.replayed rfl (callOf_self hown)
  refine ⟨?_, fun e he => ?_⟩
  · rw [length_countedIn (replay_cons_some (callOf_self hown) hanswer hearlier),
      ownCalls_cons_some (callOf_self hown)]
    exact (AdminAuthRateLimiter.unitsIn_phase hphase).1
  · obtain ⟨hmem, hcounted⟩ := List.mem_filter.mp he
    obtain ⟨hcounts, hstarted⟩ := Bool.and_eq_true_iff.mp hcounted
    obtain ⟨hpeer, -, -⟩ := of_decide_eq_true hcounts
    obtain ⟨more, rest, hsplit⟩ := List.append_of_mem hmem
    have hserved : later ++ (c, a) :: earlier = (later ++ more) ++ (e.1, e.2) :: rest := by
      rw [hsplit, List.append_assoc]
    rw [hserved] at h
    have hbucket := h.bucket hpeer
    obtain ⟨bucket, hsome, hbegan⟩ := Option.map_eq_some_iff.mp (of_decide_eq_true hstarted)
    rw [hsome] at hbucket
    obtain ⟨call, hcall, hinstant⟩ := List.mem_map.mp
      (AdminAuthRateLimiter.startedAt_mem hbucket.symm)
    have hle : call.2 ≤ e.1.now := by
      obtain rfl | hcall := List.mem_cons.mp hcall
      · exact Nat.le_refl _
      · exact h.before hpeer call hcall
    omega

end Answers

/-! ## The law holds where the lifetime has a representation -/

theorem lockoutLaw_of_fits (hfits : l.span ≤ maxDuration) : LockoutLaw l where
  lockedOut as log hrun peer later trip earlier started hsplit hspends e he hcheck hpeer hwithin := by
    have h := peerLedger_of_run hfits hrun peer
    obtain ⟨state, served⟩ := log
    subst hsplit
    exact h.lockedOut hspends he hcheck hpeer hwithin
  withinBudget as log hrun peer started := by
    rw [length_countedIn (peerLedger_of_run hfits hrun peer).replayed]
    exact AdminAuthRateLimiter.unitsIn_le started _
  youngEnough as log hrun peer later trip earlier started hsplit hspends := by
    have h := peerLedger_of_run hfits hrun peer
    obtain ⟨state, served⟩ := log
    subst hsplit
    exact h.youngEnough hspends
  independent as log as' log' hrun hrun' peer hcalls :=
    ownAnswers_eq (peerLedger_of_run hfits hrun peer).replayed
      (peerLedger_of_run hfits hrun' peer).replayed hcalls

/-- A call under a lifetime without a representation panics, and nothing is limited afterwards. -/
theorem callAt_of_overflow (h : maxDuration < l.span) (c : PeerCall) {state : PeerBuckets}
    (hsound : state.poisoned = false) :
    l.callAt c state = (none, { state with poisoned := true }) := by
  have hlifetime : l.bucketLifetime = none := if_neg (Nat.not_le_of_lt h)
  rw [AdminAuthRateLimiter.callAt]
  cases c.kind with
  | check =>
    simp [AdminAuthRateLimiter.checkAt, AdminAuthRateLimiter.withState, hsound, hlifetime]
  | consume =>
    simp [AdminAuthRateLimiter.consumeAt, AdminAuthRateLimiter.withState, hsound, hlifetime]

theorem callAt_of_poisoned (c : PeerCall) {state : PeerBuckets} (h : state.poisoned = true) :
    l.callAt c state = (some .allow, state) := by
  rw [AdminAuthRateLimiter.callAt]
  cases c.kind with
  | check => simp [AdminAuthRateLimiter.checkAt, AdminAuthRateLimiter.withState, h]
  | consume => simp [AdminAuthRateLimiter.consumeAt, AdminAuthRateLimiter.withState, h]

theorem hasRoom_empty (now : ℕ) (peer : String) : l.hasRoom now noPeers.peers peer = true := by
  rw [AdminAuthRateLimiter.hasRoom]
  simp [noPeers, Table.deleteWhere, maxTrackedPeers]

/-- A check at the start. -/
def firstCheck (peer : String) : PeerCall := ⟨.check, peer, 0⟩

/-- Without a representation of the lifetime a call for another peer changes the answer. -/
theorem not_lockoutLaw_of_overflow (h : maxDuration < l.span) : ¬ LockoutLaw l := by
  intro law
  have hpanic := callAt_of_overflow h
  have hroom := fun peer => @hasRoom_empty l 0 peer
  have hfirst : ∀ peer, (adminLimiter l).Run (KeepsAll l) (.start noPeers) [.call (firstCheck peer)]
      (l.service.answer (firstCheck peer) (.start noPeers)) := fun peer =>
    .single ⟨Nat.le_refl 0, fun c heq => by cases heq; exact hroom peer⟩ rfl
  have hbeside : (adminLimiter l).Run (KeepsAll l)
      (l.service.answer (firstCheck "192.0.2.2") (.start noPeers))
      [.call (firstCheck "192.0.2.1")] (l.service.answer (firstCheck "192.0.2.1")
        (l.service.answer (firstCheck "192.0.2.2") (.start noPeers))) := by
    refine .single ⟨Nat.le_refl 0, fun c heq => ?_⟩ rfl
    cases heq
    have hstate : (l.service.answer (firstCheck "192.0.2.2") (.start noPeers)).state =
        ⟨∅, true⟩ := congrArg Prod.snd (@hpanic (firstCheck "192.0.2.2") noPeers rfl)
    rw [hstate]
    exact hroom "192.0.2.1"
  have hsame := law.independent _ _ _ _ (hfirst "192.0.2.1")
    ((hfirst "192.0.2.2").trans hbeside) "192.0.2.1" rfl
  have hdecisions := congrArg (List.map fun e => e.2.decision) hsame
  change [(l.callAt (firstCheck "192.0.2.1") noPeers).1] =
    [(l.callAt (firstCheck "192.0.2.1") (l.callAt (firstCheck "192.0.2.2") noPeers).2).1]
    at hdecisions
  rw [@hpanic (firstCheck "192.0.2.2") noPeers rfl, @callAt_of_poisoned l _ { noPeers with poisoned := true } rfl,
    @hpanic (firstCheck "192.0.2.1") noPeers rfl] at hdecisions
  exact nomatch hdecisions

/-- **The lockout of a peer** is as it should be exactly where window and lockout have a sum. -/
theorem lockout_law_iff (l : AdminAuthRateLimiter) :
    LockoutLaw l ↔ l.failureWindow + l.lockout ≤ maxDuration := by
  constructor
  · intro law
    by_contra hover
    exact not_lockoutLaw_of_overflow (Nat.lt_of_not_le hover) law
  · exact lockoutLaw_of_fits

/-- The longest window that a duration can give, and a lockout of a second. -/
def endlessWindow : AdminAuthRateLimiter :=
  ⟨(2 ^ 64 - 1) * nanosPerSec.toNat, nanosPerSec.toNat, 5, by decide, longest_pos, second_pos⟩

theorem lockout_law_fails : ¬ LockoutLaw endlessWindow :=
  not_lockoutLaw_of_overflow (by decide)

end OidcExchange
