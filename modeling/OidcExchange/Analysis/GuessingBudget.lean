import OidcExchange.Interleaving.Testing
import OidcExchange.Program.InternalAuth
import Mathlib.Data.List.Perm.Subperm

/-!
# The guessing budget of operators

A request that has consulted the limiter is not stopped by failures recorded since. So the budget
holds where a request that is going to be refused is let past the consult only while the failures
recorded and the other such requests under way leave a unit for it: then each refusal of a phase
is either recorded in its bucket or still to be recorded.
-/

set_option autoImplicit false

namespace OidcExchange

open Storage Interleaving Throttling

/-! ## The limiter -/

namespace AdminAuthRateLimiter

variable {l : AdminAuthRateLimiter} {peer peer' : String} {now later : ℕ} {kept : Option Bucket}
  {bucket : Bucket} {state : PeerBuckets} {peers : Table String Bucket}

variable (l)

/-- Whether a bucket has not run out. -/
def alive (now : ℕ) (bucket : Bucket) : Bool := decide (now - bucket.startedAt < l.span)

/-- The bucket of a peer once it is in the table. -/
def entered (now : ℕ) (kept : Option Bucket) : Bucket :=
  (kept.filter (l.alive now)).getD { startedAt := now, consumed := 0 }

/-- Nobody is displaced when the peer is entered. -/
def hasRoom (now : ℕ) (peers : Table String Bucket) (peer : String) : Bool :=
  let live := peers.deleteWhere fun _ bucket => !decide (now - bucket.startedAt < l.span)
  (live.lookup peer).isSome ||
    decide ((live.insert peer { startedAt := now, consumed := 0 }).entries.length ≤ maxTrackedPeers)

variable {l}

theorem span_pos : 0 < l.span := by
  have := l.failureWindow_pos
  unfold span
  omega

theorem lookup_live : (peers.deleteWhere fun _ bucket =>
    !decide (now - bucket.startedAt < l.span)).lookup peer =
      (peers.lookup peer).filter (l.alive now) := by
  ext bucket
  rw [Table.lookup_deleteWhere_eq_some, Option.filter_eq_some_iff]
  simp [alive]

/-- Entering a peer where there is room. -/
theorem liveBuckets_eq (hroom : l.hasRoom now peers peer = true) :
    ∃ live, liveBuckets l.span peer now peers = some (live, l.entered now (peers.lookup peer)) ∧
      live.lookup peer = some (l.entered now (peers.lookup peer)) ∧
      ∀ peer', peer' ≠ peer → live.lookup peer' = (peers.lookup peer').filter (l.alive now) := by
  unfold liveBuckets
  have hpeer := @lookup_live l peer now peers
  cases hlookup : (peers.lookup peer).filter (l.alive now) with
  | some bucket =>
    rw [hlookup] at hpeer
    refine ⟨_, ?_, ?_, fun peer' hne => lookup_live⟩
    · simp [hpeer, entered, hlookup]
    · simp [hpeer, entered, hlookup]
  | none =>
    rw [hlookup] at hpeer
    simp only [hasRoom, hpeer, Option.isSome_none, Bool.false_or, decide_eq_true_eq] at hroom
    refine ⟨(peers.deleteWhere fun _ bucket => !decide (now - bucket.startedAt < l.span)).insert
      peer { startedAt := now, consumed := 0 }, ?_, ?_, fun peer' hne => ?_⟩
    · simp only [hpeer, enter]
      rw [if_neg (Nat.not_lt.mpr hroom)]
      simp [entered, hlookup]
    · simp [entered, hlookup]
    · rw [AList.lookup_insert_ne hne]
      exact lookup_live

section Updates

variable (hfits : l.span ≤ maxDuration) (hsound : state.poisoned = false)
  (hroom : l.hasRoom now state.peers peer = true)

include hfits

theorem bucketLifetime_eq : l.bucketLifetime = some l.span := if_pos hfits

include hsound hroom

/-- A consult. -/
theorem checkAt_spec :
    (l.checkAt peer now state).1 =
        some (l.decisionAt (l.entered now (state.peers.lookup peer)) now l.span) ∧
      (l.checkAt peer now state).2.poisoned = false ∧
      (l.checkAt peer now state).2.peers.lookup peer =
        some (l.entered now (state.peers.lookup peer)) ∧
      ∀ peer', peer' ≠ peer → (l.checkAt peer now state).2.peers.lookup peer' =
        (state.peers.lookup peer').filter (l.alive now) := by
  obtain ⟨live, hlive, hpeer, hothers⟩ := liveBuckets_eq hroom
  have hcheck : l.checkAt peer now state =
      (some (l.decisionAt (l.entered now (state.peers.lookup peer)) now l.span),
        { state with peers := live }) := by
    simp [checkAt, withState, hsound, bucketLifetime_eq hfits, hlive]
  rw [hcheck]
  exact ⟨rfl, hsound, hpeer, hothers⟩

/-- A recorded failure. -/
theorem consumeAt_spec :
    (∃ decision, (l.consumeAt peer now state).1 = some decision) ∧
      (l.consumeAt peer now state).2.poisoned = false ∧
      (l.consumeAt peer now state).2.peers.lookup peer =
        some (l.recorded (l.entered now (state.peers.lookup peer)) now l.span).2 ∧
      ∀ peer', peer' ≠ peer → (l.consumeAt peer now state).2.peers.lookup peer' =
        (state.peers.lookup peer').filter (l.alive now) := by
  obtain ⟨live, hlive, hpeer, hothers⟩ := liveBuckets_eq hroom
  have hconsume : l.consumeAt peer now state =
      (some (l.recorded (l.entered now (state.peers.lookup peer)) now l.span).1,
        { state with
          peers := live.insert peer
            (l.recorded (l.entered now (state.peers.lookup peer)) now l.span).2 }) := by
    simp [consumeAt, withState, hsound, bucketLifetime_eq hfits, hlive]
  rw [hconsume]
  refine ⟨⟨_, rfl⟩, hsound, ?_, fun peer' hne => ?_⟩
  · exact AList.lookup_insert _
  · exact (AList.lookup_insert_ne hne).trans (hothers peer' hne)

end Updates

/-! ### Units -/

/-- What counts of a bucket: nothing once it has run out or gone stale, else what it holds. -/
theorem spentUnits_cases (now : ℕ) (bucket : Bucket) :
    (l.spentUnits now (some bucket) = 0 ∧ (l.span ≤ now - bucket.startedAt ∨
      (l.failureWindow ≤ now - bucket.startedAt ∧ bucket.consumed < l.maxAuthFailures))) ∨
    (l.spentUnits now (some bucket) = bucket.consumed ∧ now - bucket.startedAt < l.span ∧
      (now - bucket.startedAt < l.failureWindow ∨ l.maxAuthFailures ≤ bucket.consumed)) := by
  simp only [spentUnits, rolled, Option.elim_some]
  by_cases hover : l.span ≤ now - bucket.startedAt ∨
      (l.failureWindow ≤ now - bucket.startedAt ∧ bucket.consumed < l.maxAuthFailures)
  · rw [if_pos hover]
    exact .inl ⟨rfl, hover⟩
  · rw [if_neg hover]
    refine .inr ⟨rfl, ?_⟩
    omega

/-- With time, units only stop counting. -/
theorem spentUnits_anti (hlater : now ≤ later) :
    l.spentUnits later kept ≤ l.spentUnits now kept := by
  cases kept with
  | none => exact Nat.le_refl _
  | some bucket =>
    obtain ⟨hzero, -⟩ | ⟨hsame, hlive, hopen⟩ := spentUnits_cases (l := l) later bucket
    · omega
    · obtain ⟨-, hover⟩ | ⟨hnow, -⟩ := spentUnits_cases (l := l) now bucket
      · omega
      · omega

/-- A bucket that has run out counts for nothing. -/
theorem spentUnits_filter : l.spentUnits now (kept.filter (l.alive now)) = l.spentUnits now kept := by
  cases kept with
  | none => rfl
  | some bucket =>
    by_cases halive : l.alive now bucket = true
    · rw [Option.filter_some, if_pos halive]
    · rw [Option.filter_some, if_neg halive]
      obtain ⟨hzero, -⟩ | ⟨-, hlive, -⟩ := spentUnits_cases (l := l) now bucket
      · exact hzero.symm
      · exact absurd (decide_eq_true hlive) halive

/-- Entering a peer changes nothing of what counts. -/
theorem spentUnits_entered : l.spentUnits now (some (l.entered now kept)) = l.spentUnits now kept := by
  rw [← @spentUnits_filter l now kept, entered]
  cases hfilter : kept.filter (l.alive now) with
  | some bucket => rfl
  | none =>
    obtain ⟨hzero, -⟩ | ⟨hsame, -⟩ := spentUnits_cases (l := l) now ⟨now, 0⟩
    · exact hzero
    · exact hsame

/-- An entered bucket has not run out. -/
theorem entered_alive : now - (l.entered now kept).startedAt < l.span := by
  unfold entered
  cases hfilter : kept.filter (l.alive now) with
  | some bucket =>
    have := (Option.filter_eq_some_iff.mp hfilter).2
    simpa [alive] using this
  | none =>
    show now - now < l.span
    have := l.span_pos
    omega

/-- A consult lets a request past exactly while a unit is left. -/
theorem decisionAt_allow_iff :
    l.decisionAt (l.entered now kept) now l.span = .allow ↔
      l.spentUnits now kept < l.maxAuthFailures := by
  have halive := @entered_alive l now kept
  have hpos := l.maxAuthFailures_pos
  rw [← spentUnits_entered]
  unfold decisionAt
  by_cases hleft : (l.entered now kept).consumed < l.maxAuthFailures
  · simp only [hleft, true_or, ↓reduceIte, true_iff]
    obtain ⟨hzero, -⟩ | ⟨hsame, -⟩ := spentUnits_cases (l := l) now (l.entered now kept)
    · omega
    · omega
  · have hno : ¬ ((l.entered now kept).consumed < l.maxAuthFailures ∨
        l.span ≤ now - (l.entered now kept).startedAt) := by omega
    simp only [hno, ↓reduceIte, reduceCtorEq, false_iff]
    obtain ⟨hzero, hover⟩ | ⟨hsame, -⟩ := spentUnits_cases (l := l) now (l.entered now kept)
    · omega
    · omega

/-- The bucket after a failure that finds a unit left: it holds one unit more than counted, and
either the phase goes on or a new one starts now. -/
theorem recorded_cases (hleft : l.spentUnits now (some bucket) < l.maxAuthFailures) :
    (l.recorded bucket now l.span).2.consumed = l.spentUnits now (some bucket) + 1 ∧
      ((l.recorded bucket now l.span).2.startedAt = bucket.startedAt ∧
          l.spentUnits now (some bucket) = bucket.consumed ∨
        (l.recorded bucket now l.span).2.startedAt = now ∧ bucket.startedAt < now) := by
  have hspent : (l.rolled bucket now l.span).consumed = l.spentUnits now (some bucket) := rfl
  have hrecorded : (l.recorded bucket now l.span).2 =
      { l.rolled bucket now l.span with consumed := l.spentUnits now (some bucket) + 1 } := by
    simp only [recorded, hspent, hleft, ↓reduceIte]
    split <;> rfl
  rw [hrecorded]
  refine ⟨rfl, ?_⟩
  have hwindow := l.failureWindow_pos
  have hspan := l.span_pos
  simp only [rolled, spentUnits, Option.elim_some] at hspent ⊢
  split
  · exact .inr ⟨rfl, by omega⟩
  · exact .inl ⟨rfl, rfl⟩

/-- What counts of a bucket that a failure has just been recorded in. -/
theorem spentUnits_recorded (hleft : l.spentUnits now (some bucket) < l.maxAuthFailures) :
    l.spentUnits now (some (l.recorded bucket now l.span).2) ≤
      l.spentUnits now (some bucket) + 1 := by
  obtain ⟨hconsumed, -⟩ := recorded_cases hleft
  obtain ⟨hzero, -⟩ | ⟨hsame, -⟩ :=
    spentUnits_cases (l := l) now (l.recorded bucket now l.span).2
  · omega
  · omega

end AdminAuthRateLimiter

/-! ## What a history shows of a peer -/

abbrev OperatorEvent : Type := Event OperatorAns InternalRequest

abbrev OperatorMoment : Type := Moment OperatorAns InternalRequest OperatorWorld

abbrev OperatorPool : Type :=
  Pool OperatorAns InternalRequest (Fault Error) InternalResponse OperatorWorld

section Views

variable (peer : String)

/-- The request that an event lets past the consult. -/
def admits : OperatorEvent → Option ℕ
  | .performed c (.check peer') (.ok .allow) => if peer' = peer then some c else none
  | _ => none

/-- The request whose credential an event refuses. -/
def refuses : OperatorEvent → Option ℕ
  | .performed c (.authenticate request) (.error _) =>
    if request.peer = some peer then some c else none
  | _ => none

/-- The request whose failure an event records. -/
def records : OperatorEvent → Option ℕ
  | .performed c (.consume peer') _ => if peer' = peer then some c else none
  | _ => none

/-- The requests of the peer that have been let past, newest first. -/
def admitted (history : List OperatorEvent) : List ℕ := history.filterMap (admits peer)

def refused (history : List OperatorEvent) : List ℕ := history.filterMap (refuses peer)

def recordedOf (history : List OperatorEvent) : List ℕ := history.filterMap (records peer)

/-- The requests that are going to be refused and whose failure has not been recorded; `fate`
tells which requests those are. -/
def underWay (fate : ℕ → Bool) (history : List OperatorEvent) : List ℕ :=
  (admitted peer history).filter fun c => fate c && !(recordedOf peer history).contains c

/-- The requests that have been refused without that being recorded yet. -/
def unrecorded (history : List OperatorEvent) : List ℕ :=
  (refused peer history).filter fun c => !(recordedOf peer history).contains c

end Views

section Views

variable {peer : String} {fate : ℕ → Bool} {history : List OperatorEvent} {e : OperatorEvent}
  {c : ℕ}

/-- An event that the views do not see. -/
theorem views_of_blind (hadmits : admits peer e = none) (hrefuses : refuses peer e = none)
    (hrecords : records peer e = none) :
    admitted peer (e :: history) = admitted peer history ∧
      refused peer (e :: history) = refused peer history ∧
      recordedOf peer (e :: history) = recordedOf peer history :=
  ⟨List.filterMap_cons_none hadmits, List.filterMap_cons_none hrefuses,
    List.filterMap_cons_none hrecords⟩

theorem mem_admitted : c ∈ admitted peer history ↔
    .performed c (.check peer) (.ok .allow) ∈ history := by
  rw [admitted, List.mem_filterMap]
  constructor
  · rintro ⟨e, hmem, he⟩
    unfold admits at he
    split at he
    · obtain ⟨rfl, rfl⟩ : _ = peer ∧ _ = c := by simpa using he
      exact hmem
    · exact nomatch he
  · intro hmem
    exact ⟨_, hmem, by simp [admits]⟩

/-- A consult that does not let the request past. -/
theorem admits_of_denied {ans : Answer RateLimitDecision} (h : ans ≠ .ok .allow) :
    admits peer (.performed c (.check peer) ans) = none := by
  obtain (_ | _) | decision := ans
  · rfl
  · rfl
  · cases decision with
    | allow => exact absurd rfl h
    | deny retryAfterSecs => rfl

/-- A consult for another peer. -/
theorem admits_of_ne {peer' : String} (hne : peer' ≠ peer) (ans : Answer RateLimitDecision) :
    admits peer (.performed c (.check peer') ans) = none := by
  obtain (_ | _) | decision := ans
  · rfl
  · rfl
  · cases decision with
    | allow => exact if_neg hne
    | deny retryAfterSecs => rfl

theorem mem_recordedOf : c ∈ recordedOf peer history ↔
    ∃ ans, .performed c (.consume peer) ans ∈ history := by
  rw [recordedOf, List.mem_filterMap]
  constructor
  · rintro ⟨e, hmem, he⟩
    unfold records at he
    split at he
    · rename_i c' peer' ans
      obtain ⟨rfl, rfl⟩ : peer' = peer ∧ c' = c := by simpa using he
      exact ⟨ans, hmem⟩
    · exact nomatch he
  · rintro ⟨ans, hmem⟩
    exact ⟨_, hmem, by simp [records]⟩

theorem mem_refused : c ∈ refused peer history ↔
    ∃ request reason, request.peer = some peer ∧
      .performed c (.authenticate request) (.error reason) ∈ history := by
  rw [refused, List.mem_filterMap]
  constructor
  · rintro ⟨e, hmem, he⟩
    unfold refuses at he
    split at he
    · rename_i c' request reason
      obtain ⟨hpeer, rfl⟩ : request.peer = some peer ∧ c' = c := by simpa using he
      exact ⟨request, reason, hpeer, hmem⟩
    · exact nomatch he
  · rintro ⟨request, reason, hpeer, hmem⟩
    exact ⟨_, hmem, by simp [refuses, hpeer]⟩

theorem mem_underWay : c ∈ underWay peer fate history ↔
    c ∈ admitted peer history ∧ fate c = true ∧ c ∉ recordedOf peer history := by
  simp [underWay]

theorem mem_unrecorded : c ∈ unrecorded peer history ↔
    c ∈ refused peer history ∧ c ∉ recordedOf peer history := by
  simp [unrecorded]

/-- A list of distinct calls without one that is in it. -/
theorem length_filter_ne {l : List ℕ} (hl : l.Nodup) (hc : c ∈ l) :
    (l.filter fun c' => c' != c).length + 1 = l.length := by
  rw [← hl.erase_eq_filter, List.length_erase_of_mem hc]
  have := List.length_pos_of_mem hc
  omega

/-- Recording the failure of a request that is under way. -/
theorem filter_recorded (l : List ℕ) (p : ℕ → Bool) (ans : Answer RateLimitDecision) :
    l.filter (fun c' => p c' && !(recordedOf peer
        (.performed c (.consume peer) ans :: history)).contains c') =
      (l.filter fun c' => p c' && !(recordedOf peer history).contains c').filter
        fun c' => c' != c := by
  have hrecorded : recordedOf peer (.performed c (.consume peer) ans :: history) =
      c :: recordedOf peer history := by
    simp [recordedOf, records]
  rw [hrecorded, List.filter_filter]
  apply List.filter_congr
  intro c' _
  by_cases hc : c' = c
  · simp [hc]
  · simp [hc]

end Views

/-! ## Requests -/

/-- What a request performs: it consults, is evaluated if it was let past, and records that it was
refused. -/
def OperatorReady (request : InternalRequest) (past : List (Performed OperatorAns)) :
    OperatorOp → Prop
  | .check peer => past = [] ∧ request.peer = some peer
  | .authenticate request' => request' = request ∧ ∀ peer, request.peer = some peer →
      past = [⟨.check peer, .ok .allow⟩]
  | .consume peer => request.peer = some peer ∧ ∃ reason,
      past = [⟨.authenticate request, .error reason⟩, ⟨.check peer, .ok .allow⟩]
  | .next _ _ => True
  | .emit _ _ _ => True

section Requests

variable {request : InternalRequest} {past : List (Performed OperatorAns)}
  {post : List (Performed OperatorAns) → Except (Fault Error) InternalResponse → Prop}

theorem requireSecurityEvent_obeys (event : SecurityEvent) (response : InternalResponse) :
    (requireSecurityEvent event request response).Obeys (OperatorReady request)
      (fun _ _ => True) past := by
  refine ⟨trivial, fun ans => ?_⟩
  obtain (_ | _) | _ := ans <;> trivial

theorem evaluateOperator_obeys
    (hpast : ∀ peer, request.peer = some peer → past = [⟨.check peer, .ok .allow⟩]) :
    (evaluateOperator request).Obeys (OperatorReady request) (fun _ _ => True) past := by
  refine ⟨⟨rfl, hpast⟩, fun outcome => ?_⟩
  cases outcome with
  | ok principal => exact ⟨trivial, fun _ => trivial⟩
  | error reason =>
    show (refuseOperator request reason).Obeys _ _ _
    unfold refuseOperator
    cases hpeer : request.peer with
    | none => exact requireSecurityEvent_obeys _ _
    | some peer =>
      refine ⟨⟨hpeer, reason, by rw [hpast peer hpeer]⟩, fun ans => ?_⟩
      obtain (_ | _) | _ := ans
      · exact requireSecurityEvent_obeys _ _
      · trivial
      · exact requireSecurityEvent_obeys _ _

theorem internalAuthLayer_obeys (request : InternalRequest) :
    (internalAuthLayer request).Obeys (OperatorReady request) (fun _ _ => True) [] := by
  unfold internalAuthLayer
  cases hpeer : request.peer with
  | none => exact evaluateOperator_obeys (by simp [hpeer])
  | some peer =>
    refine ⟨⟨rfl, hpeer⟩, fun ans => ?_⟩
    obtain (_ | _) | decision := ans
    · trivial
    · trivial
    · cases decision with
      | allow =>
        apply evaluateOperator_obeys
        intro peer' hpeer'
        rw [hpeer] at hpeer'
        obtain rfl : peer = peer' := Option.some.inj hpeer'
        rfl
      | deny retryAfterSecs => exact requireSecurityEvent_obeys _ _

end Requests

/-! ## The ledger -/

/-- Bounds of one peer: what counts in its bucket and what is under way stay within the budget. -/
structure GuessLedger (l : AdminAuthRateLimiter) (peer : String) (fate : ℕ → Bool)
    (m : OperatorMoment) : Prop where
  sound : m.world.buckets.poisoned = false
  admittedOnce : (admitted peer m.history).Nodup
  refusedOnce : (refused peer m.history).Nodup
  traced : ∀ c ∈ refused peer m.history, c ∈ admitted peer m.history ∧ fate c = true
  within : l.spentUnits m.world.clock (m.world.buckets.peers.lookup peer) +
    (underWay peer fate m.history).length ≤ l.maxAuthFailures

/-- The phase that began at `start`, seen since `base`: each refusal since then is recorded in its
bucket or is not recorded yet. -/
structure PhaseLedger (peer : String) (start : ℕ) (base : List OperatorEvent) (m : OperatorMoment) :
    Prop where
  since : base <:+ m.history
  counted : ∀ bucket, m.world.buckets.peers.lookup peer = some bucket → bucket.startedAt = start →
    (refused peer m.history).length ≤
      (refused peer base).length + bucket.consumed + (unrecorded peer m.history).length
  passed : (∀ bucket, m.world.buckets.peers.lookup peer = some bucket →
    bucket.startedAt ≠ start) → start < m.world.clock

/-- Nobody is displaced. -/
def KeepsPeers (l : AdminAuthRateLimiter) (m : OperatorMoment) (_c : ℕ) (_x : OperatorChoice)
    (o : OperatorOp) : Prop :=
  ∀ peer, o = .check peer ∨ o = .consume peer →
    l.hasRoom m.world.clock m.world.buckets.peers peer = true

/-- What an operation must meet: nobody is displaced, a request of the peer that is going to be
refused is let past only while a unit is left for it, and `fate` foretells the refusals. -/
structure WithinBudget (l : AdminAuthRateLimiter) (peer : String) (fate : ℕ → Bool)
    (m : OperatorMoment) (c : ℕ) (x : OperatorChoice) (o : OperatorOp) : Prop where
  room : KeepsPeers l m c x o
  leaves : o = .check peer → fate c = true →
    l.spentUnits m.world.clock (m.world.buckets.peers.lookup peer) < l.maxAuthFailures →
    l.spentUnits m.world.clock (m.world.buckets.peers.lookup peer) +
      (underWay peer fate m.history).length < l.maxAuthFailures
  foretold : ∀ request reason, o = .authenticate request → request.peer = some peer →
    x = .evaluate (.error reason) → fate c = true

section Steps

variable {l : AdminAuthRateLimiter} {peer : String} {fate : ℕ → Bool} {m : OperatorMoment}
  {c start : ℕ} {w : OperatorWorld} {base : List OperatorEvent} {e : OperatorEvent}

/-- How the bucket of the peer may change when the peer itself is not concerned: it stays, or it is
dropped because it has run out. -/
def Stays (l : AdminAuthRateLimiter) (peer : String) (w w' : OperatorWorld) : Prop :=
  w.clock ≤ w'.clock ∧ (w'.buckets.peers.lookup peer = w.buckets.peers.lookup peer ∨
    w'.buckets.peers.lookup peer = (w.buckets.peers.lookup peer).filter (l.alive w'.clock))

theorem Stays.spentUnits_le {w' : OperatorWorld} (h : Stays l peer w w') :
    l.spentUnits w'.clock (w'.buckets.peers.lookup peer) ≤
      l.spentUnits w.clock (w.buckets.peers.lookup peer) := by
  obtain ⟨hclock, hsame | hfilter⟩ := h
  · rw [hsame]
    exact AdminAuthRateLimiter.spentUnits_anti hclock
  · rw [hfilter, AdminAuthRateLimiter.spentUnits_filter]
    exact AdminAuthRateLimiter.spentUnits_anti hclock

/-- An event that does not concern the peer. -/
theorem GuessLedger.frame (h : GuessLedger l peer fate m)
    (hspent : l.spentUnits w.clock (w.buckets.peers.lookup peer) ≤
      l.spentUnits m.world.clock (m.world.buckets.peers.lookup peer))
    (hsound : w.buckets.poisoned = false) (hadmits : admits peer e = none)
    (hrefuses : refuses peer e = none) (hrecords : records peer e = none) :
    GuessLedger l peer fate ⟨w, e :: m.history⟩ := by
  obtain ⟨hadmitted, hrefused, hrecorded⟩ :=
    @views_of_blind _ m.history _ hadmits hrefuses hrecords
  have hunder : underWay peer fate (e :: m.history) = underWay peer fate m.history := by
    rw [underWay, hadmitted, hrecorded, underWay]
  refine ⟨hsound, ?_, ?_, ?_, ?_⟩
  · show (admitted peer (e :: m.history)).Nodup
    rw [hadmitted]
    exact h.admittedOnce
  · show (refused peer (e :: m.history)).Nodup
    rw [hrefused]
    exact h.refusedOnce
  · show ∀ c ∈ refused peer (e :: m.history), c ∈ admitted peer (e :: m.history) ∧ _
    rw [hrefused, hadmitted]
    exact h.traced
  · show l.spentUnits w.clock (w.buckets.peers.lookup peer) +
      (underWay peer fate (e :: m.history)).length ≤ _
    rw [hunder]
    have := h.within
    omega

theorem PhaseLedger.frame (h : PhaseLedger peer start base m) (hstays : Stays l peer m.world w)
    (hadmits : admits peer e = none) (hrefuses : refuses peer e = none)
    (hrecords : records peer e = none) : PhaseLedger peer start base ⟨w, e :: m.history⟩ := by
  obtain ⟨hadmitted, hrefused, hrecorded⟩ :=
    @views_of_blind _ m.history _ hadmits hrefuses hrecords
  have hunrecorded : unrecorded peer (e :: m.history) = unrecorded peer m.history := by
    rw [unrecorded, hrefused, hrecorded, unrecorded]
  have hkept : ∀ {bucket}, w.buckets.peers.lookup peer = some bucket →
      m.world.buckets.peers.lookup peer = some bucket := by
    intro bucket hlookup
    obtain ⟨-, hsame | hfilter⟩ := hstays
    · rw [← hsame]
      exact hlookup
    · rw [hfilter] at hlookup
      exact (Option.filter_eq_some_iff.mp hlookup).1
  refine ⟨h.since.trans (List.suffix_cons ..), ?_, ?_⟩
  · intro bucket hlookup hstart
    show (refused peer (e :: m.history)).length ≤
      _ + _ + (unrecorded peer (e :: m.history)).length
    rw [hrefused, hunrecorded]
    exact h.counted bucket (hkept hlookup) hstart
  · intro hnone
    show start < w.clock
    by_cases hold : ∀ bucket, m.world.buckets.peers.lookup peer = some bucket →
        bucket.startedAt ≠ start
    · exact Nat.lt_of_lt_of_le (h.passed hold) hstays.1
    · -- the bucket of the phase has been dropped, so it has run out
      push Not at hold
      obtain ⟨bucket, hlookup, hstart⟩ := hold
      obtain ⟨-, hsame | hfilter⟩ := hstays
      · rw [← hsame] at hlookup
        exact absurd hstart (hnone bucket hlookup)
      · have hspan := l.span_pos
        by_cases halive : l.alive w.clock bucket = true
        · have hstill : w.buckets.peers.lookup peer = some bucket := by
            rw [hfilter, hlookup, Option.filter_some, if_pos halive]
          exact absurd hstart (hnone bucket hstill)
        · simp only [AdminAuthRateLimiter.alive, decide_eq_true_eq] at halive
          omega

/-- A bucket that is entered was there, or is new where none was alive. -/
theorem entered_cases (now : ℕ) (kept : Option Bucket) :
    (kept = some (l.entered now kept)) ∨
      (l.entered now kept = ⟨now, 0⟩ ∧
        ∀ bucket, kept = some bucket → l.span ≤ now - bucket.startedAt) := by
  unfold AdminAuthRateLimiter.entered
  cases kept with
  | none => exact .inr ⟨rfl, by simp⟩
  | some bucket =>
    by_cases halive : l.alive now bucket = true
    · rw [Option.filter_some, if_pos halive]
      exact .inl rfl
    · rw [Option.filter_some, if_neg halive]
      simp only [AdminAuthRateLimiter.alive, decide_eq_true_eq, Nat.not_lt] at halive
      exact .inr ⟨rfl, by simpa using halive⟩

/-- A phase whose bucket is not there is over. -/
theorem PhaseLedger.lt_clock (h : PhaseLedger peer start base m)
    (hover : ∀ bucket, m.world.buckets.peers.lookup peer = some bucket →
      l.span ≤ m.world.clock - bucket.startedAt) : start < m.world.clock := by
  by_cases hold : ∀ bucket, m.world.buckets.peers.lookup peer = some bucket →
      bucket.startedAt ≠ start
  · exact h.passed hold
  · push Not at hold
    obtain ⟨bucket, hlookup, hstart⟩ := hold
    have := hover bucket hlookup
    have := l.span_pos
    omega

/-- The peer is entered: the phase goes on or is over. -/
theorem PhaseLedger.entered (h : PhaseLedger peer start base m) :
    (m.world.buckets.peers.lookup peer =
        some (l.entered m.world.clock (m.world.buckets.peers.lookup peer))) ∨
      (l.entered m.world.clock (m.world.buckets.peers.lookup peer) = ⟨m.world.clock, 0⟩ ∧
        start < m.world.clock) := by
  obtain hkept | ⟨hfresh, hover⟩ :=
    entered_cases (l := l) m.world.clock (m.world.buckets.peers.lookup peer)
  · exact .inl hkept
  · exact .inr ⟨hfresh, h.lt_clock hover⟩

/-- A consult of the peer leaves its bucket entered. -/
structure Consulted (l : AdminAuthRateLimiter) (peer : String) (w w' : OperatorWorld) : Prop where
  clock : w'.clock = w.clock
  sound : w'.buckets.poisoned = false
  lookup : w'.buckets.peers.lookup peer = some (l.entered w.clock (w.buckets.peers.lookup peer))

/-- A request of the peer is let past. -/
theorem GuessLedger.admit (h : GuessLedger l peer fate m) (hconsulted : Consulted l peer m.world w)
    (hnew : c ∉ admitted peer m.history) (hunrecorded : c ∉ recordedOf peer m.history)
    (hleaves : fate c = true → l.spentUnits m.world.clock (m.world.buckets.peers.lookup peer) +
      (underWay peer fate m.history).length < l.maxAuthFailures) :
    GuessLedger l peer fate (m.performed c (.check peer) (.ok .allow) w) := by
  have hadmitted : admitted peer (.performed c (.check peer) (.ok .allow) :: m.history) =
      c :: admitted peer m.history := by
    simp [admitted, admits]
  have hrefused : refused peer (.performed c (.check peer) (.ok .allow) :: m.history) =
      refused peer m.history := List.filterMap_cons_none rfl
  have hrecorded : recordedOf peer (.performed c (.check peer) (.ok .allow) :: m.history) =
      recordedOf peer m.history := List.filterMap_cons_none rfl
  have hunder : (underWay peer fate
      (.performed c (.check peer) (.ok .allow) :: m.history)).length =
      (underWay peer fate m.history).length + if fate c = true then 1 else 0 := by
    rw [underWay, hadmitted, hrecorded, List.filter_cons]
    by_cases hfate : fate c = true
    · simp [hfate, hunrecorded, underWay]
    · simp [hfate, underWay]
  refine ⟨hconsulted.sound, ?_, ?_, ?_, ?_⟩
  · show (admitted peer (_ :: m.history)).Nodup
    rw [hadmitted]
    exact List.nodup_cons.mpr ⟨hnew, h.admittedOnce⟩
  · show (refused peer (_ :: m.history)).Nodup
    rw [hrefused]
    exact h.refusedOnce
  · show ∀ c' ∈ refused peer (_ :: m.history), c' ∈ admitted peer (_ :: m.history) ∧ _
    rw [hrefused, hadmitted]
    intro c' hmem
    obtain ⟨hin, hfate⟩ := h.traced c' hmem
    exact ⟨List.mem_cons_of_mem _ hin, hfate⟩
  · show l.spentUnits w.clock (w.buckets.peers.lookup peer) +
      (underWay peer fate (_ :: m.history)).length ≤ _
    rw [hunder, hconsulted.clock, hconsulted.lookup, AdminAuthRateLimiter.spentUnits_entered]
    have := h.within
    by_cases hfate : fate c = true
    · have := hleaves hfate
      simp only [hfate, ↓reduceIte]
      omega
    · rw [if_neg hfate]
      omega

/-- A consult, whatever it answers, for the phase. -/
theorem PhaseLedger.consult (h : PhaseLedger peer start base m)
    (hconsulted : Consulted l peer m.world w) {e : OperatorEvent}
    (hrefuses : refuses peer e = none) (hrecords : records peer e = none) :
    PhaseLedger peer start base ⟨w, e :: m.history⟩ := by
  have hrefused : refused peer (e :: m.history) = refused peer m.history :=
    List.filterMap_cons_none hrefuses
  have hrecorded : recordedOf peer (e :: m.history) = recordedOf peer m.history :=
    List.filterMap_cons_none hrecords
  have hunrecorded : unrecorded peer (e :: m.history) = unrecorded peer m.history := by
    rw [unrecorded, hrefused, hrecorded, unrecorded]
  refine ⟨h.since.trans (List.suffix_cons ..), ?_, ?_⟩
  · intro bucket hlookup hstart
    show (refused peer (e :: m.history)).length ≤
      _ + _ + (unrecorded peer (e :: m.history)).length
    rw [hrefused, hunrecorded]
    obtain rfl := Option.some.inj (hconsulted.lookup.symm.trans hlookup)
    obtain hkept | ⟨hfresh, hpassed⟩ := h.entered (l := l)
    · exact h.counted _ hkept hstart
    · rw [hfresh] at hstart
      exact absurd hstart (by show m.world.clock ≠ start; omega)
  · intro hnone
    show start < w.clock
    rw [hconsulted.clock]
    obtain hkept | ⟨-, hpassed⟩ := h.entered (l := l)
    · apply h.passed
      intro bucket hlookup
      rw [hkept] at hlookup
      exact hnone bucket (hconsulted.lookup.trans hlookup)
    · exact hpassed

/-- A credential of the peer is refused. -/
theorem GuessLedger.refuse (h : GuessLedger l peer fate m) {request : InternalRequest}
    {reason : OperatorAuthFailureReason} (hpeer : request.peer = some peer)
    (hin : c ∈ admitted peer m.history) (hfate : fate c = true)
    (hnew : c ∉ refused peer m.history) :
    GuessLedger l peer fate (m.performed c (.authenticate request) (.error reason) m.world) := by
  have hadmitted : admitted peer (.performed c (.authenticate request) (.error reason) ::
      m.history) = admitted peer m.history := List.filterMap_cons_none rfl
  have hrefused : refused peer (.performed c (.authenticate request) (.error reason) ::
      m.history) = c :: refused peer m.history := by
    simp [refused, refuses, hpeer]
  have hrecorded : recordedOf peer (.performed c (.authenticate request) (.error reason) ::
      m.history) = recordedOf peer m.history := List.filterMap_cons_none rfl
  refine ⟨h.sound, ?_, ?_, ?_, ?_⟩
  · show (admitted peer (_ :: m.history)).Nodup
    rw [hadmitted]
    exact h.admittedOnce
  · show (refused peer (_ :: m.history)).Nodup
    rw [hrefused]
    exact List.nodup_cons.mpr ⟨hnew, h.refusedOnce⟩
  · show ∀ c' ∈ refused peer (_ :: m.history), c' ∈ admitted peer (_ :: m.history) ∧ _
    rw [hrefused, hadmitted]
    intro c' hmem
    obtain rfl | hmem := List.mem_cons.mp hmem
    · exact ⟨hin, hfate⟩
    · exact h.traced c' hmem
  · show _ + (underWay peer fate (_ :: m.history)).length ≤ _
    rw [underWay, hadmitted, hrecorded]
    exact h.within

theorem PhaseLedger.refuse (h : PhaseLedger peer start base m) {request : InternalRequest}
    {reason : OperatorAuthFailureReason} (hpeer : request.peer = some peer)
    (hunrecorded : c ∉ recordedOf peer m.history) :
    PhaseLedger peer start base
      (m.performed c (.authenticate request) (.error reason) m.world) := by
  have hrefused : refused peer (.performed c (.authenticate request) (.error reason) ::
      m.history) = c :: refused peer m.history := by
    simp [refused, refuses, hpeer]
  have hrecorded : recordedOf peer (.performed c (.authenticate request) (.error reason) ::
      m.history) = recordedOf peer m.history := List.filterMap_cons_none rfl
  have hcount : (unrecorded peer (.performed c (.authenticate request) (.error reason) ::
      m.history)).length = (unrecorded peer m.history).length + 1 := by
    rw [unrecorded, hrefused, hrecorded, List.filter_cons]
    simp [hunrecorded, unrecorded]
  refine ⟨h.since.trans (List.suffix_cons ..), ?_, h.passed⟩
  intro bucket hlookup hstart
  show (refused peer (_ :: m.history)).length ≤ _ + _ + (unrecorded peer (_ :: m.history)).length
  rw [hrefused, hcount, List.length_cons]
  have := h.counted bucket hlookup hstart
  omega

/-- A recorded failure of the peer leaves the bucket that it is recorded in. -/
structure Charged (l : AdminAuthRateLimiter) (peer : String) (w w' : OperatorWorld) : Prop where
  clock : w'.clock = w.clock
  sound : w'.buckets.poisoned = false
  lookup : w'.buckets.peers.lookup peer =
    some (l.recorded (l.entered w.clock (w.buckets.peers.lookup peer)) w.clock l.span).2

/-- A request that is under way is one unit short of the budget at most. -/
theorem GuessLedger.unit_left (h : GuessLedger l peer fate m)
    (hunder : c ∈ underWay peer fate m.history) :
    l.spentUnits m.world.clock (some (l.entered m.world.clock
      (m.world.buckets.peers.lookup peer))) < l.maxAuthFailures := by
  rw [AdminAuthRateLimiter.spentUnits_entered]
  have := h.within
  have := List.length_pos_of_mem hunder
  omega

theorem GuessLedger.record (h : GuessLedger l peer fate m) (hrecords : Charged l peer m.world w)
    (hunder : c ∈ underWay peer fate m.history) (ans : Answer RateLimitDecision) :
    GuessLedger l peer fate (m.performed c (.consume peer) ans w) := by
  have hadmitted : admitted peer (.performed c (.consume peer) ans :: m.history) =
      admitted peer m.history := List.filterMap_cons_none rfl
  have hrefused : refused peer (.performed c (.consume peer) ans :: m.history) =
      refused peer m.history := List.filterMap_cons_none rfl
  have hcount : (underWay peer fate (.performed c (.consume peer) ans :: m.history)).length + 1 =
      (underWay peer fate m.history).length := by
    rw [underWay, hadmitted, filter_recorded]
    exact length_filter_ne (h.admittedOnce.filter _) hunder
  refine ⟨hrecords.sound, ?_, ?_, ?_, ?_⟩
  · show (admitted peer (_ :: m.history)).Nodup
    rw [hadmitted]
    exact h.admittedOnce
  · show (refused peer (_ :: m.history)).Nodup
    rw [hrefused]
    exact h.refusedOnce
  · show ∀ c' ∈ refused peer (_ :: m.history), c' ∈ admitted peer (_ :: m.history) ∧ _
    rw [hrefused, hadmitted]
    exact h.traced
  · show l.spentUnits w.clock (w.buckets.peers.lookup peer) +
      (underWay peer fate (_ :: m.history)).length ≤ _
    have hspent := AdminAuthRateLimiter.spentUnits_recorded (h.unit_left hunder)
    rw [AdminAuthRateLimiter.spentUnits_entered] at hspent
    rw [hrecords.clock, hrecords.lookup]
    have := h.within
    omega

theorem PhaseLedger.record (h : PhaseLedger peer start base m) (hledger : GuessLedger l peer fate m)
    (hrecords : Charged l peer m.world w) (hunder : c ∈ underWay peer fate m.history)
    (hrefused : c ∈ refused peer m.history) (ans : Answer RateLimitDecision) :
    PhaseLedger peer start base (m.performed c (.consume peer) ans w) := by
  have hsame : refused peer (.performed c (.consume peer) ans :: m.history) =
      refused peer m.history := List.filterMap_cons_none rfl
  have hcount : (unrecorded peer (.performed c (.consume peer) ans :: m.history)).length + 1 =
      (unrecorded peer m.history).length := by
    have hfilter := @filter_recorded peer m.history c
      (refused peer m.history) (fun _ => true) ans
    simp only [Bool.true_and] at hfilter
    rw [unrecorded, hsame, hfilter]
    apply length_filter_ne (hledger.refusedOnce.filter _)
    exact mem_unrecorded.mpr ⟨hrefused, (mem_underWay.mp hunder).2.2⟩
  obtain ⟨hconsumed, hphase⟩ := AdminAuthRateLimiter.recorded_cases (hledger.unit_left hunder)
  refine ⟨h.since.trans (List.suffix_cons ..), ?_, ?_⟩
  · intro bucket hlookup hstart
    show (refused peer (_ :: m.history)).length ≤ _ + _ + (unrecorded peer (_ :: m.history)).length
    rw [hsame]
    obtain rfl := Option.some.inj (hrecords.lookup.symm.trans hlookup)
    obtain hkept | ⟨hfresh, hpassed⟩ := h.entered (l := l)
    · obtain ⟨hold, hunits⟩ | ⟨hnew, hlt⟩ := hphase
      · -- the phase goes on with one unit more
        have := h.counted _ hkept (hold.symm.trans hstart)
        omega
      · -- a new phase starts now, which is later than the one counted
        have hother : ∀ bucket, m.world.buckets.peers.lookup peer = some bucket →
            bucket.startedAt ≠ start := by
          intro bucket hlookup'
          obtain rfl := Option.some.inj (hkept.symm.trans hlookup')
          omega
        have := h.passed hother
        omega
    · rw [hfresh] at hphase hstart
      have hnow : (⟨m.world.clock, 0⟩ : Bucket).startedAt = m.world.clock := rfl
      omega
  · intro hnone
    show start < w.clock
    rw [hrecords.clock]
    obtain hkept | ⟨-, hpassed⟩ := h.entered (l := l)
    · by_cases hstart : (l.entered m.world.clock
          (m.world.buckets.peers.lookup peer)).startedAt = start
      · obtain ⟨hold, -⟩ | ⟨-, hlt⟩ := hphase
        · exact absurd (hold.trans hstart) (hnone _ hrecords.lookup)
        · omega
      · apply h.passed
        intro bucket hlookup
        obtain rfl := Option.some.inj (hkept.symm.trans hlookup)
        exact hstart
    · exact hpassed

end Steps

/-! ## Runs -/

/-- The layer over a limiter, as a semantics for pools of requests. -/
def operatorSemantics (l : AdminAuthRateLimiter) :
    Semantics OperatorAns OperatorWorld OperatorChoice ℕ where
  exec := OperatorWorld.exec l
  drift := OperatorWorld.drift

abbrev operatorPlane (l : AdminAuthRateLimiter) :
    System OperatorPool (Act InternalRequest OperatorChoice ℕ) :=
  Pool.system (operatorSemantics l) internalAuthLayer

/-- Everything one operation of a request can mean for a peer. -/
inductive PeerStep (l : AdminAuthRateLimiter) (peer : String) (fate : ℕ → Bool)
    (m : OperatorMoment) (c : ℕ) (w : OperatorWorld) : (o : OperatorOp) → OperatorAns o → Prop
  | other {o : OperatorOp} {ans : OperatorAns o} (stays : Stays l peer m.world w)
      (sound : w.buckets.poisoned = false) (notAdmitted : admits peer (.performed c o ans) = none)
      (notRefused : refuses peer (.performed c o ans) = none)
      (notRecorded : records peer (.performed c o ans) = none) :
      PeerStep l peer fate m c w o ans
  | denied {ans : Answer RateLimitDecision} (consulted : Consulted l peer m.world w)
      (notAllowed : ans ≠ .ok .allow) : PeerStep l peer fate m c w (.check peer) ans
  | admitted (consulted : Consulted l peer m.world w) (new : c ∉ admitted peer m.history)
      (unrecorded : c ∉ recordedOf peer m.history)
      (leaves : fate c = true →
        l.spentUnits m.world.clock (m.world.buckets.peers.lookup peer) +
          (underWay peer fate m.history).length < l.maxAuthFailures) :
      PeerStep l peer fate m c w (.check peer) (.ok .allow)
  | refused {request : InternalRequest} {reason : OperatorAuthFailureReason}
      (asked : request.peer = some peer) (inside : c ∈ admitted peer m.history)
      (doomed : fate c = true) (new : c ∉ refused peer m.history)
      (unrecorded : c ∉ recordedOf peer m.history) (same : w = m.world) :
      PeerStep l peer fate m c w (.authenticate request) (.error reason)
  | recorded {ans : Answer RateLimitDecision} (recorded : Charged l peer m.world w)
      (under : c ∈ underWay peer fate m.history) (refused : c ∈ refused peer m.history) :
      PeerStep l peer fate m c w (.consume peer) ans

section PeerSteps

variable {l : AdminAuthRateLimiter} {peer : String} {fate : ℕ → Bool} {m : OperatorMoment}
  {c start : ℕ} {w : OperatorWorld} {base : List OperatorEvent} {o : OperatorOp}
  {ans : OperatorAns o} {x : OperatorChoice} {request : InternalRequest}

theorem GuessLedger.performs (h : GuessLedger l peer fate m)
    (hstep : PeerStep l peer fate m c w o ans) :
    GuessLedger l peer fate (m.performed c o ans w) := by
  cases hstep with
  | other stays sound notAdmitted notRefused notRecorded =>
    exact h.frame stays.spentUnits_le sound notAdmitted notRefused notRecorded
  | denied consulted notAllowed =>
    refine h.frame ?_ consulted.sound (admits_of_denied notAllowed) rfl rfl
    rw [consulted.clock, consulted.lookup, AdminAuthRateLimiter.spentUnits_entered]
  | admitted consulted new unrecorded leaves => exact h.admit consulted new unrecorded leaves
  | refused asked inside doomed new unrecorded same =>
    subst same
    exact h.refuse asked inside doomed new
  | recorded recorded under refused => exact h.record recorded under _

theorem PhaseLedger.performs (h : PhaseLedger peer start base m)
    (hledger : GuessLedger l peer fate m) (hstep : PeerStep l peer fate m c w o ans) :
    PhaseLedger peer start base (m.performed c o ans w) := by
  cases hstep with
  | other stays sound notAdmitted notRefused notRecorded =>
    exact h.frame stays notAdmitted notRefused notRecorded
  | denied consulted notAllowed => exact h.consult consulted rfl rfl
  | admitted consulted new unrecorded leaves => exact h.consult consulted rfl rfl
  | refused asked inside doomed new unrecorded same =>
    subst same
    exact h.refuse asked unrecorded
  | recorded recorded under refused => exact h.record hledger recorded under refused _

/-- A consult, by the peer it is for. -/
theorem consulted_or_stays (hfits : l.span ≤ maxDuration)
    (hsound : m.world.buckets.poisoned = false) {peer' : String}
    (hroom : l.hasRoom m.world.clock m.world.buckets.peers peer' = true)
    (hclock : w.clock = m.world.clock)
    (hbuckets : w.buckets = (l.checkAt peer' m.world.clock m.world.buckets).2) :
    w.buckets.poisoned = false ∧ (peer' = peer → Consulted l peer m.world w) ∧
      (peer' ≠ peer → Stays l peer m.world w) := by
  obtain ⟨-, hpoison, hlookup, hothers⟩ :=
    AdminAuthRateLimiter.checkAt_spec hfits hsound hroom
  rw [← hbuckets] at hpoison hlookup hothers
  refine ⟨hpoison, ?_, ?_⟩
  · rintro rfl
    exact ⟨hclock, hpoison, hlookup⟩
  · intro hne
    refine ⟨hclock.ge, .inr ?_⟩
    rw [hothers peer (Ne.symm hne), hclock]

/-- Whatever a request performs in its turn, within the budget. -/
theorem peerStep_of_exec (hfits : l.span ≤ maxDuration) (h : GuessLedger l peer fate m)
    (hready : OperatorReady request (m.past c) o) (hwithin : WithinBudget l peer fate m c x o)
    (hexec : OperatorWorld.exec l x c o m.world = some (ans, w)) :
    PeerStep l peer fate m c w o ans := by
  have hstill : Stays l peer m.world m.world := ⟨Nat.le_refl _, .inl rfl⟩
  have hnothing : ∀ {o' : OperatorOp} {ans' : OperatorAns o'}, (m.past c) = [] →
      .performed c o' ans' ∉ m.history := by
    intro o' ans' hpast hmem
    rw [← Moment.mem_past, hpast] at hmem
    exact absurd hmem (by simp)
  cases o with
  | check peer' =>
    cases x with
    | proceed =>
      obtain ⟨rfl, rfl⟩ := Prod.mk.inj (Option.some.inj hexec)
      have hroom := hwithin.room peer' (.inl rfl)
      obtain ⟨hpoison, hconsulted, hstays⟩ := @consulted_or_stays _ peer _ { m.world with
          buckets := (l.checkAt peer' m.world.clock m.world.buckets).2 } hfits h.sound _ hroom rfl rfl
      by_cases hpeer : peer' = peer
      · subst hpeer
        obtain ⟨hdecision, -⟩ := AdminAuthRateLimiter.checkAt_spec hfits h.sound hroom
        by_cases hleft : l.spentUnits m.world.clock
            (m.world.buckets.peers.lookup peer') < l.maxAuthFailures
        · have hallow := AdminAuthRateLimiter.decisionAt_allow_iff.mpr hleft
          rw [hallow] at hdecision
          simp only [hdecision, updateAnswer]
          refine .admitted (hconsulted rfl) ?_ ?_ fun hfate => hwithin.leaves rfl hfate hleft
          · rw [mem_admitted]
            exact hnothing hready.1
          · rw [mem_recordedOf]
            rintro ⟨ans, hmem⟩
            exact hnothing hready.1 hmem
        · refine .denied (hconsulted rfl) ?_
          rw [hdecision]
          intro hallow
          exact hleft (AdminAuthRateLimiter.decisionAt_allow_iff.mp (Except.ok.inj hallow))
      · refine .other (hstays hpeer) hpoison ?_ rfl rfl
        exact admits_of_ne hpeer _
    | evaluate outcome => exact nomatch hexec
    | respond response => exact nomatch hexec
    | record outcome => exact nomatch hexec
  | authenticate request' =>
    cases x with
    | evaluate outcome =>
      obtain ⟨rfl, rfl⟩ := Prod.mk.inj (Option.some.inj hexec)
      cases outcome with
      | ok principal => exact .other hstill h.sound rfl rfl rfl
      | error reason =>
        by_cases hpeer : request'.peer = some peer
        · obtain ⟨rfl, hpast⟩ := hready
          have hpast' := hpast peer hpeer
          refine .refused hpeer ?_ (hwithin.foretold request' reason rfl hpeer rfl) ?_ ?_ rfl
          · rw [mem_admitted, ← Moment.mem_past, hpast']
            exact List.mem_cons_self ..
          · rw [mem_refused]
            rintro ⟨request'', reason', -, hmem⟩
            rw [← Moment.mem_past, hpast'] at hmem
            exact absurd hmem (by simp)
          · rw [mem_recordedOf]
            rintro ⟨ans, hmem⟩
            rw [← Moment.mem_past, hpast'] at hmem
            exact absurd hmem (by simp)
        · exact .other hstill h.sound rfl (if_neg hpeer) rfl
    | proceed => exact nomatch hexec
    | respond response => exact nomatch hexec
    | record outcome => exact nomatch hexec
  | consume peer' =>
    cases x with
    | proceed =>
      obtain ⟨rfl, rfl⟩ := Prod.mk.inj (Option.some.inj hexec)
      have hroom := hwithin.room peer' (.inr rfl)
      obtain ⟨-, hpoison, hlookup, hothers⟩ :=
        AdminAuthRateLimiter.consumeAt_spec hfits h.sound hroom
      by_cases hpeer : peer' = peer
      · subst hpeer
        obtain ⟨hasked, reason, hpast⟩ := hready
        have hin : c ∈ refused peer' m.history := by
          refine mem_refused.mpr ⟨request, reason, hasked, ?_⟩
          rw [← Moment.mem_past, hpast]
          exact List.mem_cons_self ..
        refine .recorded ⟨rfl, hpoison, hlookup⟩ (mem_underWay.mpr ⟨(h.traced c hin).1,
          (h.traced c hin).2, ?_⟩) hin
        rw [mem_recordedOf]
        rintro ⟨ans, hmem⟩
        rw [← Moment.mem_past, hpast] at hmem
        exact absurd hmem (by simp)
      · exact .other ⟨Nat.le_refl _, .inr (hothers peer (Ne.symm hpeer))⟩ hpoison rfl rfl
          (if_neg hpeer)
    | evaluate outcome => exact nomatch hexec
    | respond response => exact nomatch hexec
    | record outcome => exact nomatch hexec
  | next request' principal =>
    cases x with
    | respond response =>
      obtain ⟨rfl, rfl⟩ := Prod.mk.inj (Option.some.inj hexec)
      exact .other hstill h.sound rfl rfl rfl
    | proceed => exact nomatch hexec
    | evaluate outcome => exact nomatch hexec
    | record outcome => exact nomatch hexec
  | emit event peer' route =>
    cases x with
    | record outcome =>
      obtain ⟨rfl, rfl⟩ := Prod.mk.inj (Option.some.inj hexec)
      exact .other hstill h.sound rfl rfl rfl
    | proceed => exact nomatch hexec
    | evaluate outcome => exact nomatch hexec
    | respond response => exact nomatch hexec

end PeerSteps

/-! ## The claim -/

section Drift

variable {l : AdminAuthRateLimiter} {peer : String} {fate : ℕ → Bool} {m : OperatorMoment}
  {start later : ℕ} {base : List OperatorEvent}

theorem GuessLedger.drifted (h : GuessLedger l peer fate m) (hclock : m.world.clock ≤ later) :
    GuessLedger l peer fate (m.drifted { m.world with clock := later }) := by
  refine ⟨h.sound, h.admittedOnce, h.refusedOnce, h.traced, ?_⟩
  have hspent : l.spentUnits later (m.world.buckets.peers.lookup peer) ≤
      l.spentUnits m.world.clock (m.world.buckets.peers.lookup peer) :=
    AdminAuthRateLimiter.spentUnits_anti hclock
  have := h.within
  show l.spentUnits later (m.world.buckets.peers.lookup peer) +
    (underWay peer fate m.history).length ≤ _
  omega

theorem PhaseLedger.drifted (h : PhaseLedger peer start base m) (hclock : m.world.clock ≤ later) :
    PhaseLedger peer start base (m.drifted { m.world with clock := later }) :=
  ⟨h.since, h.counted, fun hnone => Nat.lt_of_lt_of_le (h.passed hnone) hclock⟩

theorem operatorDrift_cases {w w' : OperatorWorld} (h : OperatorWorld.drift later w = some w') :
    w.clock ≤ later ∧ w' = { w with clock := later } := by
  unfold OperatorWorld.drift at h
  split at h
  · rename_i hclock
    exact ⟨hclock, (Option.some.inj h).symm⟩
  · exact nomatch h

end Drift

/-- The rules of the plane, for the bounds of a peer. -/
def guessProtocol (l : AdminAuthRateLimiter) (hfits : l.span ≤ maxDuration) (peer : String)
    (fate : ℕ → Bool) : Protocol (operatorSemantics l) OperatorReady where
  inv := GuessLedger l peer fate
  allowed := WithinBudget l peer fate
  begins h _ := h.frame (Nat.le_refl _) h.sound rfl rfl rfl
  performs h _ hready hwithin hexec := h.performs (peerStep_of_exec hfits h hready hwithin hexec)
  ends h _ := h.frame (Nat.le_refl _) h.sound rfl rfl rfl
  drifts h hdrift := by
    obtain ⟨hclock, rfl⟩ := operatorDrift_cases hdrift
    exact h.drifted hclock

/-- The same, with one phase of the peer. -/
def phaseProtocol (l : AdminAuthRateLimiter) (hfits : l.span ≤ maxDuration) (peer : String)
    (fate : ℕ → Bool) (start : ℕ) (base : List OperatorEvent) :
    Protocol (operatorSemantics l) OperatorReady where
  inv m := GuessLedger l peer fate m ∧ PhaseLedger peer start base m
  allowed := WithinBudget l peer fate
  begins h _ := ⟨h.1.frame (Nat.le_refl _) h.1.sound rfl rfl rfl,
    h.2.frame (l := l) ⟨Nat.le_refl _, .inl rfl⟩ rfl rfl rfl⟩
  performs h _ hready hwithin hexec :=
    have hstep := peerStep_of_exec hfits h.1 hready hwithin hexec
    ⟨h.1.performs hstep, h.2.performs h.1 hstep⟩
  ends h _ := ⟨h.1.frame (Nat.le_refl _) h.1.sound rfl rfl rfl,
    h.2.frame (l := l) ⟨Nat.le_refl _, .inl rfl⟩ rfl rfl rfl⟩
  drifts h hdrift := by
    obtain ⟨hclock, rfl⟩ := operatorDrift_cases hdrift
    exact ⟨h.1.drifted hclock, h.2.drifted hclock⟩

/-- The peer has the bucket of the phase that began at `start`. -/
def PhaseBegun (peer : String) (start : ℕ) (w : OperatorWorld) : Prop :=
  ∃ bucket, w.buckets.peers.lookup peer = some bucket ∧ bucket.startedAt = start

/-- The phase that began at `start` is still counting, or its lockout has not ended. -/
def InPhase (l : AdminAuthRateLimiter) (peer : String) (start : ℕ) (w : OperatorWorld) : Prop :=
  ∃ bucket, w.buckets.peers.lookup peer = some bucket ∧ bucket.startedAt = start ∧
    (w.clock - start < l.failureWindow ∨
      (l.maxAuthFailures ≤ bucket.consumed ∧ w.clock - start < l.failureWindow + l.lockout))

/-- How many credentials of the peer were refused between two moments. -/
def failedEvaluations (peer : String) (p q : OperatorPool) : ℕ :=
  (refused peer q.history).length - (refused peer p.history).length

/-- What is refused and not recorded is under way. -/
theorem GuessLedger.unrecorded_le {l : AdminAuthRateLimiter} {peer : String} {fate : ℕ → Bool}
    {m : OperatorMoment} (h : GuessLedger l peer fate m) :
    (unrecorded peer m.history).length ≤ (underWay peer fate m.history).length := by
  apply List.Subperm.length_le
  apply (h.refusedOnce.filter _).subperm
  intro c hmem
  obtain ⟨hrefused, hnot⟩ := mem_unrecorded.mp hmem
  exact mem_underWay.mpr ⟨(h.traced c hrefused).1, (h.traced c hrefused).2, hnot⟩

/-- **The guessing budget**: in every run in which a request that is going to be refused is let past
the consult only while a unit is left for it, from the start of a counting phase to the end of its
lockout no more credentials of the peer are refused than the budget has units. -/
theorem guessing_budget_holds (l : AdminAuthRateLimiter)
    (hfits : l.failureWindow + l.lockout ≤ maxDuration) (peer : String) (fate : ℕ → Bool)
    (clock : ℕ) {as bs : List (Act InternalRequest OperatorChoice ℕ)} {p q : OperatorPool}
    (hbefore : (operatorPlane l).Run (Pool.Under (WithinBudget l peer fate))
      (Pool.initial ⟨clock, ⟨∅, false⟩⟩) as p)
    (hphase : (operatorPlane l).Run (Pool.Under (WithinBudget l peer fate)) p bs q) {start : ℕ}
    (hbegun : PhaseBegun peer start p.world) (hin : InPhase l peer start q.world) :
    failedEvaluations peer p q ≤ l.maxAuthFailures := by
  have hinitial : GuessLedger l peer fate
      (Pool.initial ⟨clock, ⟨∅, false⟩⟩ : OperatorPool).toMoment :=
    ⟨rfl, List.nodup_nil, List.nodup_nil, fun c hmem => absurd hmem (by simp [refused, Pool.initial]),
      Nat.zero_le _⟩
  have hd := Disciplined.run internalAuthLayer_obeys hbefore (.initial _)
  have hledger := (guessProtocol l hfits peer fate).run internalAuthLayer_obeys hbefore
    (.initial _) hinitial
  have hbase : PhaseLedger peer start p.history p.toMoment := by
    refine ⟨List.suffix_rfl, fun bucket _ _ => by omega, fun hnone => ?_⟩
    obtain ⟨bucket, hlookup, hstart⟩ := hbegun
    exact absurd hstart (hnone bucket hlookup)
  obtain ⟨hend, hcounted⟩ := (phaseProtocol l hfits peer fate start p.history).run
    internalAuthLayer_obeys hphase hd ⟨hledger, hbase⟩
  obtain ⟨bucket, hlookup, hstart, hopen⟩ := hin
  -- in the phase every unit of the bucket counts
  have hunits : l.spentUnits q.world.clock (some bucket) = bucket.consumed := by
    obtain ⟨-, hover⟩ | ⟨hsame, -⟩ :=
      AdminAuthRateLimiter.spentUnits_cases (l := l) q.world.clock bucket
    · have hspan : l.span = l.failureWindow + l.lockout := rfl
      have := l.lockout_pos
      omega
    · exact hsame
  have hsum := hcounted.counted bucket hlookup hstart
  have hwithin := hend.within
  rw [hlookup, hunits] at hwithin
  have := hend.unrecorded_le
  unfold failedEvaluations
  omega

/-! ## Two requests of one peer -/

/-- A window of one minute and a lockout of five. -/
def guessLimiter (maxAuthFailures : ℕ) (hpos : 0 < maxAuthFailures) : AdminAuthRateLimiter where
  failureWindow := 60 * nanosPerSec.toNat
  lockout := 300 * nanosPerSec.toNat
  maxAuthFailures := maxAuthFailures
  maxAuthFailures_pos := hpos
  failureWindow_pos := minute_pos
  lockout_pos := by decide

/-- A request with a wrong secret. -/
def wrongSecret : InternalRequest := ⟨some "192.0.2.7", "/internal/users", some "guess", ∅⟩

/-- The evaluation of a request that ends in a refusal. -/
def refusal : OperatorChoice := .evaluate (.error .invalidCredential)

/-- Whether an operation meets the condition when every request is refused. -/
def leavesUnit (l : AdminAuthRateLimiter) (peer : String) (m : OperatorMoment) (_c : ℕ)
    (_x : OperatorChoice) : OperatorOp → Bool
  | .check peer' => l.hasRoom m.world.clock m.world.buckets.peers peer' &&
      decide (l.spentUnits m.world.clock (m.world.buckets.peers.lookup peer) +
        (underWay peer (fun _ => true) m.history).length < l.maxAuthFailures)
  | .consume peer' => l.hasRoom m.world.clock m.world.buckets.peers peer'
  | _ => true

theorem withinBudget_of_leavesUnit {l : AdminAuthRateLimiter} {peer : String} (m : OperatorMoment)
    (c : ℕ) (x : OperatorChoice) (o : OperatorOp) (h : leavesUnit l peer m c x o = true) :
    WithinBudget l peer (fun _ => true) m c x o := by
  refine ⟨?_, ?_, fun _ _ _ _ _ => rfl⟩
  · rintro peer' (rfl | rfl)
    · exact (Bool.and_eq_true_iff.mp h).1
    · exact h
  · rintro rfl - -
    exact of_decide_eq_true (Bool.and_eq_true_iff.mp h).2

/-- Whether the peer has the bucket of the phase that began at the first instant, with its lockout
running. -/
def lockedOut (l : AdminAuthRateLimiter) (w : OperatorWorld) : Bool :=
  match w.buckets.peers.lookup "192.0.2.7" with
  | some bucket => bucket.startedAt == 0 && decide (l.maxAuthFailures ≤ bucket.consumed) &&
      decide (w.clock < l.failureWindow + l.lockout)
  | none => false

theorem inPhase_of_lockedOut {l : AdminAuthRateLimiter} {w : OperatorWorld}
    (h : lockedOut l w = true) : InPhase l "192.0.2.7" 0 w := by
  unfold lockedOut at h
  split at h
  · rename_i bucket hlookup
    simp only [Bool.and_eq_true, beq_iff_eq, decide_eq_true_eq] at h
    exact ⟨bucket, hlookup, h.1.1, .inr ⟨h.1.2, h.2⟩⟩
  · exact absurd h (by simp)

/-- Whether the peer has the bucket of the phase that began at the first instant. -/
def begunAtOnce (q : OperatorPool) : Bool :=
  (q.world.buckets.peers.lookup "192.0.2.7").any fun bucket => bucket.startedAt == 0

theorem phaseBegun_of_begunAtOnce {q : OperatorPool} (h : begunAtOnce q = true) :
    PhaseBegun "192.0.2.7" 0 q.world := by
  obtain ⟨bucket, hlookup, hstart⟩ := (Option.any_eq_true _ _).mp h
  exact ⟨bucket, hlookup, by simpa using hstart⟩

/-- With two units, two requests one after the other. -/
theorem guessing_budget_holds_in_turn :
    ∃ p q : OperatorPool, InPhase (guessLimiter 2 (by decide)) "192.0.2.7" 0 q.world ∧
      failedEvaluations "192.0.2.7" p q = 2 ∧
      failedEvaluations "192.0.2.7" p q ≤ (guessLimiter 2 (by decide)).maxAuthFailures := by
  let l := guessLimiter 2 (by decide)
  let meets := Pool.passes (ι := InternalRequest) (ε := Fault Error) (ρ := InternalResponse)
    (κ := ℕ) (leavesUnit l "192.0.2.7")
  let rest : List (Act InternalRequest OperatorChoice ℕ) :=
    [.advance 0 refusal, .advance 0 .proceed, .begin 1 wrongSecret, .advance 1 .proceed,
      .advance 1 refusal, .advance 1 .proceed]
  obtain ⟨p, hbefore, hp⟩ := System.Run.of_followWhen_any (M := operatorPlane l)
    (Pool.under_of_passes withinBudget_of_leavesUnit)
    (show ((operatorPlane l).followWhen meets (Pool.initial ⟨0, ⟨∅, false⟩⟩)
      [.begin 0 wrongSecret, .advance 0 .proceed]).any (fun p => begunAtOnce p &&
        ((operatorPlane l).followWhen meets p rest).any fun q =>
          lockedOut l q.world && failedEvaluations "192.0.2.7" p q == 2) = true
      by decide +kernel)
  obtain ⟨hbegun, hq⟩ := Bool.and_eq_true_iff.mp hp
  obtain ⟨q, hphase, hlocked⟩ := System.Run.of_followWhen_any
    (Pool.under_of_passes withinBudget_of_leavesUnit) hq
  obtain ⟨hlocked, hcount⟩ := Bool.and_eq_true_iff.mp hlocked
  exact ⟨p, q, inPhase_of_lockedOut hlocked, by simpa using hcount,
    guessing_budget_holds l (by decide) "192.0.2.7" (fun _ => true) 0 hbefore hphase
      (phaseBegun_of_begunAtOnce hbegun) (inPhase_of_lockedOut hlocked)⟩

/-- Whether nobody is displaced by an operation. -/
def keepsPeers (l : AdminAuthRateLimiter) (m : OperatorMoment) (_c : ℕ) (_x : OperatorChoice) :
    OperatorOp → Bool
  | .check peer => l.hasRoom m.world.clock m.world.buckets.peers peer
  | .consume peer => l.hasRoom m.world.clock m.world.buckets.peers peer
  | _ => true

theorem keepsPeers_sound {l : AdminAuthRateLimiter} (m : OperatorMoment) (c : ℕ)
    (x : OperatorChoice) (o : OperatorOp) (h : keepsPeers l m c x o = true) :
    KeepsPeers l m c x o := by
  rintro peer (rfl | rfl)
  · exact h
  · exact h

/-- A window and a lockout whose sum is no time span. -/
def endlessLimiter : AdminAuthRateLimiter where
  failureWindow := (2 ^ 64 - 1) * nanosPerSec.toNat
  lockout := nanosPerSec.toNat
  maxAuthFailures := 1
  maxAuthFailures_pos := Nat.one_pos
  failureWindow_pos := longest_pos
  lockout_pos := second_pos

/-- With one unit, two requests that consult before either is refused; and where window and lockout
have no sum, requests one after the other, the first of which panics. -/
theorem guessing_budget_exceeded :
    (∃ p q : OperatorPool, ∃ as bs,
      (operatorPlane (guessLimiter 1 (by decide))).Run
        (Pool.Under (KeepsPeers (guessLimiter 1 (by decide))))
        (Pool.initial ⟨0, ⟨∅, false⟩⟩) as p ∧
      (operatorPlane (guessLimiter 1 (by decide))).Run
        (Pool.Under (KeepsPeers (guessLimiter 1 (by decide)))) p bs q ∧
      PhaseBegun "192.0.2.7" 0 p.world ∧
      InPhase (guessLimiter 1 (by decide)) "192.0.2.7" 0 q.world ∧
      (guessLimiter 1 (by decide)).maxAuthFailures < failedEvaluations "192.0.2.7" p q) ∧
    ∃ q : OperatorPool, ∃ as, (operatorPlane endlessLimiter).Run
        (Pool.Under (KeepsPeers endlessLimiter)) (Pool.initial ⟨0, ⟨∅, false⟩⟩) as q ∧
      endlessLimiter.maxAuthFailures < (refused "192.0.2.7" q.history).length := by
  constructor
  · let l := guessLimiter 1 (by decide)
    let meets := Pool.passes (ι := InternalRequest) (ε := Fault Error) (ρ := InternalResponse)
      (κ := ℕ) (keepsPeers l)
    let rest : List (Act InternalRequest OperatorChoice ℕ) :=
      [.begin 1 wrongSecret, .advance 1 .proceed, .advance 0 refusal, .advance 1 refusal,
        .advance 0 .proceed]
    obtain ⟨p, hbefore, hp⟩ := System.Run.of_followWhen_any (M := operatorPlane l)
      (Pool.under_of_passes keepsPeers_sound)
      (show ((operatorPlane l).followWhen meets (Pool.initial ⟨0, ⟨∅, false⟩⟩)
        [.begin 0 wrongSecret, .advance 0 .proceed]).any (fun p => begunAtOnce p &&
          ((operatorPlane l).followWhen meets p rest).any fun q =>
            lockedOut l q.world && decide (l.maxAuthFailures < failedEvaluations "192.0.2.7" p q))
          = true
        by decide +kernel)
    obtain ⟨hbegun, hq⟩ := Bool.and_eq_true_iff.mp hp
    obtain ⟨q, hphase, hlocked⟩ := System.Run.of_followWhen_any
      (Pool.under_of_passes keepsPeers_sound) hq
    obtain ⟨hlocked, hcount⟩ := Bool.and_eq_true_iff.mp hlocked
    exact ⟨p, q, _, _, hbefore, hphase, phaseBegun_of_begunAtOnce hbegun,
      inPhase_of_lockedOut hlocked, of_decide_eq_true hcount⟩
  · let meets := Pool.passes (ι := InternalRequest) (ε := Fault Error) (ρ := InternalResponse)
      (κ := ℕ) (keepsPeers endlessLimiter)
    obtain ⟨q, hrun, hcount⟩ := System.Run.of_followWhen_any (M := operatorPlane endlessLimiter)
      (Pool.under_of_passes keepsPeers_sound)
      (show ((operatorPlane endlessLimiter).followWhen meets (Pool.initial ⟨0, ⟨∅, false⟩⟩)
        [.begin 0 wrongSecret, .advance 0 .proceed, .begin 1 wrongSecret, .advance 1 .proceed,
          .advance 1 refusal, .advance 1 .proceed, .begin 2 wrongSecret, .advance 2 .proceed,
          .advance 2 refusal]).any (fun q => decide (endlessLimiter.maxAuthFailures <
            (refused "192.0.2.7" q.history).length)) = true
        by decide +kernel)
    exact ⟨q, _, hrun, of_decide_eq_true hcount⟩

end OidcExchange
