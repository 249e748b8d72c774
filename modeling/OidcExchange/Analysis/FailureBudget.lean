import OidcExchange.Analysis.FixedWindowSteps
import OidcExchange.Interleaving.Testing
import OidcExchange.Program.PublicThrottle

/-!
# The failure budget of the public routes

The limiter meters every key by fixed windows. An arrival is judged by the budget of requests
alone, so the failure budget holds exactly where a request that finds it spent finds the budget
of requests spent as well.
-/

set_option autoImplicit false

namespace OidcExchange

open Storage Interleaving Throttling

variable {l : FixedWindowRateLimiter} {oauthError : List UInt8 → Option String}

/-! ## The limiter -/

section Limiter

variable {key key' : ThrottleKey} {now : ℕ} {hits : List ℕ} {state : Table ThrottleKey Bucket}

/-- A check leaves the meters of other keys. -/
theorem meters_checkAt_other {budget : ℕ} (hroom : l.full key (l.retain now state) = false)
    (hne : key' ≠ key) (h : Meters l.window budget now hits (state.lookup key')) :
    Meters l.window budget now hits ((l.checkAt key now state).2.lookup key') := by
  apply meters_checkAt_ne hne _ h
  simp [FixedWindowRateLimiter.victim, hroom]

/-- A check of a key with a budget is denied exactly where the hits of the open window have reached
the budget, and it is one more hit. -/
theorem checkAt_spec (hbudget : 0 < (l.budgets.forKey key).toNat)
    (h : Meters l.window (l.budgets.forKey key).toNat now hits (state.lookup key)) :
    ((l.checkAt key now state).1 ≠ .allow ↔
      (l.budgets.forKey key).toNat ≤ hitsAt l.window hits now) ∧
    Meters l.window (l.budgets.forKey key).toNat now (now :: hits)
      ((l.checkAt key now state).2.lookup key) := by
  obtain ⟨hverdict, hmeters⟩ := checkAt_verdict hbudget h
  refine ⟨?_, hmeters⟩
  have hdecision := congrArg CheckAnswer.decision hverdict
  rw [FixedWindowRateLimiter.verdict, Option.some.injEq] at hdecision
  rw [← hdecision, standing_hitsAt]
  by_cases hspent : (l.budgets.forKey key).toNat ≤ hitsAt l.window hits now
  · simp [Nat.not_le.mpr (Nat.lt_succ_of_le hspent), hspent]
  · simp [Nat.succ_le_of_lt (Nat.lt_of_not_le hspent), hspent]

end Limiter

/-! ## Hits -/

abbrev PublicEvent : Type := Event PublicAns PublicRequest

abbrev PublicMoment : Type := Moment PublicAns PublicRequest PublicWorld

abbrev PublicPool : Type := Pool PublicAns PublicRequest Empty PublicResponse PublicWorld

/-- The instant at which an event drew on a key. -/
def hitOf (key : ThrottleKey) : PublicEvent → Option ℕ
  | .performed _ (.checkAndConsume key') charge => if key' = key then some charge.instant else none
  | _ => none

/-- The instants at which a key was drawn on, newest first. -/
def hits (key : ThrottleKey) (history : List PublicEvent) : List ℕ := history.filterMap (hitOf key)

/-- Every check of a key is answered by the hits before it. -/
def Metered (l : FixedWindowRateLimiter) (history : List PublicEvent) : Prop :=
  ∀ c key charge more earlier,
    history = more ++ .performed c (.checkAndConsume key) charge :: earlier →
    (charge.decision ≠ .allow ↔ 0 < (l.budgets.forKey key).toNat ∧
      (l.budgets.forKey key).toNat ≤ hitsAt l.window (hits key earlier) charge.instant)

section Metered

variable {history : List PublicEvent} {e : PublicEvent}

theorem Metered.nil : Metered l [] := by
  intro c key charge more earlier h
  exact absurd h (by simp)

/-- One more event, which is judged as stated if it is a check. -/
theorem Metered.cons (h : Metered l history)
    (hnew : ∀ c key charge, e = .performed c (.checkAndConsume key) charge →
      (charge.decision ≠ .allow ↔ 0 < (l.budgets.forKey key).toNat ∧
        (l.budgets.forKey key).toNat ≤ hitsAt l.window (hits key history) charge.instant)) :
    Metered l (e :: history) := by
  intro c key charge more earlier hsplit
  cases more with
  | nil =>
    obtain ⟨rfl, rfl⟩ := List.cons.inj hsplit
    exact hnew c key charge rfl
  | cons e' more =>
    obtain ⟨-, hrest⟩ := List.cons.inj hsplit
    exact h c key charge more earlier hrest

end Metered

/-! ## Runs -/

/-- The layer over a limiter, as a semantics for pools of requests. -/
def publicSemantics (l : FixedWindowRateLimiter) :
    Semantics PublicAns PublicWorld PublicChoice ℕ where
  exec := PublicWorld.exec l
  drift := PublicWorld.drift

/-- The requests as a transition system. -/
abbrev publicPlane (l : FixedWindowRateLimiter) (oauthError : List UInt8 → Option String) :
    System PublicPool (Act PublicRequest PublicChoice ℕ) :=
  Pool.system (publicSemantics l) (publicThrottleLayer oauthError)

/-- Nothing is evicted. -/
def NoEviction (l : FixedWindowRateLimiter) (m : PublicMoment) (_c : ℕ) (_x : PublicChoice)
    (o : PublicOp) : Prop :=
  ∀ key, o = .checkAndConsume key → l.full key (l.retain m.world.clock m.world.state) = false

/-- The limiter meters every key that has a budget. -/
structure PublicInv (l : FixedWindowRateLimiter) (m : PublicMoment) : Prop where
  meters : ∀ key, 0 < (l.budgets.forKey key).toNat →
    Meters l.window (l.budgets.forKey key).toNat m.world.clock (hits key m.history)
      (m.world.state.lookup key)
  metered : Metered l m.history

namespace PublicInv

variable {m : PublicMoment} {c : ℕ} {w : PublicWorld}

/-- An event that is no check, in a world with the same buckets. -/
theorem frame (h : PublicInv l m) {e : PublicEvent} (hclock : m.world.clock ≤ w.clock)
    (hstate : w.state = m.world.state) (he : ∀ key, hitOf key e = none)
    (hcheck : ∀ c key charge, e ≠ .performed c (.checkAndConsume key) charge) :
    PublicInv l ⟨w, e :: m.history⟩ := by
  constructor
  · intro key hbudget
    show Meters l.window _ w.clock (hits key (e :: m.history)) (w.state.lookup key)
    rw [hstate, hits, List.filterMap_cons_none (he key)]
    exact (h.meters key hbudget).of_le hclock
  · exact h.metered.cons fun c key charge heq => absurd heq (hcheck c key charge)

/-- A check. -/
theorem check (h : PublicInv l m) (key : ThrottleKey)
    (hroom : l.full key (l.retain m.world.clock m.world.state) = false) :
    PublicInv l (m.performed c (.checkAndConsume key)
      { instant := m.world.clock, decision := (l.checkAt key m.world.clock m.world.state).1 }
      { m.world with state := (l.checkAt key m.world.clock m.world.state).2 }) := by
  constructor
  · intro key' hbudget
    have hmeters := h.meters key' hbudget
    show Meters l.window _ m.world.clock (hits key' (_ :: m.history)) _
    by_cases hkey : key' = key
    · subst hkey
      have hhit : hits key' (.performed c (.checkAndConsume key')
          { instant := m.world.clock, decision := (l.checkAt key' m.world.clock m.world.state).1 } ::
          m.history) = m.world.clock :: hits key' m.history := by
        simp [hits, hitOf]
      rw [hhit]
      exact (checkAt_spec hbudget hmeters).2
    · have hhit : hits key' (.performed c (.checkAndConsume key)
          { instant := m.world.clock, decision := (l.checkAt key m.world.clock m.world.state).1 } ::
          m.history) = hits key' m.history := by
        simp [hits, hitOf, Ne.symm hkey]
      rw [hhit]
      exact meters_checkAt_other hroom hkey hmeters
  · apply h.metered.cons
    intro c' key' charge heq
    injection heq with hc hop hans
    obtain rfl : key = key' := by
      injection hop
    obtain rfl := hans
    by_cases hbudget : 0 < (l.budgets.forKey key).toNat
    · simpa [hbudget] using (checkAt_spec hbudget (h.meters key hbudget)).1
    · have hzero : (l.budgets.forKey key).toNat = 0 := by omega
      simp [FixedWindowRateLimiter.checkAt, hzero]

/-- Every operation keeps the invariant where nothing is evicted. -/
theorem performs (h : PublicInv l m) {x : PublicChoice} {o : PublicOp} {ans : PublicAns o}
    (hroom : NoEviction l m c x o) (hexec : PublicWorld.exec l x c o m.world = some (ans, w)) :
    PublicInv l (m.performed c o ans w) := by
  cases o with
  | checkAndConsume key =>
    cases x with
    | proceed =>
      obtain ⟨rfl, rfl⟩ := Prod.mk.inj (Option.some.inj hexec)
      exact h.check key (hroom key rfl)
    | respond response => exact nomatch hexec
  | next request =>
    cases x with
    | proceed => exact nomatch hexec
    | respond response =>
      obtain ⟨rfl, rfl⟩ := Prod.mk.inj (Option.some.inj hexec)
      exact h.frame (Nat.le_refl _) rfl (fun key => rfl) (by simp)
  | emitThrottleExceeded clientAddr userAgent =>
    cases x with
    | proceed =>
      obtain ⟨rfl, rfl⟩ := Prod.mk.inj (Option.some.inj hexec)
      exact h.frame (Nat.le_refl _) rfl (fun key => rfl) (by simp)
    | respond response => exact nomatch hexec

end PublicInv

/-! ## Requests -/

/-- What a request performs: a counted request starts with a check of its address, goes on only
where that is allowed, and records a failure only of a response that is one. -/
def PublicReady (oauthError : List UInt8 → Option String) (request : PublicRequest)
    (past : List (Performed PublicAns)) : PublicOp → Prop
  | .checkAndConsume (.clientAddr address) =>
    past = [] ∧ request.counted.map Prod.fst = some address
  | .checkAndConsume (.clientAddrFailure address) =>
    request.counted.map Prod.fst = some address ∧
      ∃ charge response, past = [⟨.next request, response⟩,
          ⟨.checkAndConsume (.clientAddr address), charge⟩] ∧
        (isPublicAuthenticationFailure oauthError response).1 = true
  | .checkAndConsume (.core _) => False
  | .next _ => ∀ key charge, ⟨.checkAndConsume key, charge⟩ ∈ past → charge.decision = .allow
  | .emitThrottleExceeded _ _ => True

/-- How a request ends: where it was denied, it is answered 429 without having gone on; where its
response is an authentication failure, that is recorded. -/
def PublicResult (oauthError : List UInt8 → Option String) (request : PublicRequest)
    (past : List (Performed PublicAns)) : Except Empty PublicResponse → Prop
  | .ok response =>
    (∀ address charge, ⟨.checkAndConsume (.clientAddr address), charge⟩ ∈ past →
      charge.decision ≠ .allow → response.status = 429 ∧
        ∀ given, ⟨.next request, given⟩ ∉ past) ∧
    (∀ address given, request.counted.map Prod.fst = some address → ⟨.next request, given⟩ ∈ past →
      (isPublicAuthenticationFailure oauthError given).1 = true →
      ∃ charge, ⟨.checkAndConsume (.clientAddrFailure address), charge⟩ ∈ past)
  | .error _ => False

theorem publicThrottleLayer_obeys (request : PublicRequest) :
    (publicThrottleLayer oauthError request).Obeys (PublicReady oauthError request)
      (PublicResult oauthError request) [] := by
  unfold publicThrottleLayer
  cases hcounted : request.counted with
  | none =>
    refine ⟨by simp [PublicReady], fun response => ?_⟩
    exact ⟨by simp, by simp [hcounted]⟩
  | some found =>
    obtain ⟨address, clientAddr, userAgent⟩ := found
    refine ⟨⟨rfl, by simp [hcounted]⟩, fun charge => ?_⟩
    obtain ⟨instant, decision⟩ := charge
    cases decision with
    | deny retryAfterSecs =>
      refine ⟨trivial, fun _ => ?_⟩
      refine ⟨fun address' charge hmem hdenied => ⟨rfl, by simp⟩, ?_⟩
      intro address' given hkey hmem
      simp at hmem
    | allow =>
      refine ⟨by simp +contextual [PublicReady], fun response => ?_⟩
      have hallowed : ∀ address' charge, (⟨.checkAndConsume (.clientAddr address'), charge⟩ :
          Performed PublicAns) ∈ [⟨.next request, response⟩,
            ⟨.checkAndConsume (.clientAddr address), ⟨instant, .allow⟩⟩] →
          charge.decision = .allow := by
        simp +contextual
      show (recordFailure oauthError address response).Obeys _ _ _
      unfold recordFailure
      by_cases hfailure : (isPublicAuthenticationFailure oauthError response).1 = true
      · rw [if_pos hfailure]
        refine ⟨⟨by simp [hcounted], _, response, rfl, hfailure⟩, fun charge => ?_⟩
        refine ⟨fun address' charge' hmem hdenied => ?_, ?_⟩
        · obtain heq | hmem := List.mem_cons.mp hmem
          · simp at heq
          · exact absurd (hallowed address' charge' hmem) hdenied
        · intro address' given hkey hmem hgiven
          rw [hcounted] at hkey
          obtain rfl : address = address' := Option.some.inj hkey
          exact ⟨charge, List.mem_cons_self ..⟩
      · rw [if_neg hfailure]
        refine ⟨fun address' charge' hmem hdenied => ?_, ?_⟩
        · exact absurd (hallowed address' charge' hmem) hdenied
        · intro address' given hkey hmem hgiven
          have hgiven' : given = response := by
            simpa using hmem
          rw [hgiven'] at hgiven
          exact absurd hgiven hfailure

/-! ## The order within a request -/

/-- What the history shows of the order within each request: only an admitted request goes on, and
what is recorded as a failure was one. -/
structure InOrder (oauthError : List UInt8 → Option String) (m : PublicMoment) : Prop where
  admitted : ∀ c address charge request response,
    .performed c (.checkAndConsume (.clientAddr address)) charge ∈ m.history →
    .performed c (.next request) response ∈ m.history → charge.decision = .allow
  recorded : ∀ c address charge,
    .performed c (.checkAndConsume (.clientAddrFailure address)) charge ∈ m.history →
    ∃ request response, request.counted.map Prod.fst = some address ∧
      .performed c (.next request) response ∈ m.history ∧
      (isPublicAuthenticationFailure oauthError response).1 = true

namespace InOrder

variable {m : PublicMoment} {c : ℕ} {w : PublicWorld} {request : PublicRequest}

/-- An event that is no operation. -/
theorem frame (h : InOrder oauthError m) {e : PublicEvent}
    (he : ∀ c o ans, e ≠ .performed c o ans) : InOrder oauthError ⟨w, e :: m.history⟩ := by
  have hold : ∀ {c o ans}, .performed c o ans ∈ e :: m.history → .performed c o ans ∈ m.history := by
    intro c o ans hmem
    exact (List.mem_cons.mp hmem).resolve_left fun heq => he c o ans heq.symm
  constructor
  · intro c address charge request response hcheck hnext
    exact h.admitted c address charge request response (hold hcheck) (hold hnext)
  · intro c address charge hcheck
    obtain ⟨request, response, hkey, hnext, hfailure⟩ := h.recorded c address charge (hold hcheck)
    exact ⟨request, response, hkey, List.mem_cons_of_mem _ hnext, hfailure⟩

/-- Every operation that a request performs in its turn. -/
theorem performs (h : InOrder oauthError m) {o : PublicOp} {ans : PublicAns o}
    (hready : PublicReady oauthError request (m.past c) o) :
    InOrder oauthError (m.performed c o ans w) := by
  have hold : ∀ {c' o' ans'}, .performed c' o' ans' ∈ (m.performed c o ans w).history →
      (.performed c' o' ans' : PublicEvent) = .performed c o ans ∨
        .performed c' o' ans' ∈ m.history := List.mem_cons.mp
  constructor
  · intro c' address charge request' response hcheck hnext
    obtain hnew | hchecked := hold hcheck
    · -- the check is new: the request has done nothing before
      obtain ⟨rfl, rfl, -⟩ := Event.performed.inj hnew
      obtain heq | hgone := hold hnext
      · exact absurd heq (by simp)
      · rw [← Moment.mem_past, hready.1] at hgone
        exact absurd hgone (by simp)
    · obtain hnew | hgone := hold hnext
      · -- the request goes on: its check has allowed it
        obtain ⟨rfl, rfl, -⟩ := Event.performed.inj hnew
        exact hready _ charge ((Moment.mem_past ..).mpr hchecked)
      · exact h.admitted c' address charge request' response hchecked hgone
  · intro c' address charge hcheck
    obtain hcheck | hcheck := hold hcheck
    · obtain ⟨rfl, rfl, -⟩ := Event.performed.inj hcheck
      obtain ⟨hkey, charge', response, hpast, hfailure⟩ := hready
      have hnext : (⟨.next request, response⟩ : Performed PublicAns) ∈ m.past c' := by
        rw [hpast]
        exact List.mem_cons_self ..
      exact ⟨request, response, hkey, List.mem_cons_of_mem _ ((Moment.mem_past ..).mp hnext),
        hfailure⟩
    · obtain ⟨request', response, hkey, hnext, hfailure⟩ := h.recorded c' address charge hcheck
      exact ⟨request', response, hkey, List.mem_cons_of_mem _ hnext, hfailure⟩

end InOrder

/-! ## The claim -/

/-- The rules of the plane. -/
def publicProtocol (l : FixedWindowRateLimiter) (oauthError : List UInt8 → Option String) :
    Protocol (publicSemantics l) (PublicReady oauthError) where
  inv m := PublicInv l m ∧ InOrder oauthError m
  allowed := NoEviction l
  begins h _ := ⟨h.1.frame (Nat.le_refl _) rfl (fun _ => rfl) (by simp), h.2.frame (by simp)⟩
  performs h _ hready hroom hexec := ⟨h.1.performs hroom hexec, h.2.performs hready⟩
  ends h _ := ⟨h.1.frame (Nat.le_refl _) rfl (fun _ => rfl) (by simp), h.2.frame (by simp)⟩
  drifts := by
    rintro m later w ⟨hinv, horder⟩ hdrift
    obtain ⟨hclock, rfl⟩ : m.world.clock ≤ later ∧ w = { m.world with clock := later } := by
      by_cases hclock : m.world.clock ≤ later
      · exact ⟨hclock, by simpa [publicSemantics, PublicWorld.drift, hclock] using hdrift.symm⟩
      · simp [publicSemantics, PublicWorld.drift, hclock] at hdrift
    exact ⟨⟨fun key hbudget => (hinv.meters key hbudget).of_le hclock, hinv.metered⟩,
      ⟨horder.admitted, horder.recorded⟩⟩

/-- The budget of a key is spent in the window that is open at an instant. -/
def Spent (l : FixedWindowRateLimiter) (key : ThrottleKey) (history : List PublicEvent)
    (now : ℕ) : Prop :=
  0 < (l.budgets.forKey key).toNat ∧
    (l.budgets.forKey key).toNat ≤ hitsAt l.window (hits key history) now

instance (key : ThrottleKey) (history : List PublicEvent) (now : ℕ) :
    Decidable (Spent l key history now) := inferInstanceAs (Decidable (_ ∧ _))

/-- Request `c` from an address has arrived after what is earlier. -/
def Arrived (history : List PublicEvent) (c : ℕ) (address : String) (charge : Charge)
    (earlier : List PublicEvent) : Prop :=
  ∃ more, history = more ++ .performed c (.checkAndConsume (.clientAddr address)) charge :: earlier

/-- The failures of an address are what is recorded: what was recorded was the failure of a request
of that address, and every request that has been answered has its failure recorded. -/
structure FailuresRecorded (oauthError : List UInt8 → Option String) (q : PublicPool) : Prop where
  genuine : ∀ c address charge,
    .performed c (.checkAndConsume (.clientAddrFailure address)) charge ∈ q.history →
    ∃ request response, request.counted.map Prod.fst = some address ∧
      .performed c (.next request) response ∈ q.history ∧
      (isPublicAuthenticationFailure oauthError response).1 = true
  complete : ∀ c request response address given, q.Returned c request response →
    request.counted.map Prod.fst = some address →
    .performed c (.next request) given ∈ q.history →
    (isPublicAuthenticationFailure oauthError given).1 = true →
    ∃ charge, .performed c (.checkAndConsume (.clientAddrFailure address)) charge ∈ q.history

/-- A request that arrives when the failure budget of its address is spent is refused: it is
answered 429 and does not reach the handlers. -/
def FailureBudgetEnforced (l : FixedWindowRateLimiter) (q : PublicPool) : Prop :=
  ∀ c address charge earlier, Arrived q.history c address charge earlier →
    Spent l (.clientAddrFailure address) earlier charge.instant →
    charge.decision ≠ .allow ∧
      (∀ request response, .performed c (.next request) response ∉ q.history) ∧
      ∀ request response, q.Returned c request response → response.status = 429

/-- A request that arrives when the failure budget of its address is spent finds the budget of its
requests spent too. -/
def RequestsSpentToo (l : FixedWindowRateLimiter) (q : PublicPool) : Prop :=
  ∀ c address charge earlier, Arrived q.history c address charge earlier →
    Spent l (.clientAddrFailure address) earlier charge.instant →
    Spent l (.clientAddr address) earlier charge.instant

/-- **The failure budget of the public routes** is enforced exactly as far as the budget of requests
is spent with it, in every run of requests in which nothing is evicted. -/
theorem failure_budget_enforced_iff (l : FixedWindowRateLimiter)
    (oauthError : List UInt8 → Option String) (clock : ℕ) {as : List (Act PublicRequest PublicChoice ℕ)}
    {q : PublicPool} (hrun : (publicPlane l oauthError).Run (Pool.Under (NoEviction l))
      (Pool.initial ⟨clock, ∅⟩) as q) :
    FailuresRecorded oauthError q ∧ (FailureBudgetEnforced l q ↔ RequestsSpentToo l q) := by
  have hstart : PublicInv l (Pool.initial ⟨clock, ∅⟩ : PublicPool).toMoment ∧
      InOrder oauthError (Pool.initial ⟨clock, ∅⟩ : PublicPool).toMoment := by
    refine ⟨⟨fun key hbudget => meters_nil, Metered.nil⟩, ?_⟩
    constructor <;> intros <;> contradiction
  have hd := Disciplined.run publicThrottleLayer_obeys hrun (.initial _)
  obtain ⟨hinv, horder⟩ :=
    (publicProtocol l oauthError).run publicThrottleLayer_obeys hrun (.initial _) hstart
  have hresult : ∀ {c request response}, q.Returned c request response →
      PublicResult oauthError request (q.toMoment.past c) (.ok response) := hd.returned
  refine ⟨⟨horder.recorded, ?_⟩, ?_⟩
  · intro c request response address given hret hkey hnext hfailure
    obtain ⟨charge, hcharge⟩ := (hresult hret).2 address given hkey
      ((Moment.mem_past ..).mpr hnext) hfailure
    exact ⟨charge, (Moment.mem_past ..).mp hcharge⟩
  · constructor
    · intro henforced c address charge earlier harrived hfailures
      obtain ⟨hdenied, -⟩ := henforced c address charge earlier harrived hfailures
      obtain ⟨more, hsplit⟩ := harrived
      exact (hinv.metered c _ charge more earlier hsplit).mp hdenied
    · intro hspent c address charge earlier harrived hfailures
      have hrequests := hspent c address charge earlier harrived hfailures
      obtain ⟨more, hsplit⟩ := harrived
      have hdenied := (hinv.metered c _ charge more earlier hsplit).mpr hrequests
      have hcheck : .performed c (.checkAndConsume (.clientAddr address)) charge ∈ q.history := by
        rw [hsplit]
        simp
      refine ⟨hdenied, ?_, ?_⟩
      · intro request response hnext
        exact hdenied (horder.admitted c address charge request response hcheck hnext)
      · intro request response hret
        exact ((hresult hret).1 address charge ((Moment.mem_past ..).mpr hcheck) hdenied).1

/-! ## Two requests of one address -/

/-- A window of one minute, with the given budgets of requests and of failures. -/
def minuteLimiter (perIp perIpFailures : UInt64) : FixedWindowRateLimiter where
  window := 60 * nanosPerSec.toNat
  budgets := ⟨perIp, perIpFailures, 10, 600⟩
  maxEntries := 10000
  window_pos := minute_pos
  maxEntries_pos := by decide

/-- A request for a token. -/
def tokenRequest : PublicRequest := ⟨"/token", some (.peer "192.0.2.1", none)⟩

/-- A response that refuses the client. -/
def unauthorized : PublicResponse := ⟨401, [], none⟩

/-- A first request fails, and a second one arrives. -/
def failThenArrive : List (Act PublicRequest PublicChoice ℕ) :=
  [.begin 0 tokenRequest, .advance 0 .proceed, .advance 0 (.respond unauthorized),
    .advance 0 .proceed, .begin 1 tokenRequest, .advance 1 .proceed]

/-- The status that a request has been answered with. -/
def answeredStatus (q : PublicPool) (c : ℕ) : Option ℕ :=
  (q.calls c).bind fun call =>
    match call.rest with
    | .done response => some response.status
    | _ => none

/-- Nothing is evicted by an operation. -/
def keepsAll (l : FixedWindowRateLimiter) (m : PublicMoment) (_c : ℕ) (_x : PublicChoice) :
    PublicOp → Bool
  | .checkAndConsume key => !l.full key (l.retain m.world.clock m.world.state)
  | _ => true

theorem noEviction_of_keepsAll (m : PublicMoment) (c : ℕ) (x : PublicChoice) (o : PublicOp)
    (h : keepsAll l m c x o = true) : NoEviction l m c x o := by
  rintro key rfl
  simpa [keepsAll] using h

/-- Where one request spends both budgets, the second one is answered 429. -/
theorem failure_budget_enforced_iff_both_spent :
    ∃ q : PublicPool, answeredStatus q 1 = some 429 ∧
      FailuresRecorded (fun _ => none) q ∧
      (FailureBudgetEnforced (minuteLimiter 1 1) q ↔ RequestsSpentToo (minuteLimiter 1 1) q) := by
  obtain ⟨q, hrun, htest⟩ := System.Run.of_followWhen_any
    (M := publicPlane (minuteLimiter 1 1) fun _ => none)
    (Pool.under_of_passes noEviction_of_keepsAll)
    (show ((publicPlane (minuteLimiter 1 1) fun _ => none).followWhen
      (Pool.passes (keepsAll (minuteLimiter 1 1))) (Pool.initial ⟨0, ∅⟩)
      (failThenArrive ++ [.advance 1 .proceed])).any (fun q => answeredStatus q 1 == some 429) = true
      by decide +kernel)
  exact ⟨q, by simpa using htest,
    failure_budget_enforced_iff (minuteLimiter 1 1) (fun _ => none) 0 hrun⟩

/-- Whether the newest event is an admitted arrival that found the failure budget spent. -/
def admitsSpent (l : FixedWindowRateLimiter) (q : PublicPool) : Bool :=
  match q.history with
  | .performed _ (.checkAndConsume (.clientAddr address)) charge :: earlier =>
    decide (Spent l (.clientAddrFailure address) earlier charge.instant) &&
      charge.decision == .allow
  | _ => false

theorem not_enforced_of_admitsSpent {q : PublicPool} (h : admitsSpent l q = true) :
    ¬ FailureBudgetEnforced l q := by
  intro henforced
  unfold admitsSpent at h
  split at h
  · rename_i c address charge earlier hhistory
    obtain ⟨hspent, hallowed⟩ := Bool.and_eq_true_iff.mp h
    obtain ⟨hdenied, -⟩ := henforced c address charge earlier ⟨[], hhistory⟩
      (of_decide_eq_true hspent)
    exact hdenied (by simpa using hallowed)
  · exact absurd h (by simp)

/-- With sixty requests a minute and one failure, a second request is admitted after a failure. -/
theorem failure_budget_not_enforced :
    ∃ q : PublicPool, (publicPlane (minuteLimiter 60 1) fun _ => none).Run
        (Pool.Under (NoEviction (minuteLimiter 60 1))) (Pool.initial ⟨0, ∅⟩) failThenArrive q ∧
      ¬ FailureBudgetEnforced (minuteLimiter 60 1) q := by
  obtain ⟨q, hrun, htest⟩ := System.Run.of_followWhen_any
    (M := publicPlane (minuteLimiter 60 1) fun _ => none)
    (Pool.under_of_passes noEviction_of_keepsAll)
    (show ((publicPlane (minuteLimiter 60 1) fun _ => none).followWhen
      (Pool.passes (keepsAll (minuteLimiter 60 1))) (Pool.initial ⟨0, ∅⟩)
      failThenArrive).any (admitsSpent (minuteLimiter 60 1)) = true by decide +kernel)
  exact ⟨q, hrun, not_enforced_of_admitsSpent htest⟩

end OidcExchange
