import OidcExchange.Interleaving.Testing
import OidcExchange.Program.JwksCache
import OidcExchange.Throttling.FixedWindow

/-!
# The fetches of the key cache

The permit is with the one call that was granted it and has not given it back, and a fetch that is
forced is at least an interval after the one before. An expired set is handed out only to a caller
that was refused the permit just before; by then the refill it was refused for may have failed.
-/

set_option autoImplicit false

namespace OidcExchange

open Interleaving Throttling

variable {Keys Key : Type} {config : JwksConfig Keys Key}

/-! ## Runs -/

abbrev JwksPast (Keys : Type) : Type := List (Performed (JwksAns Keys))

abbrev JwksMoment (Keys : Type) : Type := Moment (JwksAns Keys) JwksRequest (JwksWorld Keys)

abbrev JwksPool (Keys Key : Type) : Type :=
  Pool (JwksAns Keys) JwksRequest (Fault Error) (JwksResult Keys Key) (JwksWorld Keys)

abbrev JwksAct (Keys : Type) : Type := Act JwksRequest JwksChoice (JwksDrift Keys)

/-- The operations, as a semantics for pools of calls. -/
def jwksSemantics (config : JwksConfig Keys Key) :
    Semantics (JwksAns Keys) (JwksWorld Keys) JwksChoice (JwksDrift Keys) where
  exec := JwksWorld.exec config
  drift := JwksWorld.drift

/-- The calls of the cache as a transition system. -/
abbrev jwksSystem (config : JwksConfig Keys Key) :
    System (JwksPool Keys Key) (JwksAct Keys) :=
  Pool.system (jwksSemantics config) config.serve

/-! ## What one operation does -/

/-- Everything one operation can do. -/
inductive JwksStep (config : JwksConfig Keys Key) (c : ℕ) (w : JwksWorld Keys) :
    (o : JwksOp Keys) → JwksAns Keys o → JwksWorld Keys → Prop
  | read : JwksStep config c w .freshCached ((w.freshEntry config).map (·.keys)) w
  | granted (h : w.permit = none) : JwksStep config c w .tryAcquire true { w with permit := some c }
  | refused (d : ℕ) (h : w.permit = some d) : JwksStep config c w .tryAcquire false w
  | readAny : JwksStep config c w .anyCached (w.cache.map (·.keys)) w
  | acquired (h : w.permit = none) : JwksStep config c w .acquire () { w with permit := some c }
  | found (cached : CachedJwks Keys) (h : w.freshEntry config = some cached) :
      JwksStep config c w .recheck (.inl cached.keys) w
  | refills (h : w.freshEntry config = none) : JwksStep config c w .recheck (.inr w.ticket) w.start
  | answered (fetch : Fetch) (keys : Keys) (h : keys ∈ w.publishedSince fetch) :
      JwksStep config c w (.fetchKeys fetch) (.ok keys) w
  | failed (fetch : Fetch) (e : Error) : JwksStep config c w (.fetchKeys fetch) (.error e) w
  | stored (fetch : Fetch) (keys : Keys) :
      JwksStep config c w (.store fetch keys) w.clock
        { w with cache := some ⟨keys, w.clock, fetch⟩ }
  | released : JwksStep config c w .release () { w with permit := none }
  | asked : JwksStep config c w .forcedLately w.recentlyForced w
  | limited (h : w.recentlyForced = true) : JwksStep config c w .recordForced none w
  | forces (h : w.recentlyForced = false) :
      JwksStep config c w .recordForced (some w.ticket)
        { w.start with lastForced := some w.clock }

theorem JwksStep.of_exec {x : JwksChoice} {c : ℕ} {o : JwksOp Keys} {w w' : JwksWorld Keys}
    {ans : JwksAns Keys o} (h : JwksWorld.exec config x c o w = some (ans, w')) :
    JwksStep config c w o ans w' := by
  cases o with
  | freshCached =>
    cases x <;> cases h
    exact .read
  | tryAcquire =>
    cases x with
    | proceed =>
      cases hpermit : w.permit with
      | none =>
        simp only [JwksWorld.exec, hpermit] at h
        cases h
        exact .granted hpermit
      | some d =>
        simp only [JwksWorld.exec, hpermit] at h
        cases h
        exact .refused d hpermit
    | answer back => exact nomatch h
    | fail e => exact nomatch h
  | anyCached =>
    cases x <;> cases h
    exact .readAny
  | acquire =>
    cases x with
    | proceed =>
      cases hpermit : w.permit with
      | none =>
        simp only [JwksWorld.exec, hpermit] at h
        cases h
        exact .acquired hpermit
      | some d => simp [JwksWorld.exec, hpermit] at h
    | answer back => exact nomatch h
    | fail e => exact nomatch h
  | recheck =>
    cases x with
    | proceed =>
      cases hfresh : w.freshEntry config with
      | none =>
        simp only [JwksWorld.exec, hfresh] at h
        cases h
        exact .refills hfresh
      | some cached =>
        simp only [JwksWorld.exec, hfresh] at h
        cases h
        exact .found cached hfresh
    | answer back => exact nomatch h
    | fail e => exact nomatch h
  | fetchKeys fetch =>
    cases x with
    | proceed => exact nomatch h
    | answer back =>
      obtain ⟨keys, hkeys, heq⟩ := Option.map_eq_some_iff.mp h
      cases heq
      exact .answered fetch keys (List.mem_of_getElem? hkeys)
    | fail e =>
      cases h
      exact .failed fetch e
  | store fetch keys =>
    cases x <;> cases h
    exact .stored fetch keys
  | release =>
    cases x <;> cases h
    exact .released
  | forcedLately =>
    cases x <;> cases h
    exact .asked
  | recordForced =>
    cases x with
    | proceed =>
      by_cases hlately : w.recentlyForced = true
      · simp only [JwksWorld.exec, hlately, ↓reduceIte] at h
        cases h
        exact .limited hlately
      · simp only [JwksWorld.exec, hlately] at h
        cases h
        exact .forces (by simpa using hlately)
    | answer back => exact nomatch h
    | fail e => exact nomatch h

/-- A fresh entry is the cached one. -/
theorem JwksWorld.freshEntry_eq_some {w : JwksWorld Keys} {cached : CachedJwks Keys} :
    w.freshEntry config = some cached ↔
      w.cache = some cached ∧ w.clock - cached.fetchedAt < config.ttl := by
  simp [JwksWorld.freshEntry, Option.filter_eq_some_iff]

/-- Where nothing fresh is cached, what is cached has expired. -/
theorem JwksWorld.expired_of_freshEntry {w : JwksWorld Keys} {cached : CachedJwks Keys}
    (h : w.freshEntry config = none) (hcached : w.cache = some cached) :
    config.ttl ≤ w.clock - cached.fetchedAt := by
  by_contra hfresh
  have hsome := JwksWorld.freshEntry_eq_some.mpr ⟨hcached, Nat.lt_of_not_le hfresh⟩
  rw [h] at hsome
  exact nomatch hsome

namespace JwksStep

variable {c : ℕ} {w w' : JwksWorld Keys}

theorem expired_of_refill {fetch : Fetch} (h : JwksStep config c w .recheck (.inr fetch) w') :
    w.freshEntry config = none := by
  cases h with
  | refills hexpired => exact hexpired

/-- A set that is read as fresh is the fresh entry's. -/
theorem fresh_of_read {o : JwksOp Keys} {ans : JwksAns Keys o} {keys : Keys}
    (h : JwksStep config c w o ans w')
    (hread : (⟨o, ans⟩ : Performed (JwksAns Keys)) = ⟨.freshCached, some keys⟩ ∨
      (⟨o, ans⟩ : Performed (JwksAns Keys)) = ⟨.recheck, .inl keys⟩) :
    (w.freshEntry config).map (·.keys) = some keys := by
  cases h with
  | read => simpa using hread
  | found cached hfresh =>
    rw [hfresh]
    simpa using hread
  | _ => simp at hread

theorem held_of_refused (h : JwksStep config c w .tryAcquire false w') :
    ∃ d, w.permit = some d := by
  cases h with
  | refused d hheld => exact ⟨d, hheld⟩

theorem cache_of_failed {fetch : Fetch} {e : Error}
    (h : JwksStep config c w (.fetchKeys fetch) (.error e) w') : w'.cache = w.cache := by
  cases h with
  | failed => rfl

theorem cache_of_store {fetch : Fetch} {keys : Keys} {instant : ℕ}
    (h : JwksStep config c w (.store fetch keys) instant w') :
    w'.cache = some ⟨keys, w.clock, fetch⟩ := by
  cases h with
  | stored => rfl

/-- Only a store changes the cache. -/
theorem store_of_cache_ne {o : JwksOp Keys} {ans : JwksAns Keys o}
    (h : JwksStep config c w o ans w') (hne : w'.cache ≠ w.cache) :
    ∃ fetch keys, (⟨o, ans⟩ : Performed (JwksAns Keys)) = ⟨.store fetch keys, w.clock⟩ := by
  cases h with
  | stored fetch keys => exact ⟨fetch, keys, rfl⟩
  | _ => exact absurd rfl hne

end JwksStep

/-! ## What a call performs -/

/-- The call holds the permit. -/
def Holds : JwksPast Keys → Prop
  | [] => False
  | ⟨.tryAcquire, granted⟩ :: _ => granted = true
  | ⟨.acquire, _⟩ :: _ => True
  | ⟨.release, _⟩ :: _ => False
  | ⟨.freshCached, _⟩ :: past => Holds past
  | ⟨.anyCached, _⟩ :: past => Holds past
  | ⟨.recheck, _⟩ :: past => Holds past
  | ⟨.fetchKeys _, _⟩ :: past => Holds past
  | ⟨.store _ _, _⟩ :: past => Holds past
  | ⟨.forcedLately, _⟩ :: past => Holds past
  | ⟨.recordForced, _⟩ :: past => Holds past

/-- The fetch that the call has started and whose set it has not stored yet. -/
def awaiting : JwksPast Keys → Option Fetch
  | ⟨.recheck, .inr fetch⟩ :: _ => some fetch
  | ⟨.recordForced, some fetch⟩ :: _ => some fetch
  | ⟨.fetchKeys _, .ok _⟩ :: past => awaiting past
  | _ => none

/-- The set that an operation handed to its caller. -/
def handed : Performed (JwksAns Keys) → Option Keys
  | ⟨.freshCached, found⟩ => found
  | ⟨.anyCached, found⟩ => found
  | ⟨.recheck, .inl keys⟩ => some keys
  | ⟨.fetchKeys _, .ok keys⟩ => some keys
  | _ => none

/-- What a call performs: it tries for the permit where it found no fresh set, takes any set only
where it was refused the permit, gives the permit back where it holds it, and stores only what a
fetch of its own has brought. -/
def JwksReady (past : JwksPast Keys) : JwksOp Keys → Prop
  | .freshCached => True
  | .tryAcquire => ¬ Holds past
  | .anyCached => ∃ earlier, past = ⟨.tryAcquire, false⟩ :: ⟨.freshCached, none⟩ :: earlier
  | .acquire => ¬ Holds past
  | .recheck => Holds past
  | .fetchKeys fetch => awaiting past = some fetch
  | .store fetch keys => ∃ earlier, past = ⟨.fetchKeys fetch, .ok keys⟩ :: earlier ∧
      awaiting past = some fetch
  | .release => Holds past
  | .forcedLately => True
  | .recordForced => True

/-- A call is done with the permit, and a set it ends in was handed to it. -/
def Concluded (past : JwksPast Keys) : Except (Fault Error) Keys → Prop
  | .ok keys => ¬ Holds past ∧ ∃ e ∈ past, handed e = some keys
  | .error _ => ¬ Holds past

section Obeys

variable {past : JwksPast Keys} {fetch : Fetch}

theorem JwksCache.concludeRefill_obeys {ans : Except Error Keys} (hholds : Holds past)
    (hfetch : awaiting past = some fetch) :
    (JwksCache.concludeRefill fetch ans).Obeys JwksReady Concluded
      (⟨.fetchKeys fetch, ans⟩ :: past) := by
  cases ans with
  | error e => exact ⟨hholds, fun _ => id⟩
  | ok keys =>
    refine ⟨⟨past, rfl, hfetch⟩, fun _ => ⟨hholds, fun _ => ⟨id, ?_⟩⟩⟩
    exact ⟨⟨.fetchKeys fetch, .ok keys⟩, by simp, rfl⟩

theorem JwksCache.refill_obeys (hholds : Holds past) :
    (JwksCache.refill : JwksCall Keys Keys).Obeys JwksReady Concluded past := by
  refine ⟨hholds, fun found => ?_⟩
  cases found with
  | inl keys => exact ⟨hholds, fun _ => ⟨id, ⟨.recheck, .inl keys⟩, by simp, rfl⟩⟩
  | inr fetch => exact ⟨rfl, fun ans => JwksCache.concludeRefill_obeys hholds rfl⟩

theorem JwksCache.queueForRefill_obeys :
    (JwksCache.queueForRefill : JwksCall Keys Keys).Obeys JwksReady Concluded
      (⟨.tryAcquire, false⟩ :: ⟨.freshCached, none⟩ :: past) := by
  have hfree : ¬ Holds (⟨.tryAcquire, false⟩ :: ⟨.freshCached, none⟩ :: past) := by
    simp [Holds]
  refine ⟨⟨past, rfl⟩, fun found => ?_⟩
  cases found with
  | some stale => exact ⟨hfree, ⟨.anyCached, some stale⟩, by simp, rfl⟩
  | none => exact ⟨hfree, fun _ => JwksCache.refill_obeys trivial⟩

theorem JwksCache.getKeys_obeys (hfree : ¬ Holds past) :
    (JwksCache.getKeys : JwksCall Keys Keys).Obeys JwksReady Concluded past := by
  refine ⟨trivial, fun found => ?_⟩
  cases found with
  | some keys => exact ⟨hfree, ⟨.freshCached, some keys⟩, by simp, rfl⟩
  | none =>
    refine ⟨hfree, fun granted => ?_⟩
    cases granted with
    | true => exact JwksCache.refill_obeys rfl
    | false => exact JwksCache.queueForRefill_obeys

theorem JwksCache.refresh_obeys (hfree : ¬ Holds past) :
    (JwksCache.refresh : JwksCall Keys Unit).Obeys JwksReady (fun past _ => ¬ Holds past) past := by
  refine ⟨trivial, fun lately => ?_⟩
  cases lately with
  | true => exact hfree
  | false =>
    refine ⟨trivial, fun recorded => ?_⟩
    cases recorded with
    | none => exact hfree
    | some fetch =>
      refine ⟨rfl, fun ans => ?_⟩
      cases ans with
      | error e => exact hfree
      | ok keys => exact ⟨⟨_, rfl, rfl⟩, fun _ => hfree⟩

/-- How a request ends: a set it returns was handed to it, and so was the set that a key is in. -/
def JwksPost (config : JwksConfig Keys Key) (request : JwksRequest) (past : JwksPast Keys) :
    Except (Fault Error) (JwksResult Keys Key) → Prop
  | .ok (.keys keys) => ∃ e ∈ past, handed e = some keys
  | .ok (.key key) => ∃ e ∈ past, ∃ keys kid, request = .getKey kid ∧ handed e = some keys ∧
      config.get keys kid = some key
  | .ok .refreshed => True
  | .error _ => True

theorem JwksCache.getKeyAfterRefresh_obeys {kid : String} (hfree : ¬ Holds past) :
    (JwksCache.getKeyAfterRefresh config kid).Obeys JwksReady
      (fun past r => JwksPost config (.getKey kid) past (r.map .key)) past := by
  refine (JwksCache.refresh_obeys hfree).bind (fun past' _ hfree' => ?_) fun _ _ _ => trivial
  refine (JwksCache.getKeys_obeys hfree').bind ?_ fun _ _ _ => trivial
  rintro past'' keys ⟨-, e, hmem, hhanded⟩
  cases hget : config.get keys kid with
  | some key => exact ⟨e, hmem, keys, kid, rfl, hhanded, hget⟩
  | none => trivial

theorem JwksCache.getKey_obeys {kid : String} :
    (JwksCache.getKey config kid).Obeys JwksReady
      (fun past r => JwksPost config (.getKey kid) past (r.map .key)) [] := by
  refine Program.obeys_ofExcept_bind (fun _ _ => ?_) fun _ _ => trivial
  have hkeys : (JwksCache.getKeys : JwksCall Keys Keys).Obeys JwksReady Concluded [] :=
    JwksCache.getKeys_obeys id
  refine hkeys.bind ?_ fun _ _ _ => trivial
  rintro past' keys ⟨hfree, e, hmem, hhanded⟩
  cases hget : config.get keys kid with
  | some key => exact ⟨e, hmem, keys, kid, rfl, hhanded, hget⟩
  | none => exact JwksCache.getKeyAfterRefresh_obeys hfree

/-- Every request performs only what is ready and ends as stated. -/
theorem JwksConfig.serve_obeys (request : JwksRequest) :
    (config.serve request).Obeys JwksReady (JwksPost config request) [] := by
  cases request with
  | getKeys =>
    have hkeys : (JwksCache.getKeys : JwksCall Keys Keys).Obeys JwksReady Concluded [] :=
      JwksCache.getKeys_obeys id
    exact hkeys.bind (fun _ _ h => h.2) fun _ _ _ => trivial
  | getKey kid => exact JwksCache.getKey_obeys.bind (fun _ _ h => h) fun _ _ _ => trivial
  | refresh =>
    have hrefresh : (JwksCache.refresh : JwksCall Keys Unit).Obeys JwksReady
        (fun past _ => ¬ Holds past) [] := JwksCache.refresh_obeys id
    exact hrefresh.bind (fun _ _ _ => trivial) fun _ _ _ => trivial

end Obeys

/-! ## The permit, the stores and the forced fetches -/

/-- The instant at which a set was stored. -/
def storedAt : (o : JwksOp Keys) → JwksAns Keys o → Option ℕ
  | .store _ _, instant => some instant
  | _, _ => none

/-- The instant at which a fetch was forced. -/
def forcedAt : (o : JwksOp Keys) → JwksAns Keys o → Option ℕ
  | .recordForced, some fetch => some fetch.startedAt
  | _, _ => none

/-- The instants at which fetches were forced, newest first. -/
def forcedFetches (m : JwksMoment Keys) : List ℕ := (m.collect forcedAt).map Prod.snd

/-- The permit is with the call that holds it, and only its holder checks again; the cached set is
at least as new as every set stored; forced fetches are spaced. -/
structure FetchInv (m : JwksMoment Keys) : Prop where
  permit : ∀ c, m.world.permit = some c ↔ Holds (m.past c)
  elected : ∀ c found earlier, m.past c = ⟨.recheck, found⟩ :: earlier → Holds earlier
  stored : ∀ c instant, (c, instant) ∈ m.collect storedAt →
    ∃ cached, m.world.cache = some cached ∧ instant ≤ cached.fetchedAt
  cached : ∀ cached, m.world.cache = some cached → cached.fetchedAt ≤ m.world.clock
  forced : Spaced minRefreshInterval (forcedFetches m)
  last : (forcedFetches m).head? = m.world.lastForced

namespace FetchInv

variable {m : JwksMoment Keys} {c : ℕ} {o : JwksOp Keys} {ans : JwksAns Keys o}
  {w : JwksWorld Keys}

theorem new (clock : ℕ) (published : List Keys) :
    FetchInv ⟨JwksWorld.new clock published, []⟩ := by
  constructor <;> simp [JwksWorld.new, Moment.past, Moment.collect, Holds, forcedFetches]

/-- Of the calls, one that changes nothing about its permit. -/
theorem permit_kept (h : FetchInv m) (hpermit : w.permit = m.world.permit)
    (hholds : Holds (⟨o, ans⟩ :: m.past c) ↔ Holds (m.past c)) (d : ℕ) :
    w.permit = some d ↔ Holds ((m.performed c o ans w).past d) := by
  rw [hpermit, h.permit d]
  by_cases hdc : d = c
  · subst hdc
    rw [Moment.past_performed_self, hholds]
  · rw [Moment.past_performed_other _ (Ne.symm hdc)]

/-- A call is granted the permit. -/
theorem permit_granted (h : FetchInv m) (hfree : m.world.permit = none) (hpermit : w.permit = some c)
    (hholds : Holds (⟨o, ans⟩ :: m.past c)) (d : ℕ) :
    w.permit = some d ↔ Holds ((m.performed c o ans w).past d) := by
  rw [hpermit]
  by_cases hdc : d = c
  · subst hdc
    rw [Moment.past_performed_self]
    exact ⟨fun _ => hholds, fun _ => rfl⟩
  · rw [Moment.past_performed_other _ (Ne.symm hdc), ← h.permit d, hfree]
    simp [Ne.symm hdc]

/-- The holder gives the permit back. -/
theorem permit_released (h : FetchInv m) (hholder : Holds (m.past c)) (hpermit : w.permit = none)
    (hfree : ¬ Holds (⟨o, ans⟩ :: m.past c)) (d : ℕ) :
    w.permit = some d ↔ Holds ((m.performed c o ans w).past d) := by
  rw [hpermit]
  by_cases hdc : d = c
  · subst hdc
    rw [Moment.past_performed_self]
    simp [hfree]
  · have hother : ¬ Holds (m.past d) := by
      intro hd
      have heq := ((h.permit d).mpr hd).symm.trans ((h.permit c).mpr hholder)
      exact hdc (Option.some.inj heq)
    rw [Moment.past_performed_other _ (Ne.symm hdc)]
    simp [hother]

/-- Only the holder of the permit checks again. -/
theorem elected_performed (h : FetchInv m) (hready : JwksReady (m.past c) o) (d : ℕ)
    (found : Keys ⊕ Fetch) (earlier : JwksPast Keys)
    (hpast : (m.performed c o ans w).past d = ⟨.recheck, found⟩ :: earlier) : Holds earlier := by
  by_cases hdc : d = c
  · subst hdc
    rw [Moment.past_performed_self] at hpast
    obtain ⟨hop, rfl⟩ := List.cons.inj hpast
    obtain ⟨rfl, -⟩ := Sigma.mk.inj hop
    exact hready
  · rw [Moment.past_performed_other _ (Ne.symm hdc)] at hpast
    exact h.elected d found earlier hpast

/-- A fetch that is not forced changes nothing in the instants. -/
theorem forcedFetches_performed (hforced : forcedAt o ans = none) :
    forcedFetches (m.performed c o ans w) = forcedFetches m := by
  rw [forcedFetches, Moment.collect_performed_none _ _ _ hforced]
  rfl

/-- An operation that stores nothing and forces nothing. -/
theorem frame (h : FetchInv m) (hready : JwksReady (m.past c) o)
    (hpermit : ∀ d, w.permit = some d ↔ Holds ((m.performed c o ans w).past d))
    (hstored : storedAt o ans = none) (hforced : forcedAt o ans = none)
    (hcache : w.cache = m.world.cache) (hclock : w.clock = m.world.clock)
    (hlast : w.lastForced = m.world.lastForced) : FetchInv (m.performed c o ans w) where
  permit := hpermit
  elected := h.elected_performed hready
  stored := by
    rw [Moment.collect_performed_none _ _ _ hstored, Moment.performed_world, hcache]
    exact h.stored
  cached := by
    rw [Moment.performed_world, hcache, hclock]
    exact h.cached
  forced := by
    rw [forcedFetches_performed hforced]
    exact h.forced
  last := by
    rw [forcedFetches_performed hforced, Moment.performed_world, hlast]
    exact h.last

/-- A set is stored: it is the newest. -/
theorem store (h : FetchInv m) {fetch : Fetch} {keys : Keys}
    (hready : JwksReady (m.past c) (.store fetch keys)) :
    FetchInv (m.performed c (.store fetch keys) m.world.clock
      { m.world with cache := some ⟨keys, m.world.clock, fetch⟩ }) where
  permit := h.permit_kept rfl Iff.rfl
  elected := h.elected_performed hready
  stored := by
    intro d instant hmem
    refine ⟨_, rfl, ?_⟩
    show instant ≤ m.world.clock
    rw [Moment.collect_performed_some storedAt m _ rfl] at hmem
    obtain heq | hmem := List.mem_cons.mp hmem
    · obtain ⟨-, rfl⟩ := Prod.mk.inj heq
      exact Nat.le_refl _
    · obtain ⟨cached, hcached, hle⟩ := h.stored d instant hmem
      exact hle.trans (h.cached cached hcached)
  cached := by
    intro cached hcached
    obtain rfl := Option.some.inj hcached
    exact Nat.le_refl _
  forced := by
    rw [forcedFetches_performed rfl]
    exact h.forced
  last := by
    rw [forcedFetches_performed rfl]
    exact h.last

/-- The newest forced fetch is an interval back when none was forced lately. -/
theorem newest_of_not_recently (h : FetchInv m) (hlately : m.world.recentlyForced = false)
    (newest : ℕ) (hnewest : (forcedFetches m).head? = some newest) :
    newest + minRefreshInterval ≤ m.world.clock := by
  have hlast := h.last.symm.trans hnewest
  simp only [JwksWorld.recentlyForced, hlast, Option.any_some, decide_eq_false_iff_not] at hlately
  unfold minRefreshInterval at hlately ⊢
  omega

/-- A fetch is forced: the one before is an interval back. -/
theorem force (h : FetchInv m) (hlately : m.world.recentlyForced = false) :
    FetchInv (m.performed c .recordForced (some m.world.ticket)
      { m.world.start with lastForced := some m.world.clock }) where
  permit := h.permit_kept rfl Iff.rfl
  elected := h.elected_performed trivial
  stored := by
    rw [Moment.collect_performed_none _ _ _ rfl]
    exact h.stored
  cached := h.cached
  forced := by
    rw [forcedFetches, Moment.collect_performed_some forcedAt m _ rfl]
    exact h.forced.cons (h.newest_of_not_recently hlately)
  last := by
    rw [forcedFetches, Moment.collect_performed_some forcedAt m _ rfl]
    rfl

/-- Every operation keeps the invariant. -/
theorem performs (h : FetchInv m) (hready : JwksReady (m.past c) o)
    (hstep : JwksStep config c m.world o ans w) : FetchInv (m.performed c o ans w) := by
  cases hstep with
  | read => exact h.frame hready (h.permit_kept rfl Iff.rfl) rfl rfl rfl rfl rfl
  | granted hfree => exact h.frame hready (h.permit_granted hfree rfl rfl) rfl rfl rfl rfl rfl
  | refused d hheld =>
    have hfree : ¬ Holds (m.past c) := hready
    refine h.frame hready (h.permit_kept rfl ?_) rfl rfl rfl rfl rfl
    simp [Holds, hfree]
  | readAny => exact h.frame hready (h.permit_kept rfl Iff.rfl) rfl rfl rfl rfl rfl
  | acquired hfree => exact h.frame hready (h.permit_granted hfree rfl trivial) rfl rfl rfl rfl rfl
  | found cached hfresh => exact h.frame hready (h.permit_kept rfl Iff.rfl) rfl rfl rfl rfl rfl
  | refills hexpired => exact h.frame hready (h.permit_kept rfl Iff.rfl) rfl rfl rfl rfl rfl
  | answered fetch keys hkeys => exact h.frame hready (h.permit_kept rfl Iff.rfl) rfl rfl rfl rfl rfl
  | failed fetch e => exact h.frame hready (h.permit_kept rfl Iff.rfl) rfl rfl rfl rfl rfl
  | stored fetch keys => exact h.store hready
  | released => exact h.frame hready (h.permit_released hready rfl id) rfl rfl rfl rfl rfl
  | asked => exact h.frame hready (h.permit_kept rfl Iff.rfl) rfl rfl rfl rfl rfl
  | limited hlately => exact h.frame hready (h.permit_kept rfl Iff.rfl) rfl rfl rfl rfl rfl
  | forces hlately => exact h.force hlately

/-- The world moves on. -/
theorem drifts (h : FetchInv m) {k : JwksDrift Keys} (hdrift : JwksWorld.drift k m.world = some w) :
    FetchInv (m.drifted w) := by
  cases k with
  | tick later =>
    obtain ⟨hle, heq⟩ := Option.ite_none_right_eq_some.mp hdrift
    cases heq
    exact ⟨h.permit, h.elected, h.stored, fun cached hcached => (h.cached cached hcached).trans hle,
      h.forced, h.last⟩
  | publish keys =>
    cases hdrift
    exact ⟨h.permit, h.elected, h.stored, h.cached, h.forced, h.last⟩

end FetchInv

/-- The rules of the fetches. -/
def fetchProtocol (config : JwksConfig Keys Key) :
    Protocol (jwksSemantics config) (fun _ : JwksRequest => JwksReady) where
  inv := FetchInv
  allowed _ _ _ _ := True
  begins h _ := ⟨h.permit, h.elected, h.stored, h.cached, h.forced, h.last⟩
  performs h _ hready _ hexec := h.performs hready (.of_exec hexec)
  ends h _ := ⟨h.permit, h.elected, h.stored, h.cached, h.forced, h.last⟩
  drifts h hdrift := h.drifts hdrift

/-! ## The claim -/

/-- What holds of a step from `p` to `q`, whatever the calls before it were answered. -/
structure FetchDiscipline (config : JwksConfig Keys Key) (p : JwksPool Keys Key) (a : JwksAct Keys)
    (q : JwksPool Keys Key) : Prop where
  /-- One call at most is waiting for the answer to a refill. -/
  oneRefill : ∀ c d f g earlier earlier', q.past c = ⟨.recheck, .inr f⟩ :: earlier →
    q.past d = ⟨.recheck, .inr g⟩ :: earlier' → c = d
  /-- A refill is started only when every set that was stored has expired. -/
  refillExpired : ∀ c fetch, p.Answers (jwksSemantics config) config.serve a q c .recheck
    (.inr fetch) → ∀ d instant, (d, instant) ∈ p.collect storedAt →
      config.ttl ≤ p.world.clock - instant
  /-- Fetches are forced an interval apart, whatever they were answered. -/
  forcedApart : Spaced minRefreshInterval (forcedFetches q.toMoment)
  /-- A set that is read as fresh is fresh. -/
  readFresh : ∀ c o ans keys, p.Answers (jwksSemantics config) config.serve a q c o ans →
    (⟨o, ans⟩ : Performed (JwksAns Keys)) = ⟨.freshCached, some keys⟩ ∨
      (⟨o, ans⟩ : Performed (JwksAns Keys)) = ⟨.recheck, .inl keys⟩ →
    ∃ cached, p.world.cache = some cached ∧ cached.keys = keys ∧
      p.world.clock - cached.fetchedAt < config.ttl
  /-- Any set is read only by a call that found none fresh and was then refused the permit. -/
  readRefused : ∀ c found, p.Answers (jwksSemantics config) config.serve a q c .anyCached found →
    ∃ earlier, p.past c = ⟨.tryAcquire, false⟩ :: ⟨.freshCached, none⟩ :: earlier
  /-- The permit is refused only while another call holds it. -/
  refusedHeld : ∀ c, p.Answers (jwksSemantics config) config.serve a q c .tryAcquire false →
    ∃ d, d ≠ c ∧ Holds (p.past d)
  /-- What is returned was read or brought by a fetch of the call's own. -/
  returned : ∀ c request result, q.Returned c request result →
    JwksPost config request (q.past c) (.ok result)
  /-- A failed fetch leaves the cache. -/
  failedKeeps : ∀ c fetch e, p.Answers (jwksSemantics config) config.serve a q c (.fetchKeys fetch)
    (.error e) → q.world.cache = p.world.cache
  /-- Only a call whose own fetch was answered by a set changes the cache, to that set. -/
  storesAnswer : q.world.cache ≠ p.world.cache → ∃ c fetch keys instant earlier,
    p.Answers (jwksSemantics config) config.serve a q c (.store fetch keys) instant ∧
      p.past c = ⟨.fetchKeys fetch, .ok keys⟩ :: earlier

section Step

variable {p q : JwksPool Keys Key} {a : JwksAct Keys}

/-- What a call is ready for, at the step that performs it. -/
theorem ready_of_answers (hd : Disciplined (fun _ => JwksReady) (JwksPost config) p) {c : ℕ}
    {o : JwksOp Keys} {ans : JwksAns Keys o}
    (h : p.Answers (jwksSemantics config) config.serve a q c o ans) : JwksReady (p.past c) o := by
  obtain ⟨x, i, next, w, -, hc, -, -⟩ := h
  exact hd.ready_next hc

/-- What an operation did to the world, at the step that performs it. -/
theorem step_of_answers {c : ℕ} {o : JwksOp Keys} {ans : JwksAns Keys o}
    (h : p.Answers (jwksSemantics config) config.serve a q c o ans) :
    JwksStep config c p.world o ans q.world := by
  obtain ⟨x, hexec⟩ := h.world
  exact .of_exec hexec

/-- Where a step changes the cache, a call stores a set. -/
theorem stores_of_cache_ne (hstep : (jwksSystem config).step p a = some q)
    (hne : q.world.cache ≠ p.world.cache) : ∃ c fetch keys instant,
      p.Answers (jwksSemantics config) config.serve a q c (.store fetch keys) instant := by
  obtain ⟨c, i, -, -, hm, -⟩ | ⟨c, x, i, o, next, ans, w, rfl, hc, hexec, hm, -⟩ |
    ⟨k, w, -, hdrift, hm, -⟩ := Pool.step_cases hstep
  · rw [hm] at hne
    simp at hne
  · have hanswers : p.Answers (jwksSemantics config) config.serve (.advance c x) q c o ans :=
      ⟨x, i, next, w, rfl, hc, hexec, hstep⟩
    obtain ⟨fetch, keys, heq⟩ := (step_of_answers hanswers).store_of_cache_ne hne
    obtain ⟨rfl, hans⟩ := Sigma.mk.inj heq
    obtain rfl := eq_of_heq hans
    exact ⟨c, fetch, keys, _, hanswers⟩
  · rw [hm] at hne
    cases k with
    | tick later =>
      obtain ⟨-, heq⟩ := Option.ite_none_right_eq_some.mp hdrift
      cases heq
      exact absurd rfl hne
    | publish keys =>
      cases hdrift
      exact absurd rfl hne

end Step

/-- The fetches keep their rules in every run. -/
theorem fetchInv_of_run {clock : ℕ} {published : List Keys} {p : JwksPool Keys Key}
    {as : List (JwksAct Keys)} (hrun : (jwksSystem config).Run System.anyStep
      (Pool.initial (JwksWorld.new clock published)) as p) :
    Disciplined (fun _ => JwksReady) (JwksPost config) p ∧ FetchInv p.toMoment := by
  have hrun' : (jwksSystem config).Run (Pool.Under (fetchProtocol config).allowed)
      (Pool.initial (JwksWorld.new clock published)) as p :=
    hrun.mono fun _ _ _ _ _ _ _ => trivial
  exact ⟨.run JwksConfig.serve_obeys hrun' (.initial _),
    (fetchProtocol config).run JwksConfig.serve_obeys hrun' (.initial _) (.new clock published)⟩

/-- **The discipline of the fetches**: in every run of the cache, every step keeps it. -/
theorem fetch_discipline {clock : ℕ} {published : List Keys} {p q : JwksPool Keys Key}
    {as : List (JwksAct Keys)} {a : JwksAct Keys}
    (hrun : (jwksSystem config).Run System.anyStep
      (Pool.initial (JwksWorld.new clock published)) as p)
    (hstep : (jwksSystem config).step p a = some q) : FetchDiscipline config p a q := by
  obtain ⟨hd, hinv⟩ := fetchInv_of_run hrun
  have hd' := hd.step JwksConfig.serve_obeys hstep
  have hinv' : FetchInv q.toMoment :=
    (fetchProtocol config).step hd hinv (fun _ _ _ _ => trivial) hstep
  constructor
  · intro c d f g earlier earlier' hc hd
    have hholds : Holds (q.past c) := by
      rw [hc]
      exact hinv'.elected c _ earlier hc
    have hholds' : Holds (q.past d) := by
      rw [hd]
      exact hinv'.elected d _ earlier' hd
    have heq := ((hinv'.permit c).mpr hholds).symm.trans ((hinv'.permit d).mpr hholds')
    exact Option.some.inj heq
  · intro c fetch hanswers d instant hmem
    obtain ⟨cached, hcached, hle⟩ := hinv.stored d instant hmem
    have hexpired := (step_of_answers hanswers).expired_of_refill
    have hage := JwksWorld.expired_of_freshEntry hexpired hcached
    omega
  · exact hinv'.forced
  · intro c o ans keys hanswers hread
    have hfresh := (step_of_answers hanswers).fresh_of_read hread
    obtain ⟨cached, hcached, rfl⟩ := Option.map_eq_some_iff.mp hfresh
    obtain ⟨hcache, hage⟩ := JwksWorld.freshEntry_eq_some.mp hcached
    exact ⟨cached, hcache, rfl, hage⟩
  · intro c found hanswers
    exact ready_of_answers hd hanswers
  · intro c hanswers
    have hfree : ¬ Holds (p.past c) := ready_of_answers hd hanswers
    obtain ⟨d, hheld⟩ := (step_of_answers hanswers).held_of_refused
    have hholds := (hinv.permit d).mp hheld
    refine ⟨d, ?_, hholds⟩
    rintro rfl
    exact hfree hholds
  · intro c request result hreturned
    exact hd'.returned hreturned
  · intro c fetch e hanswers
    exact (step_of_answers hanswers).cache_of_failed
  · intro hne
    obtain ⟨c, fetch, keys, instant, hanswers⟩ := stores_of_cache_ne hstep hne
    obtain ⟨earlier, hpast, -⟩ := ready_of_answers hd hanswers
    exact ⟨c, fetch, keys, instant, earlier, hanswers, hpast⟩

/-! ## A refill that fails -/

/-- Sets of key identifiers that live for ten nanoseconds. -/
def shortLived : JwksConfig (List String) String where
  ttl := 10
  get keys kid := keys.find? (· == kid)

/-- The calls `c` of a list, each going on once. -/
def go (calls : List ℕ) : List (JwksAct (List String)) := calls.map fun c => .advance c .proceed

/-- A set is fetched and expires; one call is refused the permit that another holds for a refill. -/
def refusedDuringRefill : List (JwksAct (List String)) :=
  [.begin 0 .getKeys] ++ go [0, 0, 0] ++ [.advance 0 (.answer 0)] ++ go [0, 0] ++
    [.drift (.tick 10), .begin 1 .getKeys, .begin 2 .getKeys] ++ go [1, 1, 1, 2, 2]

/-- A call that is refused the permit is handed the expired set, as the discipline says. -/
theorem fetch_discipline_refused : ∃ (p q : JwksPool (List String) String),
    q.Returned 2 .getKeys (.keys ["k"]) ∧
      FetchDiscipline shortLived p (.advance 2 .proceed) q := by
  obtain ⟨p, hrun, htest⟩ := System.Run.of_follow_any (M := jwksSystem shortLived)
    (show ((jwksSystem shortLived).follow (Pool.initial (JwksWorld.new 0 [["k"]]))
      refusedDuringRefill).any (fun p =>
        ((jwksSystem shortLived).step p (.advance 2 .proceed)).any fun q =>
          q.result 2 == some (.getKeys, .keys ["k"])) = true by decide +kernel)
  obtain ⟨q, hstep, hresult⟩ := (Option.any_eq_true _ _).mp htest
  exact ⟨p, q, Pool.returned_of_result (by simpa using hresult), fetch_discipline hrun hstep⟩

/-- The refill fails before the refused call reads: it is handed an expired set while no refill is
in flight. -/
theorem expired_set_after_failed_refill :
    ∃ (p q : JwksPool (List String) String) (cached : CachedJwks (List String)),
      (jwksSystem shortLived).Run System.anyStep (Pool.initial (JwksWorld.new 0 [["k"]]))
        (refusedDuringRefill ++ [.advance 1 (.fail (.keyError "")), .advance 1 .proceed]) p ∧
      (jwksSystem shortLived).step p (.advance 2 .proceed) = some q ∧
      q.Returned 2 .getKeys (.keys ["k"]) ∧ p.world.cache = some cached ∧
      shortLived.ttl ≤ p.world.clock - cached.fetchedAt ∧ ∀ c, ¬ Holds (p.past c) := by
  obtain ⟨p, hrun, htest⟩ := System.Run.of_follow_any (M := jwksSystem shortLived)
    (show ((jwksSystem shortLived).follow (Pool.initial (JwksWorld.new 0 [["k"]]))
      (refusedDuringRefill ++ [.advance 1 (.fail (.keyError "")), .advance 1 .proceed])).any
        (fun p => p.world.permit.isNone &&
          p.world.cache.any (fun cached => shortLived.ttl ≤ p.world.clock - cached.fetchedAt) &&
          ((jwksSystem shortLived).step p (.advance 2 .proceed)).any fun q =>
            q.result 2 == some (.getKeys, .keys ["k"])) = true by decide +kernel)
  simp only [Bool.and_eq_true, Option.isNone_iff_eq_none] at htest
  obtain ⟨⟨hpermit, hexpired⟩, hstep⟩ := htest
  obtain ⟨cached, hcached, hage⟩ := (Option.any_eq_true _ _).mp hexpired
  obtain ⟨q, hq, hresult⟩ := (Option.any_eq_true _ _).mp hstep
  refine ⟨p, q, cached, hrun, hq, Pool.returned_of_result (by simpa using hresult), hcached,
    by simpa using hage, fun c hholds => ?_⟩
  have hheld := ((fetchInv_of_run hrun).2.permit c).mpr hholds
  rw [hpermit] at hheld
  exact nomatch hheld

end OidcExchange
