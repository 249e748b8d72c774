import OidcExchange.Analysis.KeyFetches

/-!
# The order of the key cache

A refill and a forced fetch may be under way together, and each stores what it brings when it is
answered. Where no set is stored while an older fetch is under way, the cached set is never replaced
by one whose fetch started earlier, and a key that was published before a fetch whose set was stored
is found for as long as it is published.
-/

set_option autoImplicit false

namespace OidcExchange

open Interleaving

variable {Keys Key : Type} {config : JwksConfig Keys Key}

/-! ## Published sets -/

section Published

variable {w : JwksWorld Keys} {f g : Fetch}

/-- A fetch that started later can bring fewer sets. -/
theorem publishedSince_subset (h : f.mark ≤ g.mark) : w.publishedSince g ⊆ w.publishedSince f := by
  apply List.IsPrefix.subset
  apply List.take_prefix_take_left
  omega

/-- What a fetch can bring, it can bring after another set was published. -/
theorem publishedSince_publish (h : f.mark ≤ w.published.length) (keys : Keys) :
    w.publishedSince f ⊆ ({ w with published := keys :: w.published }).publishedSince f := by
  intro found hfound
  unfold JwksWorld.publishedSince at hfound ⊢
  have hlength : (keys :: w.published).length - f.mark + 1 =
      w.published.length - f.mark + 1 + 1 := by
    rw [List.length_cons]
    omega
  rw [hlength, List.take_succ_cons]
  exact List.mem_cons_of_mem _ hfound

end Published

/-! ## Fetches in the order of their starts -/

/-- The fetch that an operation starts. -/
def startedFetch : (o : JwksOp Keys) → JwksAns Keys o → Option Fetch
  | .recheck, .inr fetch => some fetch
  | .recordForced, some fetch => some fetch
  | _, _ => none

/-- The fetch whose set an operation stores. -/
def storedFetch : (o : JwksOp Keys) → JwksAns Keys o → Option Fetch
  | .store fetch _, _ => some fetch
  | _, _ => none

/-- A call awaits only what it has started. -/
theorem startedFetch_of_awaiting {past : JwksPast Keys} {fetch : Fetch}
    (h : awaiting past = some fetch) : ∃ e ∈ past, startedFetch e.1 e.2 = some fetch := by
  fun_induction awaiting past with
  | case1 started past => exact ⟨_, List.mem_cons_self .., h⟩
  | case2 started past => exact ⟨_, List.mem_cons_self .., h⟩
  | case3 answered keys past ih =>
    obtain ⟨e, hmem, he⟩ := ih h
    exact ⟨e, List.mem_cons_of_mem _ hmem, he⟩
  | case4 past => exact nomatch h

/-- A set is stored only when no older fetch is under way. -/
def InStartOrder (m : JwksMoment Keys) (_c : ℕ) (_x : JwksChoice) (o : JwksOp Keys) : Prop :=
  ∀ fetch keys, o = .store fetch keys → ∀ d g, awaiting (m.past d) = some g →
    fetch.number ≤ g.number

/-- Tickets are numbered as fetches start; the cached set is of a fetch that started no later than
any that is awaited and no earlier than any whose set was stored, and it was published since. -/
structure OrderInv (m : JwksMoment Keys) : Prop where
  numbered : ∀ c f, (c, f) ∈ m.collect startedFetch →
    f.number < m.world.started ∧ f.mark ≤ m.world.published.length
  ordered : ∀ c d f g, (c, f) ∈ m.collect startedFetch → (d, g) ∈ m.collect startedFetch →
    f.number ≤ g.number → f.mark ≤ g.mark
  answered : ∀ c f keys earlier, m.past c = ⟨.fetchKeys f, .ok keys⟩ :: earlier →
    f.mark ≤ m.world.published.length ∧ keys ∈ m.world.publishedSince f
  cached : ∀ cached, m.world.cache = some cached →
    (∃ c, (c, cached.fetch) ∈ m.collect startedFetch) ∧
      cached.keys ∈ m.world.publishedSince cached.fetch
  awaited : ∀ c f cached, awaiting (m.past c) = some f → m.world.cache = some cached →
    cached.fetch.number ≤ f.number
  stored : ∀ c f, (c, f) ∈ m.collect storedFetch →
    (∃ d, (d, f) ∈ m.collect startedFetch) ∧
      ∃ cached, m.world.cache = some cached ∧ f.number ≤ cached.fetch.number

namespace OrderInv

variable {m : JwksMoment Keys} {c : ℕ} {o : JwksOp Keys} {ans : JwksAns Keys o}
  {w : JwksWorld Keys}

theorem new (clock : ℕ) (published : List Keys) :
    OrderInv ⟨JwksWorld.new clock published, []⟩ := by
  constructor <;> simp [JwksWorld.new, Moment.past, Moment.collect]

/-- What a call awaits, it has started. -/
theorem started_of_awaiting {fetch : Fetch} (h : awaiting (m.past c) = some fetch) :
    (c, fetch) ∈ m.collect startedFetch := by
  obtain ⟨e, hmem, he⟩ := startedFetch_of_awaiting h
  exact Moment.mem_collect_of_past hmem he

/-- What a call is answered with, after it performed one more operation. -/
theorem answered_performed (h : OrderInv m) (hpublished : w.published = m.world.published)
    (hnew : ∀ f keys, (⟨o, ans⟩ : Performed (JwksAns Keys)) = ⟨.fetchKeys f, .ok keys⟩ →
      f.mark ≤ m.world.published.length ∧ keys ∈ m.world.publishedSince f)
    (d : ℕ) (f : Fetch) (keys : Keys) (earlier : JwksPast Keys)
    (hpast : (m.performed c o ans w).past d = ⟨.fetchKeys f, .ok keys⟩ :: earlier) :
    f.mark ≤ w.published.length ∧ keys ∈ w.publishedSince f := by
  unfold JwksWorld.publishedSince at hnew ⊢
  rw [hpublished]
  by_cases hdc : d = c
  · subst hdc
    rw [Moment.past_performed_self] at hpast
    exact hnew f keys (List.cons.inj hpast).1
  · rw [Moment.past_performed_other _ (Ne.symm hdc)] at hpast
    exact h.answered d f keys earlier hpast

/-- What calls await, after one of them performed an operation. -/
theorem awaiting_performed {d : ℕ} {f : Fetch}
    (hd : awaiting ((m.performed c o ans w).past d) = some f) :
    d = c ∧ awaiting (⟨o, ans⟩ :: m.past c) = some f ∨ awaiting (m.past d) = some f := by
  by_cases hdc : d = c
  · subst hdc
    rw [Moment.past_performed_self] at hd
    exact .inl ⟨rfl, hd⟩
  · rw [Moment.past_performed_other _ (Ne.symm hdc)] at hd
    exact .inr hd

/-- An operation that starts and stores nothing. -/
theorem frame (h : OrderInv m) (hstart : startedFetch o ans = none)
    (hstore : storedFetch o ans = none)
    (hawaits : ∀ f, awaiting (⟨o, ans⟩ :: m.past c) = some f → awaiting (m.past c) = some f)
    (hnew : ∀ f keys, (⟨o, ans⟩ : Performed (JwksAns Keys)) = ⟨.fetchKeys f, .ok keys⟩ →
      f.mark ≤ m.world.published.length ∧ keys ∈ m.world.publishedSince f)
    (hcache : w.cache = m.world.cache) (hpublished : w.published = m.world.published)
    (hstarted : w.started = m.world.started) : OrderInv (m.performed c o ans w) where
  numbered := by
    rw [Moment.collect_performed_none _ _ _ hstart, Moment.performed_world, hstarted, hpublished]
    exact h.numbered
  ordered := by
    rw [Moment.collect_performed_none _ _ _ hstart]
    exact h.ordered
  answered := h.answered_performed hpublished hnew
  cached := by
    unfold JwksWorld.publishedSince
    rw [Moment.collect_performed_none _ _ _ hstart, Moment.performed_world, hcache, hpublished]
    exact h.cached
  awaited := by
    intro d f cached hd hcached
    rw [Moment.performed_world, hcache] at hcached
    obtain ⟨rfl, hnew⟩ | hold := awaiting_performed hd
    · exact h.awaited d f cached (hawaits f hnew) hcached
    · exact h.awaited d f cached hold hcached
  stored := by
    rw [Moment.collect_performed_none _ _ _ hstart, Moment.collect_performed_none _ _ _ hstore,
      Moment.performed_world, hcache]
    exact h.stored

/-- A fetch is started: its ticket is the newest. -/
theorem start (h : OrderInv m) (hstart : startedFetch o ans = some m.world.ticket)
    (hawaits : awaiting (⟨o, ans⟩ :: m.past c) = some m.world.ticket)
    (hstore : storedFetch o ans = none)
    (hnew : ∀ f keys, (⟨o, ans⟩ : Performed (JwksAns Keys)) ≠ ⟨.fetchKeys f, .ok keys⟩)
    (hcache : w.cache = m.world.cache) (hpublished : w.published = m.world.published)
    (hstarted : w.started = m.world.started + 1) : OrderInv (m.performed c o ans w) where
  numbered := by
    rw [Moment.collect_performed_some startedFetch m w hstart, Moment.performed_world, hstarted,
      hpublished]
    intro d f hmem
    obtain heq | hmem := List.mem_cons.mp hmem
    · obtain ⟨-, rfl⟩ := Prod.mk.inj heq
      exact ⟨Nat.lt_succ_self _, Nat.le_refl _⟩
    · obtain ⟨hnumber, hmark⟩ := h.numbered d f hmem
      exact ⟨Nat.lt_succ_of_lt hnumber, hmark⟩
  ordered := by
    rw [Moment.collect_performed_some startedFetch m w hstart]
    intro d d' f g hf hg hle
    obtain heq | hf := List.mem_cons.mp hf
    · obtain ⟨-, rfl⟩ := Prod.mk.inj heq
      obtain heq | hg := List.mem_cons.mp hg
      · obtain ⟨-, rfl⟩ := Prod.mk.inj heq
        exact Nat.le_refl _
      · -- no earlier ticket has a number as high
        have hlt := (h.numbered d' g hg).1
        exact absurd hle (Nat.not_le_of_lt hlt)
    · obtain heq | hg := List.mem_cons.mp hg
      · obtain ⟨-, rfl⟩ := Prod.mk.inj heq
        exact (h.numbered d f hf).2
      · exact h.ordered d d' f g hf hg hle
  answered := h.answered_performed hpublished fun f keys heq => absurd heq (hnew f keys)
  cached := by
    unfold JwksWorld.publishedSince
    rw [Moment.performed_world, hcache, hpublished]
    intro cached hcached
    obtain ⟨⟨d, hd⟩, hkeys⟩ := h.cached cached hcached
    exact ⟨⟨d, Moment.collect_subset_performed _ m c o ans w hd⟩, hkeys⟩
  awaited := by
    intro d f cached hd hcached
    rw [Moment.performed_world, hcache] at hcached
    obtain ⟨rfl, hnew⟩ | hold := awaiting_performed hd
    · obtain rfl := Option.some.inj (hawaits.symm.trans hnew)
      obtain ⟨⟨d', hd'⟩, -⟩ := h.cached cached hcached
      exact Nat.le_of_lt (h.numbered d' _ hd').1
    · exact h.awaited d f cached hold hcached
  stored := by
    rw [Moment.collect_performed_none _ _ _ hstore, Moment.performed_world, hcache]
    intro d f hmem
    obtain ⟨⟨d', hd'⟩, hcached⟩ := h.stored d f hmem
    exact ⟨⟨d', Moment.collect_subset_performed _ m c o ans w hd'⟩, hcached⟩

/-- A set is stored while no older fetch is under way. -/
theorem store (h : OrderInv m) {fetch : Fetch} {keys : Keys} {earlier : JwksPast Keys}
    (hpast : m.past c = ⟨.fetchKeys fetch, .ok keys⟩ :: earlier)
    (hawaiting : awaiting (m.past c) = some fetch)
    (hoverdue : ∀ d g, awaiting (m.past d) = some g → fetch.number ≤ g.number) :
    OrderInv (m.performed c (.store fetch keys) m.world.clock
      { m.world with cache := some ⟨keys, m.world.clock, fetch⟩ }) where
  numbered := by
    rw [Moment.collect_performed_none _ _ _ rfl]
    exact h.numbered
  ordered := by
    rw [Moment.collect_performed_none _ _ _ rfl]
    exact h.ordered
  answered := h.answered_performed rfl fun f keys heq => by simp at heq
  cached := by
    rw [Moment.collect_performed_none _ _ _ rfl]
    intro cached hcached
    obtain rfl := Option.some.inj hcached
    exact ⟨⟨c, started_of_awaiting hawaiting⟩, (h.answered c fetch keys earlier hpast).2⟩
  awaited := by
    intro d f cached hd hcached
    obtain rfl := Option.some.inj hcached
    obtain ⟨-, hnone⟩ | hold := awaiting_performed hd
    · exact nomatch hnone
    · exact hoverdue d f hold
  stored := by
    rw [Moment.collect_performed_some storedFetch m _ rfl, Moment.collect_performed_none _ _ _ rfl]
    intro d f hmem
    obtain heq | hmem := List.mem_cons.mp hmem
    · obtain ⟨-, rfl⟩ := Prod.mk.inj heq
      exact ⟨⟨c, started_of_awaiting hawaiting⟩, _, rfl, Nat.le_refl _⟩
    · obtain ⟨hd, cached, hcached, hle⟩ := h.stored d f hmem
      exact ⟨hd, _, rfl, hle.trans (h.awaited c fetch cached hawaiting hcached)⟩

/-- Every operation that stores in the order of the starts keeps the invariant. -/
theorem performs (h : OrderInv m) {x : JwksChoice} (hready : JwksReady (m.past c) o)
    (hallowed : InStartOrder m c x o) (hstep : JwksStep config c m.world o ans w) :
    OrderInv (m.performed c o ans w) := by
  cases hstep with
  | refills hexpired => exact h.start rfl rfl rfl (by simp) rfl rfl rfl
  | forces hlately => exact h.start rfl rfl rfl (by simp) rfl rfl rfl
  | stored fetch keys =>
    obtain ⟨earlier, hpast, hawaiting⟩ := hready
    exact h.store hpast hawaiting (hallowed fetch keys rfl)
  | answered fetch keys hkeys =>
    refine h.frame rfl rfl (fun f hf => hf) ?_ rfl rfl rfl
    intro f keys' heq
    obtain ⟨hop, hans⟩ := Sigma.mk.inj heq
    obtain rfl := JwksOp.fetchKeys.inj hop
    obtain rfl := Except.ok.inj (eq_of_heq hans)
    exact ⟨(h.numbered c fetch (started_of_awaiting hready)).2, hkeys⟩
  | failed fetch e => exact h.frame rfl rfl (fun f hf => nomatch hf) (by simp) rfl rfl rfl
  | _ => exact h.frame rfl rfl (fun f hf => nomatch hf) (by simp) rfl rfl rfl

/-- The world moves on: a fetch can still bring what it could bring before. -/
theorem drifts (h : OrderInv m) {k : JwksDrift Keys} (hdrift : JwksWorld.drift k m.world = some w) :
    OrderInv (m.drifted w) := by
  cases k with
  | tick later =>
    obtain ⟨-, heq⟩ := Option.ite_none_right_eq_some.mp hdrift
    cases heq
    exact ⟨h.numbered, h.ordered, h.answered, h.cached, h.awaited, h.stored⟩
  | publish keys =>
    cases hdrift
    refine ⟨fun c f hmem => ?_, h.ordered, fun c f keys' earlier hpast => ?_,
      fun cached hcached => ?_, h.awaited, h.stored⟩
    · obtain ⟨hnumber, hmark⟩ := h.numbered c f hmem
      exact ⟨hnumber, Nat.le_succ_of_le hmark⟩
    · obtain ⟨hmark, hkeys⟩ := h.answered c f keys' earlier hpast
      exact ⟨Nat.le_succ_of_le hmark, publishedSince_publish hmark keys hkeys⟩
    · obtain ⟨⟨c, hc⟩, hkeys⟩ := h.cached cached hcached
      exact ⟨⟨c, hc⟩, publishedSince_publish (h.numbered c _ hc).2 keys hkeys⟩

/-- The cached set was published since every fetch whose set was stored. -/
theorem cached_published (h : OrderInv m) {d : ℕ} {fetch : Fetch} {cached : CachedJwks Keys}
    (hstored : (d, fetch) ∈ m.collect storedFetch) (hcached : m.world.cache = some cached) :
    cached.keys ∈ m.world.publishedSince fetch := by
  obtain ⟨⟨e, he⟩, newest, hnewest, hle⟩ := h.stored d fetch hstored
  obtain rfl := Option.some.inj (hcached.symm.trans hnewest)
  obtain ⟨⟨e', he'⟩, hkeys⟩ := h.cached cached hcached
  exact publishedSince_subset (h.ordered e e' fetch cached.fetch he he' hle) hkeys

end OrderInv

/-- The rules of the order. -/
def orderProtocol (config : JwksConfig Keys Key) :
    Protocol (jwksSemantics config) (fun _ : JwksRequest => JwksReady) where
  inv := OrderInv
  allowed := InStartOrder
  begins h _ := ⟨h.numbered, h.ordered, h.answered, h.cached, h.awaited, h.stored⟩
  performs h _ hready hallowed hexec := h.performs hready hallowed (.of_exec hexec)
  ends h _ := ⟨h.numbered, h.ordered, h.answered, h.cached, h.awaited, h.stored⟩
  drifts h hdrift := h.drifts hdrift

/-! ## The claim -/

/-- A lookup that finds a fresh set with the key in it ends there. -/
theorem returned_of_fresh {p q : JwksPool Keys Key} {d : ℕ} {x : JwksChoice} {kid : String}
    {key : Key} {cached : CachedJwks Keys}
    (hcall : p.calls d = some ⟨.getKey kid, config.serve (.getKey kid)⟩)
    (hfresh : p.world.freshEntry config = some cached)
    (hkey : config.get cached.keys kid = some key)
    (hstep : (jwksSystem config).step p (.advance d x) = some q) :
    q.Returned d (.getKey kid) (.key key) := by
  obtain ⟨c, i, hact, -⟩ | ⟨c, x', i, o, next, ans, w, hact, hc, hexec, -, hcalls⟩ |
    ⟨k, w, hact, -⟩ := Pool.step_cases hstep
  · cases hact
  · obtain ⟨rfl, rfl⟩ : d = c ∧ x = x' := by simpa using hact
    obtain ⟨rfl, hserve⟩ : .getKey kid = i ∧ config.serve (.getKey kid) = .perform o next := by
      simpa using hcall.symm.trans hc
    by_cases hkid : kid = ""
    · simp [JwksConfig.serve, JwksCache.getKey, assertThat, hkid] at hserve
    · have hassert : (assertThat (decide (kid ≠ "")) : Except (Fault Error) Unit) = .ok () := by
        simp [assertThat, hkid]
      simp only [JwksConfig.serve, JwksCache.getKey, hassert, Program.ofExcept_ok,
        Program.done_bind, JwksCache.getKeys, Program.ask_bind, Program.perform_bind,
        Program.map_eq_bind, Program.perform.injEq] at hserve
      obtain ⟨rfl, hnext⟩ := hserve
      obtain rfl := eq_of_heq hnext
      obtain rfl : ans = some cached.keys := by
        cases JwksStep.of_exec hexec with
        | read => rw [hfresh]; rfl
      rw [Pool.Returned, hcalls, Function.update_self]
      simp [hkey]
  · cases hact

/-- **The cache keeps up with what is published**: in every run in which no set is stored while an
older fetch is under way, the cached set is replaced only by one whose fetch started no earlier, and
a key in every set published since a fetch whose set was stored is found by every lookup that finds
the entry fresh. -/
theorem cache_in_start_order {clock : ℕ} {published : List Keys} {p q : JwksPool Keys Key}
    {as : List (JwksAct Keys)} {a : JwksAct Keys}
    (hrun : (jwksSystem config).Run (Pool.Under InStartOrder)
      (Pool.initial (JwksWorld.new clock published)) as p)
    (hmeets : p.Under InStartOrder a) (hstep : (jwksSystem config).step p a = some q) :
    (∀ cached, p.world.cache = some cached → ∃ cached', q.world.cache = some cached' ∧
      cached.fetch.number ≤ cached'.fetch.number) ∧
    ∀ d fetch kid key, (d, fetch) ∈ p.collect storedFetch →
      (∀ keys ∈ p.world.publishedSince fetch, config.get keys kid = some key) →
      ∀ c x cached, a = .advance c x →
        p.calls c = some ⟨.getKey kid, config.serve (.getKey kid)⟩ →
        p.world.freshEntry config = some cached → q.Returned c (.getKey kid) (.key key) := by
  have hd : Disciplined (fun _ => JwksReady) (JwksPost config) p :=
    .run JwksConfig.serve_obeys hrun (.initial _)
  have hinv : OrderInv p.toMoment :=
    (orderProtocol config).run JwksConfig.serve_obeys hrun (.initial _) (.new clock published)
  constructor
  · intro cached hcached
    by_cases hsame : q.world.cache = p.world.cache
    · exact ⟨cached, hsame.trans hcached, Nat.le_refl _⟩
    · obtain ⟨c, fetch, keys, instant, hanswers⟩ := stores_of_cache_ne hstep hsame
      obtain ⟨earlier, hpast, hawaiting⟩ := ready_of_answers hd hanswers
      exact ⟨_, (step_of_answers hanswers).cache_of_store,
        hinv.awaited c fetch cached hawaiting hcached⟩
  · rintro d fetch kid key hstored hkey c x cached rfl hcall hfresh
    obtain ⟨hcached, -⟩ := JwksWorld.freshEntry_eq_some.mp hfresh
    exact returned_of_fresh hcall hfresh (hkey _ (hinv.cached_published hstored hcached)) hstep

/-- A set is fetched, another is published, and a lookup of its new key forces a fetch. -/
def forcedInTurn : List (JwksAct (List String)) :=
  [.begin 0 .getKeys] ++ go [0, 0, 0] ++ [.advance 0 (.answer 0)] ++ go [0, 0] ++
    [.drift (.publish ["k", "new"]), .begin 1 (.getKey "new")] ++ go [1, 1, 1] ++
    [.advance 1 (.answer 0)] ++ go [1, 1]

/-- Whether an operation stores in the order of the starts, as far as the calls below a number go. -/
def storesInOrder (n : ℕ) (m : JwksMoment (List String)) (_c : ℕ) (_x : JwksChoice) :
    JwksOp (List String) → Bool
  | .store fetch _ => m.history.all (fun e => e.call < n) &&
      (List.range n).all fun d => (awaiting (m.past d)).all fun g => fetch.number ≤ g.number
  | _ => true

theorem inStartOrder_of_test {n : ℕ} (m : JwksMoment (List String)) (c : ℕ) (x : JwksChoice)
    (o : JwksOp (List String)) (h : storesInOrder n m c x o = true) : InStartOrder m c x o := by
  rintro fetch keys rfl d g hd
  obtain ⟨hcalls, htest⟩ := Bool.and_eq_true_iff.mp h
  obtain ⟨e, hmem, -⟩ := startedFetch_of_awaiting hd
  have hcall := List.all_eq_true.mp hcalls _ ((Moment.mem_past m d e.1 e.2).mp hmem)
  have hlt : d < n := of_decide_eq_true hcall
  have hpassed := List.all_eq_true.mp htest d (List.mem_range.mpr hlt)
  rw [hd] at hpassed
  simpa using hpassed

/-- A call that has begun has performed nothing. -/
theorem calls_of_begin {p q : JwksPool Keys Key} {c : ℕ} {request : JwksRequest}
    (h : (jwksSystem config).step p (.begin c request) = some q) :
    q.calls c = some ⟨request, config.serve request⟩ := by
  obtain ⟨c', i, hact, -, -, hcalls⟩ | ⟨c', x, i, o, next, ans, w, hact, -⟩ |
    ⟨k, w, hact, -⟩ := Pool.step_cases h
  · obtain ⟨rfl, rfl⟩ : c = c' ∧ request = i := by simpa using hact
    rw [hcalls, Function.update_self]
  · exact nomatch hact
  · exact nomatch hact

/-- After a fetch that was forced, the next lookup finds the new key. -/
theorem cache_in_start_order_rotated : ∃ p q : JwksPool (List String) String,
    (jwksSystem shortLived).step p (.advance 2 .proceed) = some q ∧
      q.Returned 2 (.getKey "new") (.key "new") := by
  obtain ⟨p₀, hrun, htest⟩ := System.Run.of_followWhen_any (M := jwksSystem shortLived)
    (Pool.under_of_passes inStartOrder_of_test)
    (show ((jwksSystem shortLived).followWhen (Pool.passes (storesInOrder 2))
      (Pool.initial (JwksWorld.new 0 [["k"]])) forcedInTurn).any (fun p₀ =>
        ((jwksSystem shortLived).step p₀ (.begin 2 (.getKey "new"))).any fun p =>
          (p.collect storedFetch).any (fun stored => (p.world.publishedSince stored.2).all
            fun keys => shortLived.get keys "new" == some "new") &&
          (p.world.freshEntry shortLived).isSome &&
          p.passes (storesInOrder 3) (.advance 2 .proceed : JwksAct (List String)) &&
          ((jwksSystem shortLived).step p (.advance 2 .proceed)).isSome) = true by decide +kernel)
  obtain ⟨p, hbegin, htest⟩ := (Option.any_eq_true _ _).mp htest
  simp only [Bool.and_eq_true, List.any_eq_true, List.all_eq_true, beq_iff_eq] at htest
  obtain ⟨⟨⟨⟨⟨d, fetch⟩, hstored, hkey⟩, hfresh⟩, hpasses⟩, hstep⟩ := htest
  obtain ⟨cached, hcached⟩ := Option.isSome_iff_exists.mp hfresh
  obtain ⟨q, hstep⟩ := Option.isSome_iff_exists.mp hstep
  have hrun' := hrun.trans (.single (by rintro _ _ _ ⟨hact, -⟩; exact nomatch hact) hbegin)
  have hmeets := Pool.under_of_passes inStartOrder_of_test p _ hpasses
  exact ⟨p, q, hstep, (cache_in_start_order hrun' hmeets hstep).2 d fetch "new" "new" hstored hkey
    2 .proceed cached rfl (calls_of_begin hbegin) hcached⟩

/-- A set expires, and its refill is under way when another set is published and a fetch of it is
forced. -/
def overtakenRefill : List (JwksAct (List String)) :=
  [.begin 0 .getKeys] ++ go [0, 0, 0] ++ [.advance 0 (.answer 0)] ++ go [0, 0] ++
    [.drift (.tick 10), .begin 1 .getKeys] ++ go [1, 1, 1] ++
    [.advance 1 (.answer 0), .drift (.publish ["k", "new"]), .begin 2 .refresh] ++ go [2, 2] ++
    [.advance 2 (.answer 0)] ++ go [2]

/-- The refill stores after the forced fetch that overtook it: the cache goes back, and the key
that was published before the forced fetch started is not found although the entry is fresh. -/
theorem overtaken_refill_goes_back :
    ∃ (p q r : JwksPool (List String) String) (cached cached' : CachedJwks (List String)),
      (jwksSystem shortLived).Run System.anyStep (Pool.initial (JwksWorld.new 0 [["k"]]))
        overtakenRefill p ∧
      (jwksSystem shortLived).step p (.advance 1 .proceed) = some q ∧
      p.world.cache = some cached ∧ q.world.cache = some cached' ∧
      cached'.fetch.number < cached.fetch.number ∧
      (jwksSystem shortLived).Run System.anyStep q
        ([.begin 3 (.getKey "new")] ++ go [3, 3, 3]) r ∧
      r.world.freshEntry shortLived = some cached' ∧
      (∀ keys ∈ r.world.publishedSince cached.fetch, shortLived.get keys "new" = some "new") ∧
      r.Failed 3 (.getKey "new") (.error (JwksCache.noMatchingKey "new")) := by
  obtain ⟨p, hrun, htest⟩ := System.Run.of_follow_any (M := jwksSystem shortLived)
    (show ((jwksSystem shortLived).follow (Pool.initial (JwksWorld.new 0 [["k"]]))
      overtakenRefill).any (fun p => p.world.cache.any fun cached =>
        ((jwksSystem shortLived).step p (.advance 1 .proceed)).any fun q =>
          q.world.cache.any fun cached' => decide (cached'.fetch.number < cached.fetch.number) &&
            ((jwksSystem shortLived).follow q ([.begin 3 (.getKey "new")] ++ go [3, 3, 3])).any
              fun r => r.world.freshEntry shortLived == some cached' &&
                (r.world.publishedSince cached.fetch).all
                  (fun keys => shortLived.get keys "new" == some "new") &&
                r.failure 3 == some (.getKey "new", .error (JwksCache.noMatchingKey "new"))) =
        true by decide +kernel)
  obtain ⟨cached, hcached, htest⟩ := (Option.any_eq_true _ _).mp htest
  obtain ⟨q, hstep, htest⟩ := (Option.any_eq_true _ _).mp htest
  obtain ⟨cached', hcached', htest⟩ := (Option.any_eq_true _ _).mp htest
  obtain ⟨hback, htest⟩ := Bool.and_eq_true_iff.mp htest
  obtain ⟨r, hlater, htest⟩ := System.Run.of_follow_any htest
  simp only [Bool.and_eq_true, List.all_eq_true, beq_iff_eq] at htest
  obtain ⟨⟨hfresh, hkey⟩, hfailure⟩ := htest
  exact ⟨p, q, r, cached, cached', hrun, hstep, hcached, hcached', of_decide_eq_true hback, hlater,
    hfresh, hkey, Pool.failed_of_failure hfailure⟩

end OidcExchange
