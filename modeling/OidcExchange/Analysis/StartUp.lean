import OidcExchange.Analysis.DomainAllowlist
import OidcExchange.Program.Startup

/-!
# What a resolved configuration guarantees at start-up

Every assertion of start-up but three is implied by what the resolvers checked. The upper bound
on the cleanup interval and both bounds on the request timeout are the assertions' own: a
configuration beyond them is accepted, and start-up stops at the assertion.
-/

set_option autoImplicit false

namespace OidcExchange

/-! ## Steps in a row -/

/-- Steps that all succeed succeed in a row. -/
theorem forM_eq_ok {α : Type} {f : α → Starting Unit} :
    ∀ {l : List α}, (∀ a ∈ l, f a = .ok ()) → l.forM f = .ok ()
  | [], _ => rfl
  | a :: l, h => by
    show (f a >>= fun _ => l.forM f) = .ok ()
    rw [h a (by simp)]
    exact forM_eq_ok fun b hb => h b (by simp [hb])

/-- Where no step panics and one of them fails, the row ends in an error. -/
theorem forM_eq_error {α : Type} {f : α → Starting Unit} :
    ∀ {l : List α}, (∀ a ∈ l, f a ≠ .error .panic) → (∃ a ∈ l, f a ≠ .ok ()) →
      ∃ e, l.forM f = .error (.error e)
  | [], _, hbad => by simp at hbad
  | a :: l, h, hbad => by
    show ∃ e, (f a >>= fun _ => l.forM f) = .error (.error e)
    cases ha : f a with
    | ok u =>
      apply forM_eq_error fun b hb => h b (by simp [hb])
      obtain ⟨b, hb, hne⟩ := hbad
      rcases List.mem_cons.mp hb with rfl | hb
      · exact absurd ha hne
      · exact ⟨b, hb, hne⟩
    | error e =>
      cases e with
      | error e => exact ⟨e, rfl⟩
      | panic => exact absurd ha (h a (by simp))

/-- A step that is passed on does not panic. -/
theorem passOn_ne_panic {α : Type} (r : Except Error α) : passOn r ≠ .error .panic := by
  cases r <;> nofun

@[simp] theorem passOn_eq_ok {r : Except Error Unit} : passOn r = .ok () ↔ r = .ok () := by
  cases r <;> simp [passOn, Except.mapError]

@[simp] theorem assertThat_true : (assertThat true : Starting Unit) = .ok () := rfl

@[simp] theorem assertThat_false : (assertThat false : Starting Unit) = .error .panic := rfl

/-! ## What validation leaves -/

/-- A text is trimmed away only if it is white space throughout. -/
theorem nonBlank_of_mem {text : String} {x : Char} (hx : x ∈ text.toList)
    (hblank : isWhiteSpace x = false) : nonBlank text = true := by
  have hne : text.toList.dropWhile isWhiteSpace ≠ [] := by
    intro hnil
    have hall := List.dropWhile_eq_nil_iff.mp hnil x hx
    exact absurd hall (by simp [hblank])
  have hhead := List.head_dropWhile_not isWhiteSpace hne
  have htrim : trimChars text.toList ≠ [] := by
    intro hnil
    have hall := List.rdropWhile_eq_nil_iff.mp hnil _ (List.head_mem hne)
    exact absurd hall (by simp [hhead])
  simpa [nonBlank, List.isEmpty_iff] using htrim

/-- A URL is not blank. -/
theorem HttpsUrl.nonBlank_text (url : HttpsUrl) : nonBlank url.text = true := by
  have hbegins : "https://".toList <+: url.text.toList :=
    List.isPrefixOf_iff_prefix.mp (Bool.and_eq_true_iff.mp url.https).1
  exact nonBlank_of_mem (hbegins.subset (by decide : 'h' ∈ "https://".toList)) (by decide)

/-- What a check that passes has checked. -/
theorem of_requireConfig {condition : Bool} {complaint : String}
    (h : requireConfig condition complaint = .ok ()) : condition = true := by
  cases condition with
  | true => rfl
  | false => exact nomatch h

/-- What the validation of the internal API leaves for building its gate. -/
structure GateValid (c : Config) : Prop where
  some_method : c.internalApi.authMethods ≠ []
  secret : .sharedSecret ∈ c.internalApi.authMethods → c.internalApi.sharedSecret.isSome
  audience : .operatorToken ∈ c.internalApi.authMethods →
    nonBlank c.internalApi.tokenAudience = true
  claim : .operatorToken ∈ c.internalApi.authMethods →
    nonBlank c.internalApi.requiredClaim = true
  header : .mtls ∈ c.internalApi.authMethods → nonBlank c.internalApi.mtlsSubjectHeader = true

variable {tables : UnicodeTables} {isIpNet : String → Bool} {raw : RawConfig} {c : Config}

/-- Operator tokens are validated whenever the mechanism is listed. -/
theorem operatorToken_valid (h : c.validateOperatorToken tables = .ok ()) :
    nonBlank c.internalApi.tokenAudience = true ∧ nonBlank c.internalApi.requiredClaim = true := by
  obtain ⟨-, -, h⟩ := ok_of_bind h
  obtain ⟨_, haudience, h⟩ := ok_of_bind h
  obtain ⟨_, hclaim, -⟩ := ok_of_bind h
  exact ⟨of_requireConfig haudience, of_requireConfig hclaim⟩

/-- A validated internal API can be given its gate. -/
theorem gateValid_of_validate (h : c.validateInternalApi tables = .ok ()) : GateValid c := by
  obtain ⟨_, hmethod, h⟩ := ok_of_bind h
  obtain ⟨_, hsecret, h⟩ := ok_of_bind h
  obtain ⟨_, htoken, h⟩ := ok_of_bind h
  obtain ⟨_, hheader, -⟩ := ok_of_bind h
  have hmethod := of_requireConfig hmethod
  have hsecret := of_requireConfig hsecret
  have hheader := of_requireConfig hheader
  have htoken (hmem : .operatorToken ∈ c.internalApi.authMethods) :
      nonBlank c.internalApi.tokenAudience = true ∧
        nonBlank c.internalApi.requiredClaim = true := by
    rw [if_pos (List.contains_iff_mem.mpr hmem)] at htoken
    exact operatorToken_valid htoken
  constructor
  · intro hnil
    simp [hnil] at hmethod
  · intro hmem
    cases hs : c.internalApi.sharedSecret with
    | some s => rfl
    | none =>
      rw [List.contains_iff_mem.mpr hmem, hs] at hsecret
      exact absurd hsecret (by decide)
  · exact fun hmem => (htoken hmem).1
  · exact fun hmem => (htoken hmem).2
  · intro hmem
    rw [List.contains_iff_mem.mpr hmem] at hheader
    simpa using hheader

/-- What is resolved has passed the validation across sections. -/
theorem validate_of_resolve (h : Config.resolve tables isIpNet raw = .ok c) :
    c.validate tables = .ok () := by
  unfold Config.resolve at h
  iterate 14
    obtain ⟨_, -, h⟩ := ok_of_bind h
  obtain ⟨⟨⟩, hvalid, h⟩ := ok_of_bind h
  cases h
  exact hvalid

/-- A resolved configuration that serves the internal API can be given its gate. -/
theorem gateValid_of_resolve (h : Config.resolve tables isIpNet raw = .ok c)
    (hserved : c.internalApiServed = true) : GateValid c := by
  obtain ⟨_, -, h⟩ := ok_of_bind (validate_of_resolve h)
  obtain ⟨_, h, -⟩ := ok_of_bind h
  rw [if_pos hserved] at h
  exact gateValid_of_validate h

/-! ## The gate -/

variable {s : Surroundings}

/-- The gate can be built: no listed mechanism is one it does not know, and the keys load where
operator tokens need them. -/
def Config.GateBuilds (c : Config) (s : Surroundings) : Prop :=
  c.internalApiServed = true → .oidc ∉ c.internalApi.authMethods ∧
    (.operatorToken ∈ c.internalApi.authMethods → s.keys = .ok ())

/-- A mechanism of a validated gate is built, unless the gate does not know it or needs keys
that do not load. -/
theorem buildAuthenticator_of_valid (hvalid : GateValid c) {m : InternalAuthMethod}
    (hm : m ∈ c.internalApi.authMethods) :
    c.buildAuthenticator s m ≠ .error .panic ∧
      (c.buildAuthenticator s m = .ok () ↔
        m ≠ .oidc ∧ (m = .operatorToken → s.keys = .ok ())) := by
  cases m with
  | sharedSecret =>
    obtain ⟨secret, hsecret⟩ := Option.isSome_iff_exists.mp (hvalid.secret hm)
    simp [Config.buildAuthenticator, hsecret]
  | oidc =>
    have hfail : c.buildAuthenticator s .oidc ≠ .ok () := nofun
    exact ⟨passOn_ne_panic _, by simp [hfail]⟩
  | operatorToken =>
    rw [Config.buildAuthenticator, HttpsUrl.nonBlank_text, hvalid.audience hm, hvalid.claim hm]
    cases hkeys : s.keys with
    | ok u => simp [passOn, Except.mapError, bind, Except.bind]
    | error e => simp [passOn, Except.mapError, bind, Except.bind]
  | mtls => simp [Config.buildAuthenticator, hvalid.header hm]

/-- The gate of a validated configuration is built or refused, without a panic. -/
theorem buildOperatorAuthGate_of_valid (hvalid : GateValid c)
    (hserved : c.internalApiServed = true) :
    (c.GateBuilds s ∧ c.buildOperatorAuthGate s = .ok ()) ∨
      (¬ c.GateBuilds s ∧ ∃ e, c.buildOperatorAuthGate s = .error (.error e)) := by
  have henabled : c.internalApi.enabled = true := (Bool.and_eq_true_iff.mp hserved).2
  have hgate : c.buildOperatorAuthGate s =
      (c.internalApi.authMethods.forM (c.buildAuthenticator s) >>= fun _ => .ok ()) := by
    have hsome : (!c.internalApi.authMethods.isEmpty) = true := by
      simpa using hvalid.some_method
    rw [Config.buildOperatorAuthGate, henabled, hsome]
    rfl
  rw [hgate]
  by_cases hall : ∀ m ∈ c.internalApi.authMethods, c.buildAuthenticator s m = .ok ()
  · left
    refine ⟨fun _ => ⟨?_, ?_⟩, by rw [forM_eq_ok hall]; rfl⟩
    · intro hm
      exact ((buildAuthenticator_of_valid hvalid hm).2.mp (hall _ hm)).1 rfl
    · intro hm
      exact ((buildAuthenticator_of_valid hvalid hm).2.mp (hall _ hm)).2 rfl
  · right
    constructor
    · intro hbuilds
      apply hall
      intro m hm
      apply (buildAuthenticator_of_valid hvalid hm).2.mpr
      refine ⟨?_, ?_⟩
      · rintro rfl
        exact (hbuilds hserved).1 hm
      · rintro rfl
        exact (hbuilds hserved).2 hm
    · push Not at hall
      obtain ⟨e, he⟩ := forM_eq_error
        (fun m hm => (buildAuthenticator_of_valid (s := s) hvalid hm).1) hall
      exact ⟨e, by rw [he]; rfl⟩

/-! ## Routers, repositories, reaper -/

/-- The bounds that building a router asserts of the request timeout. -/
def Config.TimeoutFits (c : Config) : Prop :=
  0 < c.server.requestTimeout.toNat ∧ c.server.requestTimeout.toNat ≤ Config.requestTimeoutMaxSecs

instance (c : Config) : Decidable c.TimeoutFits := inferInstanceAs (Decidable (_ ∧ _))

theorem requestTimeoutDuration_eq (c : Config) : c.requestTimeoutDuration =
    if c.TimeoutFits then .ok c.server.requestTimeout else .error .panic := by
  unfold Config.requestTimeoutDuration Config.TimeoutFits
  by_cases hpos : 0 < c.server.requestTimeout.toNat
  · by_cases hmax : c.server.requestTimeout.toNat ≤ Config.requestTimeoutMaxSecs <;>
      simp [hpos, hmax, bind, Except.bind]
  · simp [hpos, bind, Except.bind]

/-- The rate limiter of a resolved configuration is always built. -/
theorem buildRateLimiter_eq_ok (c : Config) : c.buildRateLimiter = .ok () := by
  have hwindow : c.rateLimit.window.1 ≠ 0 := by
    intro h
    have := c.rateLimit.window.2.1
    simp [h] at this
  have hentries : c.rateLimit.maxEntries.1 ≠ 0 := by
    intro h
    have := c.rateLimit.maxEntries.2.1
    simp [h] at this
  unfold Config.buildRateLimiter Config.newFixedWindowRateLimiter
  rw [if_neg hwindow, if_neg hentries]
  exact ite_self _

theorem buildAdminRouter_eq (c : Config) : c.buildAdminRouter =
    if c.TimeoutFits then .ok () else .error .panic := by
  rw [Config.buildAdminRouter, requestTimeoutDuration_eq]
  split <;> rfl

theorem buildRouterShared_eq (c : Config) : c.buildRouterShared =
    if c.TimeoutFits then .ok () else .error .panic := by
  have hpermits : c.rateLimit.maxConcurrentRequests.1.toNat ≤ Config.semaphoreMaxPermits :=
    c.rateLimit.maxConcurrentRequests.2.2.trans (by decide)
  rw [Config.buildRouterShared, buildRateLimiter_eq_ok, requestTimeoutDuration_eq]
  by_cases hfits : c.TimeoutFits <;> simp [hfits, hpermits, Config.expectOk, bind, Except.bind]

/-- Building the routers of a resolved configuration panics where the request timeout is out of
bounds, once the gate is built. -/
theorem buildRouters_eq_panic_iff (h : Config.resolve tables isIpNet raw = .ok c)
    (s : Surroundings) :
    c.buildRouters s = .error .panic ↔ c.GateBuilds s ∧ ¬ c.TimeoutFits := by
  unfold Config.buildRouters
  rw [buildRouterShared_eq, buildAdminRouter_eq, buildRateLimiter_eq_ok]
  by_cases hserved : c.internalApiServed = true
  · rw [if_pos hserved]
    rcases buildOperatorAuthGate_of_valid (s := s) (gateValid_of_resolve h hserved) hserved with
      ⟨hbuilds, hok⟩ | ⟨hrefused, e, he⟩
    · rw [hok]
      by_cases hfits : c.TimeoutFits <;> cases c.server.role <;>
        simp [hbuilds, hfits, Config.expectOk, bind, Except.bind]
    · rw [he]
      simp [hrefused, bind, Except.bind]
  · rw [if_neg hserved]
    have hbuilds : c.GateBuilds s := fun hs => absurd hs hserved
    by_cases hfits : c.TimeoutFits <;> cases c.server.role <;>
      simp [hbuilds, hfits, Config.expectOk, bind, Except.bind]

/-- The statistics cache of a resolved configuration has a lifetime the adapter takes. -/
theorem statsCache_eq_ok (c : Config) :
    (c.statsCacheTtl >>= fun ttl => Config.withStatsCacheTtl ttl) = .ok () := by
  obtain ⟨hmin, hmax⟩ := c.internalApi.statsCacheTtl.2
  have hmillis : 1 ≤ 1000 * c.internalApi.statsCacheTtl.1.toNat := by
    unfold minStatsCacheTtlSecs at hmin
    omega
  have hhour : c.internalApi.statsCacheTtl.1.toNat ≤ 3600 := hmax
  simp [Config.statsCacheTtl, Config.withStatsCacheTtl, hmin, hmax, hmillis, hhour, bind,
    Except.bind]

/-- Building the stores never panics. -/
theorem buildService_ne_panic (c : Config) (s : Surroundings) :
    c.buildService s ≠ .error .panic := by
  have hdynamo : (passOn (s.store .dynamodb) >>= fun _ =>
      c.statsCacheTtl >>= fun ttl => Config.withStatsCacheTtl ttl) = passOn (s.store .dynamodb) := by
    rw [statsCache_eq_ok]
    cases s.store .dynamodb <;> rfl
  have huser : ∃ r, c.buildUserRepository s = passOn r := by
    unfold Config.buildUserRepository
    split
    · exact ⟨_, hdynamo⟩
    all_goals exact ⟨_, rfl⟩
  have hsession : ∃ r, c.buildSessionRepository s = passOn r := by
    unfold Config.buildSessionRepository
    split
    · exact ⟨_, hdynamo⟩
    all_goals exact ⟨_, rfl⟩
  obtain ⟨r, hr⟩ := huser
  obtain ⟨r', hr'⟩ := hsession
  rw [Config.buildService, hr, hr']
  cases r <;> cases r' <;> cases hs : s.service <;> nofun

/-- Starting the reaper panics where the runtime hosts it and the interval is above its bound. -/
theorem spawnSessionReaper_eq_panic_iff (c : Config) (s : Surroundings) :
    c.spawnSessionReaper s = .error .panic ↔ s.runtime.hostsReaper = true ∧
      Config.reaperIntervalMaxSecs < c.sessionRepository.cleanupInterval.1.toNat := by
  have hpos := c.sessionRepository.cleanupInterval.2
  have hne : c.sessionRepository.cleanupInterval.1 ≠ 0 := by
    intro h
    simp [h] at hpos
  unfold Config.spawnSessionReaper Config.cleanupIntervalDuration Config.reaperLoop
  by_cases hhosts : s.runtime.hostsReaper = true
  · by_cases hmax : c.sessionRepository.cleanupInterval.1.toNat ≤ Config.reaperIntervalMaxSecs
    · simp [hhosts, hpos, hmax, hne, bind, Except.bind]
    · simp [hhosts, hpos, hmax, Nat.lt_of_not_le hmax, bind, Except.bind]
  · simp [hhosts]

/-! ## The claim -/

/-- **What an accepted configuration guarantees at start-up**: building the stores never panics;
once the gate of the internal API is built, building the routers panics exactly where the
request timeout is zero or above an hour; and starting the reaper panics exactly where the
runtime hosts one and the cleanup interval is above thirty days. -/
theorem start_up_panics_iff (h : Config.resolve tables isIpNet raw = .ok c) (s : Surroundings) :
    c.buildService s ≠ .error .panic ∧
      (c.buildRouters s = .error .panic ↔ c.GateBuilds s ∧ ¬ c.TimeoutFits) ∧
      (c.spawnSessionReaper s = .error .panic ↔ s.runtime.hostsReaper = true ∧
        Config.reaperIntervalMaxSecs < c.sessionRepository.cleanupInterval.1.toNat) :=
  ⟨buildService_ne_panic c s, buildRouters_eq_panic_iff h s, spawnSessionReaper_eq_panic_iff c s⟩

/-- Surroundings in which nothing fails. -/
def calmSurroundings : Surroundings where
  runtime := .persistent
  store _ := .ok ()
  keys := .ok ()
  service := .ok ()

/-- A small configuration with the given request timeout and cleanup interval. -/
def rawConfigWith (requestTimeout cleanupInterval : String) : RawConfig where
  server := ⟨"127.0.0.1", 8080, "https://id.example", "exchange", requestTimeout, 2097152, none,
    [], 1⟩
  registration := .ok ()
  session := .ok ()
  token := ⟨"15m", "30d", "app", none, true, "10s", "24h"⟩
  grants := ⟨false, "10m", "1h"⟩
  audit := .ok ()
  keyManager := ⟨"local", .ok ()⟩
  repository := ⟨"sqlite", .ok ()⟩
  sessionRepository := ⟨none, .ok (), cleanupInterval⟩
  rateLimit := ⟨true, "in_process", "1m", 60, 10, 10, 600, 256, 10000⟩
  userSync := .ok ()
  telemetry := .ok ()
  internalApi := ⟨false, "127.0.0.1", 8081, [], none, "internal", "role", "admin", none, 5, "1m",
    "5m", "60s"⟩
  providers := .ok ()

/-- A value that a computed test accepts. -/
theorem exists_ok_of_test {ε α : Type} {r : Except ε α} {P : α → Prop} [DecidablePred P]
    (h : (match r with
      | .ok a => decide (P a)
      | .error _ => false) = true) : ∃ a, r = .ok a ∧ P a := by
  cases r with
  | ok a => exact ⟨a, rfl, of_decide_eq_true h⟩
  | error e => exact absurd h (by simp)

theorem start_up_panics_iff_calm : ∃ c,
    Config.resolve plainTables (fun _ => true) (rawConfigWith "30s" "1h") = .ok c ∧
      (c.buildRouters calmSurroundings ≠ .error .panic ∧
        c.spawnSessionReaper calmSurroundings ≠ .error .panic) := by
  obtain ⟨c, hc, hfits, hinterval⟩ : ∃ c,
      Config.resolve plainTables (fun _ => true) (rawConfigWith "30s" "1h") = .ok c ∧
        c.TimeoutFits ∧
        c.sessionRepository.cleanupInterval.1.toNat ≤ Config.reaperIntervalMaxSecs :=
    exists_ok_of_test (by decide +kernel)
  obtain ⟨-, hrouters, hreaper⟩ := start_up_panics_iff hc calmSurroundings
  refine ⟨c, hc, ?_, ?_⟩
  · exact fun hpanic => (hrouters.mp hpanic).2 hfits
  · intro hpanic
    have := (hreaper.mp hpanic).2
    omega

/-- Two accepted configurations that panic at start-up: a request timeout of zero, and a cleanup
interval of 31 days. -/
theorem start_up_panics_accepted :
    (∃ c, Config.resolve plainTables (fun _ => true) (rawConfigWith "0s" "1h") = .ok c ∧
      c.buildRouters calmSurroundings = .error .panic) ∧
    (∃ c, Config.resolve plainTables (fun _ => true) (rawConfigWith "30s" "31d") = .ok c ∧
      c.spawnSessionReaper calmSurroundings = .error .panic) := by
  constructor
  · exact exists_ok_of_test (by decide +kernel)
  · exact exists_ok_of_test (by decide +kernel)

end OidcExchange
