import OidcExchange.Program.Configuration

/-!
# Start-up

From a resolved configuration to a serving process: the repositories, the routers of the
role, the session reaper. What the process finds outside its configuration comes as given.

Left out: the middleware and the routes themselves, log lines, and the sockets.
-/

set_option autoImplicit false

namespace OidcExchange

/-- A step of start-up: it succeeds, returns an error or panics. -/
abbrev Starting (α : Type) : Type := Except (Fault Error) α

/-- The error of a step, passed on. -/
def passOn {α : Type} (r : Except Error α) : Starting α := r.mapError .error

/-- SOURCE: server/src/reaper.rs:65-73 -/
inductive HostRuntime : Type
  | persistent
  | lambda
  deriving DecidableEq

/-- SOURCE: server/src/reaper.rs:96-101 -/
def HostRuntime.hostsReaper : HostRuntime → Bool
  | .persistent => true
  | .lambda => false

/-- What the process finds outside its configuration: where it runs, and whether a store can be
opened, the keys loaded and the rest of the service built. -/
structure Surroundings : Type where
  runtime : HostRuntime
  store : ProviderAdapter → Except Error Unit
  keys : Except Error Unit
  service : Except Error Unit

namespace Config

variable (c : Config) (s : Surroundings)

/-! ## Repositories -/

/-- SOURCE: server/src/bootstrap.rs:1195-1209 -/
def statsCacheTtl : Starting UInt64 := do
  let ttl := c.internalApi.statsCacheTtl.1
  assertThat (decide (minStatsCacheTtlSecs ≤ ttl.toNat))
  assertThat (decide (ttl.toNat ≤ maxStatsCacheTtlSecs))
  .ok ttl

/-- The bounds of the adapter, one millisecond and one hour, on whole seconds.
SOURCE: adapters/src/dynamo/mod.rs:409-420 -/
def withStatsCacheTtl (ttl : UInt64) : Starting Unit := do
  assertThat (decide (1 ≤ 1000 * ttl.toNat))
  assertThat (decide (ttl.toNat ≤ 3600))

/-- SOURCE: server/src/bootstrap.rs:1238-1300 -/
def buildUserRepository : Starting Unit :=
  match c.repository with
  | .dynamodb => do
    passOn (s.store .dynamodb)
    withStatsCacheTtl (← c.statsCacheTtl)
  | .postgres => passOn (s.store .postgres)
  | .sqlite => passOn (s.store .sqlite)
  | other => passOn (refuseConfig ("unknown repository adapter: " ++ other.asStr))

/-- SOURCE: server/src/bootstrap.rs:1301-1404 -/
def buildSessionRepository : Starting Unit :=
  match c.sessionRepository.adapter.getD c.repository with
  | .dynamodb => do
    passOn (s.store .dynamodb)
    withStatsCacheTtl (← c.statsCacheTtl)
  | .postgres => passOn (s.store .postgres)
  | .sqlite => passOn (s.store .sqlite)
  | .valkey => passOn (s.store .valkey)
  | .lmdb => passOn (s.store .lmdb)
  | other => passOn (refuseConfig ("unknown session_repository adapter: " ++ other.asStr))

/-- The stores, then everything else the service is made of.
SOURCE: server/src/bootstrap.rs:383-455 -/
def buildService : Starting Unit := do
  c.buildUserRepository s
  c.buildSessionRepository s
  passOn s.service

/-! ## Routers -/

/-- SOURCE: server/src/middleware/throttle.rs:92-115 -/
def newFixedWindowRateLimiter (window maxEntries : UInt64) : Except Error Unit :=
  if window = 0 then refuseConfig "rate limit window must be non-zero"
  else if maxEntries = 0 then refuseConfig "rate limit max_entries must be non-zero"
  else .ok ()

/-- SOURCE: server/src/bootstrap.rs:1464-1484 -/
def buildRateLimiter : Except Error Unit :=
  if !c.rateLimit.enabled || c.rateLimit.store = .none then .ok ()
  else newFixedWindowRateLimiter c.rateLimit.window.1 c.rateLimit.maxEntries.1

/-- The value of a step that must not fail. SOURCE: `Result::expect` -/
def expectOk {α : Type} : Except Error α → Starting α
  | .ok a => .ok a
  | .error _ => .error .panic

/-- SOURCE: server/src/bootstrap.rs:60 -/
def requestTimeoutMaxSecs : ℕ := 60 * 60

/-- SOURCE: server/src/bootstrap.rs:1168-1181 -/
def requestTimeoutDuration : Starting UInt64 := do
  let secs := c.server.requestTimeout
  assertThat (decide (0 < secs.toNat))
  assertThat (decide (secs.toNat ≤ requestTimeoutMaxSecs))
  .ok secs

/-- The most permits a semaphore can have. SOURCE: `Semaphore::MAX_PERMITS` -/
def semaphoreMaxPermits : ℕ := (2 ^ 64 - 1) / 8

/-- The authenticator of one mechanism.
SOURCE: server/src/bootstrap.rs:923-966 and server/src/middleware/operator_auth.rs:99-361 -/
def buildAuthenticator : InternalAuthMethod → Starting Unit
  | .sharedSecret =>
    match c.internalApi.sharedSecret with
    | some _ => .ok ()
    | none => passOn (refuseConfig
        "shared_secret mechanism enabled but no secret is configured")
  | .operatorToken => do
    passOn s.keys
    assertThat (nonBlank c.server.issuer.text)
    assertThat (nonBlank c.internalApi.tokenAudience)
    assertThat (nonBlank c.internalApi.requiredClaim)
  | .mtls => assertThat (nonBlank c.internalApi.mtlsSubjectHeader)
  | .oidc => passOn (refuseConfig "internal auth mechanism \"oidc\" cannot serve the operator gate")

/-- SOURCE: server/src/bootstrap.rs:906-979 and server/src/middleware/operator_auth.rs:434-441 -/
def buildOperatorAuthGate : Starting Unit := do
  assertThat c.internalApi.enabled
  c.internalApi.authMethods.forM (c.buildAuthenticator s)
  passOn (requireConfig (!c.internalApi.authMethods.isEmpty)
    "internal_api.auth_methods must be non-empty when the internal API is served")

/-- SOURCE: server/src/bootstrap.rs:700-820 -/
def buildRouterShared : Starting Unit := do
  expectOk c.buildRateLimiter
  assertThat (decide (c.rateLimit.maxConcurrentRequests.1.toNat ≤ semaphoreMaxPermits))
  let _ ← c.requestTimeoutDuration
  .ok ()

/-- SOURCE: server/src/bootstrap.rs:1022-1041 -/
def buildAdminRouter : Starting Unit := do
  let _ ← c.requestTimeoutDuration
  .ok ()

/-- Every router the role requires. SOURCE: server/src/bootstrap.rs:620-674 -/
def buildRouters : Starting Unit := do
  (if c.internalApiServed then c.buildOperatorAuthGate s else .ok ())
  match c.server.role with
  | .exchange => c.buildRouterShared
  | .admin => do
    expectOk c.buildRateLimiter
    c.buildAdminRouter
  | .all => do
    c.buildRouterShared
    expectOk c.buildRateLimiter
    c.buildAdminRouter

/-! ## The reaper -/

/-- SOURCE: server/src/reaper.rs:55 -/
def reaperIntervalMaxSecs : ℕ := 30 * 24 * 60 * 60

/-- SOURCE: server/src/reaper.rs:109-122 -/
def cleanupIntervalDuration : Starting UInt64 := do
  let secs := c.sessionRepository.cleanupInterval.1
  assertThat (decide (0 < secs.toNat))
  assertThat (decide (secs.toNat ≤ reaperIntervalMaxSecs))
  .ok secs

/-- SOURCE: server/src/reaper.rs:163-168 -/
def reaperLoop (interval : UInt64) : Starting Unit := assertThat (decide (interval ≠ 0))

/-- SOURCE: server/src/reaper.rs:214-235 -/
def spawnSessionReaper : Starting Unit :=
  if s.runtime.hostsReaper then do
    reaperLoop (← c.cleanupIntervalDuration)
  else .ok ()

end Config

end OidcExchange
