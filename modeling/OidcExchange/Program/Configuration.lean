import OidcExchange.Program.Claims
import OidcExchange.Program.DomainAllowlist
import Mathlib.Data.List.Nodup

/-!
# Resolving the configuration

Durations are texts of digits with a unit; every section narrows its own fields, and the
resolved whole is checked once more across sections. A duration that a resolver has bounded
carries its bounds.

Left out: warnings, and the sections that nothing modelled reads; of those only the outcome
of their own resolver stands here, in its place in the order.
-/

set_option autoImplicit false

namespace OidcExchange

open Storage

/-! ## Durations -/

/-- The digits of a number. -/
def parseDigits (digits : List Char) : Option UInt64 :=
  if digits.isEmpty || !digits.all Char.isDigit then none
  else
    let n := digits.foldl (fun n c => 10 * n + (c.toNat - '0'.toNat)) 0
    if n < 2 ^ 64 then some (UInt64.ofNat n) else none

/-- SOURCE: `u64::from_str` -/
def parseU64 : List Char → Option UInt64
  | '+' :: digits => parseDigits digits
  | digits => parseDigits digits

/-- SOURCE: `u64::checked_mul` -/
def checkedMul (a b : UInt64) : Option UInt64 :=
  if a.toNat * b.toNat < 2 ^ 64 then some (a * b) else none

/-- A configuration that is refused. -/
def refuseConfig {α : Type} (detail : String) : Except Error α := .error (.configError detail)

variable (tables : UnicodeTables)

/-- SOURCE: core/src/service/mod.rs:561-627 -/
def parseDurationSecs (s : String) : Except Error UInt64 :=
  let trimmed := trimChars s.toList
  let shown := tables.debug (String.ofList trimmed)
  match trimmed.getLast? with
  | none => refuseConfig "empty duration string"
  | some suffix =>
    match parseU64 trimmed.dropLast with
    | none => refuseConfig ("invalid duration number in " ++ shown ++ ": " ++
        String.ofList trimmed.dropLast)
    | some value =>
      let overflow : Option UInt64 → Except Error UInt64
        | some secs => .ok secs
        | none => refuseConfig ("duration value overflows seconds when parsing " ++ shown)
      match suffix with
      | 's' => .ok value
      | 'm' => overflow (checkedMul value 60)
      | 'h' => overflow (checkedMul value 3600)
      | 'd' => overflow (checkedMul value 86400)
      | _ => refuseConfig ("unknown duration suffix in " ++ shown ++ ": " ++ suffix.toString)

/-- The field an error of the parser is about. SOURCE: core/src/config.rs:2336-2342 -/
def Error.inField (field : String) : Error → Error
  | .configError detail => .configError (field ++ ": " ++ detail)
  | other => other

/-- SOURCE: core/src/config.rs:2335-2344 -/
def parseDurationField (field value : String) : Except Error UInt64 :=
  (parseDurationSecs tables value).mapError (Error.inField field)

/-- A number of seconds within bounds. -/
abbrev BoundedSecs (low high : ℕ) : Type :=
  { secs : UInt64 // low ≤ secs.toNat ∧ secs.toNat ≤ high }

/-- A number of seconds that is not zero. -/
abbrev PositiveSecs : Type := { secs : UInt64 // 0 < secs.toNat }

/-- SOURCE: core/src/config.rs:2302-2310 -/
def parsePositiveDurationField (field value : String) : Except Error PositiveSecs := do
  let secs ← parseDurationField tables field value
  if h : 0 < secs.toNat then .ok ⟨secs, h⟩
  else refuseConfig (field ++ ": " ++ tables.debug value ++ " must be greater than zero")

/-- SOURCE: core/src/config.rs:2317-2333 -/
def parsePositiveDurationFieldCapped (field value : String) (maxSecs : ℕ) :
    Except Error (BoundedSecs 1 maxSecs) := do
  let secs ← parsePositiveDurationField tables field value
  if h : secs.1.toNat ≤ maxSecs then .ok ⟨secs.1, secs.2, h⟩
  else refuseConfig (field ++ ": " ++ tables.debug value ++ " exceeds the maximum of " ++
    toString maxSecs ++ "s")

/-! ## Texts -/

/-- SOURCE: core/src/config.rs:2280-2289 -/
structure NonEmptyString : Type where
  text : String
  nonEmpty : (trimChars text.toList).isEmpty = false

def NonEmptyString.parseField (field value : String) : Except Error NonEmptyString :=
  if h : (trimChars value.toList).isEmpty = false then .ok ⟨value, h⟩
  else refuseConfig (field ++ ": must be non-empty")

/-- What the parser requires of a trimmed text. SOURCE: core/src/config.rs:2217-2219 -/
def isHttpsUrl (trimmed : List Char) : Bool :=
  "https://".toList.isPrefixOf trimmed && "https://".length < trimmed.length

/-- SOURCE: core/src/config.rs:2188-2228 -/
structure HttpsUrl : Type where
  text : String
  https : isHttpsUrl text.toList = true

def HttpsUrl.parseField (field value : String) : Except Error HttpsUrl :=
  if h : isHttpsUrl (trimChars value.toList) = true then
    .ok ⟨String.ofList (trimChars value.toList), by simpa using h⟩
  else refuseConfig (field ++ ": expected non-empty HTTPS URL, got " ++ tables.debug value)

/-- A closed domain: the values with their names. -/
def parseNamed {α : Type} (names : List (String × α)) (complaint field value : String) :
    Except Error α :=
  match names.lookup value with
  | some a => .ok a
  | none => refuseConfig (field ++ ": " ++ complaint ++ " " ++ tables.debug value)

/-- SOURCE: core/src/config.rs:1897-1930 -/
inductive ServerRole : Type
  | all
  | exchange
  | admin
  deriving DecidableEq

def ServerRole.parseField (field value : String) : Except Error ServerRole :=
  parseNamed tables [("all", .all), ("exchange", .exchange), ("admin", .admin)]
    "invalid server role" field value

/-- SOURCE: core/src/config.rs:2087-2114 -/
inductive InternalAuthMethod : Type
  | sharedSecret
  | oidc
  | operatorToken
  | mtls
  deriving DecidableEq

def InternalAuthMethod.names : List (String × InternalAuthMethod) :=
  [("shared_secret", .sharedSecret), ("oidc", .oidc), ("operator_token", .operatorToken),
    ("mtls", .mtls)]

def InternalAuthMethod.asStr : InternalAuthMethod → String
  | .sharedSecret => "shared_secret"
  | .oidc => "oidc"
  | .operatorToken => "operator_token"
  | .mtls => "mtls"

def InternalAuthMethod.parseField (field value : String) : Except Error InternalAuthMethod :=
  parseNamed tables InternalAuthMethod.names "invalid internal auth method" field value

/-- SOURCE: core/src/config.rs:2117-2159 -/
inductive ProviderAdapter : Type
  | oidc
  | local
  | kms
  | sqlite
  | dynamodb
  | postgres
  | valkey
  | lmdb
  | webhook
  deriving DecidableEq

def ProviderAdapter.asStr : ProviderAdapter → String
  | .oidc => "oidc"
  | .local => "local"
  | .kms => "kms"
  | .sqlite => "sqlite"
  | .dynamodb => "dynamodb"
  | .postgres => "postgres"
  | .valkey => "valkey"
  | .lmdb => "lmdb"
  | .webhook => "webhook"

def ProviderAdapter.all : List ProviderAdapter :=
  [.oidc, .local, .kms, .sqlite, .dynamodb, .postgres, .valkey, .lmdb, .webhook]

def ProviderAdapter.parseField (field value : String) : Except Error ProviderAdapter :=
  parseNamed tables (ProviderAdapter.all.map fun a => (a.asStr, a)) "invalid provider adapter"
    field value

/-! ## Sections -/

/-- SOURCE: core/src/config.rs:334-347 -/
structure RawServerConfig : Type where
  host : String
  port : UInt16
  issuer : String
  role : String
  requestTimeout : String
  maxRequestBodyBytes : UInt64
  basePath : Option String
  trustedProxies : List String
  trustedProxyHops : UInt64

/-- SOURCE: core/src/config.rs:371-392 -/
structure ServerConfig : Type where
  host : String
  port : UInt16
  issuer : HttpsUrl
  role : ServerRole
  requestTimeout : UInt64
  maxRequestBodyBytes : UInt64
  basePath : Option String
  trustedProxies : List String
  trustedProxyHops : UInt64

/-- SOURCE: core/src/config.rs:317-332 -/
def normaliseBasePath (basePath : Option String) : Option String :=
  basePath.bind fun basePath =>
    let trimmed :=
      if basePath.toList.getLast? = some '/' then String.ofList basePath.toList.dropLast
      else basePath
    if trimmed = "" ∨ trimmed = "/" then none else some trimmed

/-- SOURCE: core/src/config.rs:413-415 -/
def isCanonicalBasePath (basePath : String) : Bool :=
  decide (1 < basePath.utf8ByteSize) && basePath.toList.head? == some '/' &&
    basePath.toList.getLast? != some '/'

def resolveBasePath (basePath : Option String) : Except Error (Option String) :=
  match normaliseBasePath basePath with
  | none => .ok none
  | some basePath =>
    if isCanonicalBasePath basePath then .ok (some basePath)
    else refuseConfig ("server.base_path " ++ tables.debug basePath ++
      " must start with '/' and carry at least one non-slash character (\"\" and \"/\" mean " ++
      "unset, a trailing \"/\" is trimmed at load)")

/-- SOURCE: core/src/config.rs:366 -/
def maxTrustedProxyHops : ℕ := 16

/-- `isIpNet` tells what the CIDR parser accepts. SOURCE: core/src/config.rs:395-446 -/
def ServerConfig.resolve (isIpNet : String → Bool) (raw : RawServerConfig) :
    Except Error ServerConfig := do
  let issuer ← HttpsUrl.parseField tables "server.issuer" raw.issuer
  let role ← (if raw.role.isEmpty then .ok .exchange
    else ServerRole.parseField tables "server.role" raw.role)
  let requestTimeout ← parseDurationField tables "server.request_timeout" raw.requestTimeout
  let basePath ← resolveBasePath tables raw.basePath
  let trustedProxies ← raw.trustedProxies.mapM fun cidr =>
    if isIpNet cidr then .ok cidr
    else refuseConfig ("server.trusted_proxies entry " ++ tables.debug cidr ++ " must be a CIDR")
  if 1 ≤ raw.trustedProxyHops.toNat ∧ raw.trustedProxyHops.toNat ≤ maxTrustedProxyHops then
    .ok { host := raw.host, port := raw.port, issuer := issuer, role := role,
          requestTimeout := requestTimeout, maxRequestBodyBytes := raw.maxRequestBodyBytes,
          basePath := basePath, trustedProxies := trustedProxies,
          trustedProxyHops := raw.trustedProxyHops }
  else refuseConfig ("server.trusted_proxy_hops must be between 1 and " ++
    toString maxTrustedProxyHops)

/-- SOURCE: core/src/config.rs:596-617 -/
structure RawTokenConfig : Type where
  accessTokenTtl : String
  refreshTokenTtl : String
  audience : String
  customClaims : Option (Table String String)
  refreshRotation : Bool
  refreshRotationGrace : String
  refreshReuseRetention : String

/-- SOURCE: core/src/config.rs:651-665 -/
structure TokenConfig : Type where
  accessTokenTtl : UInt64
  refreshTokenTtl : UInt64
  audience : NonEmptyString
  customClaims : Option (Table String String)
  refreshRotation : Bool
  refreshRotationGrace : BoundedSecs 1 maxRefreshRotationGraceSecs
  refreshReuseRetention : PositiveSecs

/-- SOURCE: core/src/config.rs:676-701 -/
def TokenConfig.resolve (raw : RawTokenConfig) : Except Error TokenConfig := do
  let accessTokenTtl ← parseDurationField tables "token.access_token_ttl" raw.accessTokenTtl
  let refreshTokenTtl ← parseDurationField tables "token.refresh_token_ttl" raw.refreshTokenTtl
  let audience ← NonEmptyString.parseField "token.audience" raw.audience
  let refreshRotationGrace ← parsePositiveDurationFieldCapped tables
    "token.refresh_rotation_grace" raw.refreshRotationGrace maxRefreshRotationGraceSecs
  let refreshReuseRetention ← parsePositiveDurationField tables "token.refresh_reuse_retention"
    raw.refreshReuseRetention
  .ok { accessTokenTtl := accessTokenTtl, refreshTokenTtl := refreshTokenTtl,
        audience := audience, customClaims := raw.customClaims,
        refreshRotation := raw.refreshRotation, refreshRotationGrace := refreshRotationGrace,
        refreshReuseRetention := refreshReuseRetention }

/-- SOURCE: core/src/config.rs:722-727 -/
structure RawGrantsConfig : Type where
  idToken : Bool
  nonceTtl : String
  maxAssertionLifetime : String

/-- SOURCE: core/src/config.rs:745-758 -/
structure GrantsConfig : Type where
  idToken : Bool
  nonceTtl : UInt64
  maxAssertionLifetime : UInt64

/-- SOURCE: core/src/config.rs:760-771 -/
def GrantsConfig.resolve (raw : RawGrantsConfig) : Except Error GrantsConfig := do
  let nonceTtl ← parseDurationField tables "grants.nonce_ttl" raw.nonceTtl
  let maxAssertionLifetime ← parseDurationField tables "grants.max_assertion_lifetime"
    raw.maxAssertionLifetime
  .ok { idToken := raw.idToken, nonceTtl := nonceTtl,
        maxAssertionLifetime := maxAssertionLifetime }

/-- A section that selects an adapter; `backends` is the outcome of resolving the sections of
the adapters. SOURCE: core/src/config.rs:875-914 and 974-1012 -/
structure RawAdapterConfig : Type where
  adapter : String
  backends : Except Error Unit

/-- SOURCE: core/src/config.rs:904-914 and 1002-1012 -/
def resolveAdapter (field : String) (raw : RawAdapterConfig) : Except Error ProviderAdapter := do
  let adapter ← ProviderAdapter.parseField tables field raw.adapter
  raw.backends
  .ok adapter

/-- SOURCE: core/src/config.rs:1020-1030 -/
structure RawSessionRepositoryConfig : Type where
  adapter : Option String
  backends : Except Error Unit
  cleanupInterval : String

/-- SOURCE: core/src/config.rs:1043-1051 -/
structure SessionRepositoryConfig : Type where
  adapter : Option ProviderAdapter
  cleanupInterval : PositiveSecs

/-- SOURCE: core/src/config.rs:1196-1211 -/
def SessionRepositoryConfig.resolve (raw : RawSessionRepositoryConfig) :
    Except Error SessionRepositoryConfig := do
  let adapter ← raw.adapter.mapM (ProviderAdapter.parseField tables "session_repository.adapter")
  raw.backends
  let cleanupInterval ← parsePositiveDurationField tables "session_repository.cleanup_interval"
    raw.cleanupInterval
  .ok { adapter := adapter, cleanupInterval := cleanupInterval }

/-- SOURCE: core/src/config.rs:1103-1119 -/
inductive RateLimitStore : Type
  | inProcess
  | none
  deriving DecidableEq

/-- SOURCE: core/src/config.rs:1071-1083 -/
structure RawRateLimitConfig : Type where
  enabled : Bool
  store : String
  window : String
  perIp : UInt64
  perIpFailures : UInt64
  perSubject : UInt64
  perProvider : UInt64
  maxConcurrentRequests : UInt64
  maxEntries : UInt64

/-- SOURCE: core/src/config.rs:1059-1067 -/
def maxRateLimitWindowSecs : ℕ := 24 * 60 * 60

def maxRateLimitMaxEntries : ℕ := 100000

def maxRateLimitMaxConcurrentRequests : ℕ := 4096

def maxRateLimitBudget : ℕ := 1000000

/-- SOURCE: core/src/config.rs:1121-1133 -/
structure RateLimitConfig : Type where
  enabled : Bool
  store : RateLimitStore
  window : BoundedSecs 1 maxRateLimitWindowSecs
  perIp : UInt64
  perIpFailures : UInt64
  perSubject : UInt64
  perProvider : UInt64
  maxConcurrentRequests : { n : UInt64 // 1 ≤ n.toNat ∧ n.toNat ≤ maxRateLimitMaxConcurrentRequests }
  maxEntries : { n : UInt64 // 1 ≤ n.toNat ∧ n.toNat ≤ maxRateLimitMaxEntries }

def RateLimitStore.parseField (field value : String) : Except Error RateLimitStore :=
  if value = "in_process" then .ok .inProcess
  else if value = "none" then .ok .none
  else refuseConfig (field ++ " " ++ tables.debug value ++ " must be \"in_process\" or \"none\"")

/-- A number within inclusive bounds. -/
def inBounds (low high : ℕ) (complaint : String) (n : UInt64) :
    Except Error { n : UInt64 // low ≤ n.toNat ∧ n.toNat ≤ high } :=
  if h : low ≤ n.toNat ∧ n.toNat ≤ high then .ok ⟨n, h⟩
  else refuseConfig complaint

/-- SOURCE: core/src/config.rs:1135-1193 -/
def RateLimitConfig.resolve (raw : RawRateLimitConfig) : Except Error RateLimitConfig := do
  let store ← RateLimitStore.parseField tables "rate_limit.store" raw.store
  if raw.enabled ∧ store = .none then
    refuseConfig "rate_limit.store must be \"in_process\" when rate_limit.enabled is true"
  else do
    let windowSecs ← parseDurationField tables "rate_limit.window" raw.window
    let window ← inBounds 1 maxRateLimitWindowSecs ("rate_limit.window must be between 1s and " ++
      toString maxRateLimitWindowSecs ++ "s") windowSecs
    let maxEntries ← inBounds 1 maxRateLimitMaxEntries
      ("rate_limit.max_entries must be between 1 and " ++ toString maxRateLimitMaxEntries)
      raw.maxEntries
    let maxConcurrentRequests ← inBounds 1 maxRateLimitMaxConcurrentRequests
      ("rate_limit.max_concurrent_requests must be between 1 and " ++
        toString maxRateLimitMaxConcurrentRequests) raw.maxConcurrentRequests
    let budget (field : String) (n : UInt64) : Except Error Unit :=
      if maxRateLimitBudget < n.toNat then
        refuseConfig (field ++ " must be between 0 (disabled) and " ++ toString maxRateLimitBudget)
      else .ok ()
    budget "rate_limit.per_ip" raw.perIp
    budget "rate_limit.per_ip_failures" raw.perIpFailures
    budget "rate_limit.per_subject" raw.perSubject
    budget "rate_limit.per_provider" raw.perProvider
    .ok { enabled := raw.enabled, store := store, window := window, perIp := raw.perIp,
          perIpFailures := raw.perIpFailures, perSubject := raw.perSubject,
          perProvider := raw.perProvider, maxConcurrentRequests := maxConcurrentRequests,
          maxEntries := maxEntries }

/-- `mtls` is the subject header of its own section. SOURCE: core/src/config.rs:1603-1638 -/
structure RawInternalApiConfig : Type where
  enabled : Bool
  host : String
  port : UInt16
  authMethods : List String
  sharedSecret : Option String
  tokenAudience : String
  requiredClaim : String
  requiredValue : String
  mtls : Option String
  maxAuthFailures : UInt64
  authFailureWindow : String
  authLockout : String
  statsCacheTtl : String

/-- SOURCE: core/src/config.rs:1546-1547 -/
def minStatsCacheTtlSecs : ℕ := 1

def maxStatsCacheTtlSecs : ℕ := 3600

/-- SOURCE: core/src/config.rs:1660-1701 -/
structure InternalApiConfig : Type where
  enabled : Bool
  host : String
  port : UInt16
  authMethods : List InternalAuthMethod
  sharedSecret : Option NonEmptyString
  tokenAudience : String
  requiredClaim : String
  requiredValue : String
  mtls : Option String
  maxAuthFailures : UInt64
  authFailureWindow : PositiveSecs
  authLockout : PositiveSecs
  statsCacheTtl : BoundedSecs minStatsCacheTtlSecs maxStatsCacheTtlSecs

/-- One more mechanism of the list. SOURCE: core/src/config.rs:1729-1740 -/
def addAuthMethod (methods : List InternalAuthMethod) (value : String) :
    Except Error (List InternalAuthMethod) := do
  let parsed ← InternalAuthMethod.parseField tables "internal_api.auth_methods" value
  if methods.contains parsed then
    refuseConfig ("internal_api.auth_methods lists " ++ tables.debug parsed.asStr ++
      " more than once")
  else .ok (methods ++ [parsed])

/-- SOURCE: core/src/config.rs:1742-1760 -/
def resolveStatsCacheTtl (value : String) :
    Except Error (BoundedSecs minStatsCacheTtlSecs maxStatsCacheTtlSecs) := do
  let secs ← parsePositiveDurationField tables "internal_api.stats_cache_ttl" value
  let got := "s (got " ++ toString secs.1.toNat ++ "s)"
  if hmin : minStatsCacheTtlSecs ≤ secs.1.toNat then
    if hmax : secs.1.toNat ≤ maxStatsCacheTtlSecs then .ok ⟨secs.1, hmin, hmax⟩
    else refuseConfig ("internal_api.stats_cache_ttl exceeds the maximum of                      "
      ++ toString maxStatsCacheTtlSecs ++ got)
  else refuseConfig ("internal_api.stats_cache_ttl must be at least                      "
    ++ toString minStatsCacheTtlSecs ++ got)

/-- SOURCE: core/src/config.rs:1726-1789 -/
def InternalApiConfig.resolve (raw : RawInternalApiConfig) : Except Error InternalApiConfig := do
  let authMethods ← raw.authMethods.foldlM (addAuthMethod tables) []
  let statsCacheTtl ← resolveStatsCacheTtl tables raw.statsCacheTtl
  let sharedSecret ← raw.sharedSecret.mapM (NonEmptyString.parseField "internal_api.shared_secret")
  let authFailureWindow ← parsePositiveDurationField tables "internal_api.auth_failure_window"
    raw.authFailureWindow
  let authLockout ← parsePositiveDurationField tables "internal_api.auth_lockout" raw.authLockout
  .ok { enabled := raw.enabled, host := raw.host, port := raw.port, authMethods := authMethods,
        sharedSecret := sharedSecret, tokenAudience := raw.tokenAudience,
        requiredClaim := raw.requiredClaim, requiredValue := raw.requiredValue,
        mtls := raw.mtls, maxAuthFailures := raw.maxAuthFailures,
        authFailureWindow := authFailureWindow, authLockout := authLockout,
        statsCacheTtl := statsCacheTtl }

/-- SOURCE: core/src/config.rs:1822-1828 -/
def InternalApiConfig.mtlsSubjectHeader (c : InternalApiConfig) : String :=
  c.mtls.getD "x-client-cert-subject"

/-! ## The whole -/

/-- SOURCE: core/src/config.rs:11-30 -/
structure RawConfig : Type where
  server : RawServerConfig
  registration : Except Error Unit
  session : Except Error Unit
  token : RawTokenConfig
  grants : RawGrantsConfig
  audit : Except Error Unit
  keyManager : RawAdapterConfig
  repository : RawAdapterConfig
  sessionRepository : RawSessionRepositoryConfig
  rateLimit : RawRateLimitConfig
  userSync : Except Error Unit
  telemetry : Except Error Unit
  internalApi : RawInternalApiConfig
  providers : Except Error Unit

/-- SOURCE: core/src/config.rs:31-47 -/
structure Config : Type where
  server : ServerConfig
  token : TokenConfig
  grants : GrantsConfig
  keyManager : ProviderAdapter
  repository : ProviderAdapter
  sessionRepository : SessionRepositoryConfig
  rateLimit : RateLimitConfig
  internalApi : InternalApiConfig

/-- The reserved name that a configured claim has, the least one if there are several. -/
def reservedCustomClaim (claims : Option (Table String String)) : Option String :=
  claims.bind fun claims =>
    (claims.keys.mergeSort fun a b => decide (a ≤ b)).find? isReservedClaim

/-- Whether the configured role and flag serve the internal API.
SOURCE: core/src/config.rs:131-132 -/
def Config.internalApiServed (c : Config) : Bool :=
  (c.server.role == .admin || c.server.role == .all) && c.internalApi.enabled

/-- SOURCE: core/src/config.rs:1477 -/
def wildcardListenerHosts : List String := ["0.0.0.0", "::", "[::]"]

/-- SOURCE: core/src/config.rs:1484-1497 -/
def listenersCollide (publicHost : String) (publicPort : UInt16) (adminHost : String)
    (adminPort : UInt16) : Bool :=
  publicPort == adminPort && (publicHost == adminHost ||
    wildcardListenerHosts.contains publicHost || wildcardListenerHosts.contains adminHost)

/-- SOURCE: core/src/config.rs:1516 -/
def minSharedSecretBytes : ℕ := 32

/-- A check that a configuration must pass. -/
def requireConfig (condition : Bool) (complaint : String) : Except Error Unit :=
  if condition then .ok () else refuseConfig complaint

/-- Whether a text has something besides white space. -/
def nonBlank (text : String) : Bool := !(trimChars text.toList).isEmpty

/-- What operator tokens need. SOURCE: core/src/config.rs:222-276 -/
def Config.validateOperatorToken (c : Config) : Except Error Unit := do
  requireConfig (c.keyManager == .local || c.keyManager == .kms)
    ("key_manager.adapter (" ++ tables.debug c.keyManager.asStr ++ ") cannot serve the " ++
      "operator_token mechanism: token verification requires a real key manager")
  requireConfig (nonBlank c.internalApi.tokenAudience)
    ("internal_api.token_audience must be non-empty while the operator_token mechanism is " ++
      "enabled")
  requireConfig (nonBlank c.internalApi.requiredClaim)
    ("internal_api.required_claim must be non-empty while the operator_token mechanism is " ++
      "enabled")
  requireConfig (nonBlank c.internalApi.requiredValue)
    ("internal_api.required_value must be non-empty while the operator_token mechanism is " ++
      "enabled")
  requireConfig (c.token.audience.text != c.internalApi.tokenAudience)
    ("internal_api.token_audience (" ++ tables.debug c.internalApi.tokenAudience ++
      ") must differ from token.audience: a shared audience lets any user access token minted " ++
      "by this service's key manager be replayed as an operator credential")

/-- SOURCE: core/src/config.rs:193-297 -/
def Config.validateInternalApi (c : Config) : Except Error Unit := do
  let methods := c.internalApi.authMethods
  requireConfig (!methods.isEmpty)
    "internal_api.auth_methods must be non-empty when the internal API is served"
  let secretLen := (c.internalApi.sharedSecret.map fun s => s.text.utf8ByteSize).getD 0
  requireConfig (!methods.contains .sharedSecret || decide (minSharedSecretBytes ≤ secretLen))
    ("internal_api.shared_secret must be at least " ++ toString minSharedSecretBytes ++
      " bytes while the shared_secret mechanism is enabled (got " ++ toString secretLen ++
      " bytes)")
  (if methods.contains .operatorToken then c.validateOperatorToken tables else .ok ())
  requireConfig (!methods.contains .mtls || nonBlank c.internalApi.mtlsSubjectHeader)
    "internal_api.mtls.subject_header must be non-empty while the mtls mechanism is enabled"
  requireConfig (c.internalApi.maxAuthFailures != 0)
    "internal_api.max_auth_failures must be non-zero"

/-- SOURCE: core/src/config.rs:106-124 -/
def Config.validateCustomClaims (c : Config) : Except Error Unit :=
  match reservedCustomClaim c.token.customClaims with
  | some key => refuseConfig ("token.custom_claims key " ++ tables.debug key ++
      " is a reserved protocol claim name and cannot be used as a custom claim")
  | none => .ok ()

/-- SOURCE: core/src/config.rs:101-188 -/
def Config.validate (c : Config) : Except Error Unit := do
  c.validateCustomClaims tables
  (if c.internalApiServed then c.validateInternalApi tables else .ok ())
  requireConfig (!(c.server.role == .all && c.internalApi.enabled &&
      listenersCollide c.server.host c.server.port c.internalApi.host c.internalApi.port))
    ("internal_api listener " ++ c.internalApi.host ++ ":" ++
      toString c.internalApi.port.toNat ++ " collides with the public listener " ++
      c.server.host ++ ":" ++ toString c.server.port.toNat ++
      "; role = \"all\" binds two distinct sockets and they must not share one")

/-- SOURCE: core/src/config.rs:58-99 -/
def Config.resolve (isIpNet : String → Bool) (raw : RawConfig) : Except Error Config := do
  let server ← ServerConfig.resolve tables isIpNet raw.server
  raw.registration
  raw.session
  let token ← TokenConfig.resolve tables raw.token
  let grants ← GrantsConfig.resolve tables raw.grants
  raw.audit
  let keyManager ← resolveAdapter tables "key_manager.adapter" raw.keyManager
  let repository ← resolveAdapter tables "repository.adapter" raw.repository
  let sessionRepository ← SessionRepositoryConfig.resolve tables raw.sessionRepository
  let rateLimit ← RateLimitConfig.resolve tables raw.rateLimit
  raw.userSync
  raw.telemetry
  let internalApi ← InternalApiConfig.resolve tables raw.internalApi
  raw.providers
  let config : Config :=
    { server := server, token := token, grants := grants, keyManager := keyManager,
      repository := repository, sessionRepository := sessionRepository, rateLimit := rateLimit,
      internalApi := internalApi }
  config.validate tables
  .ok config

/-! ## Layers of configuration

A deployment overrides the committed defaults: tables are merged key by key, and any other value
replaces what was there. Values are trees, and a table has one entry for a key.
-/

section

/-- SOURCE: `toml::Value` -/
inductive TomlTree : Type
  | string (text : String)
  | integer (n : Int64)
  | float (bits : UInt64)
  | boolean (b : Bool)
  | datetime (text : String)
  | array (items : List TomlTree)
  | table (entries : List (String × TomlTree))

namespace TomlTree

def isTable : TomlTree → Bool
  | .table _ => true
  | _ => false

/-- The tables of a tree have one entry for a key. -/
inductive Keyed : TomlTree → Prop
  | value (tree : TomlTree) (h : tree.isTable = false) : Keyed tree
  | table (entries : List (String × TomlTree)) (hkeys : (entries.map Prod.fst).Nodup)
      (hvalues : ∀ key value, (key, value) ∈ entries → Keyed value) : Keyed (.table entries)

/-- A value is written over the one at its key. -/
def replaceValue (entries : List (String × TomlTree)) (key : String) (value : TomlTree) :
    List (String × TomlTree) :=
  entries.map fun entry => if entry.1 = key then (key, value) else entry

mutual

/-- SOURCE: server/src/bootstrap.rs:83-97 -/
def merge (base : TomlTree) : TomlTree → TomlTree
  | .table overrideTable =>
    match base with
    | .table entries => .table (mergeTable entries overrideTable)
    | _ => .table overrideTable
  | .string text => .string text
  | .integer n => .integer n
  | .float bits => .float bits
  | .boolean b => .boolean b
  | .datetime text => .datetime text
  | .array items => .array items

/-- The entries of an override, one after another. SOURCE: server/src/bootstrap.rs:86-93 -/
def mergeTable (base : List (String × TomlTree)) :
    List (String × TomlTree) → List (String × TomlTree)
  | [] => base
  | entry :: rest => mergeTable (mergeEntry base entry) rest

def mergeEntry (base : List (String × TomlTree)) : String × TomlTree → List (String × TomlTree)
  | (key, value) =>
    match base.lookup key with
    | some existing => replaceValue base key (merge existing value)
    | none => base ++ [(key, value)]

end

/-- What stands at a path of keys. -/
def get : TomlTree → List String → Option TomlTree
  | tree, [] => some tree
  | .table entries, key :: path => (entries.lookup key).bind fun value => value.get path
  | _, _ :: _ => none

end TomlTree

/-- SOURCE: server/src/bootstrap.rs:82-101 -/
def mergeRawDefaults (defaults overrideValue : TomlTree) : TomlTree :=
  TomlTree.merge defaults overrideValue

/-- What a document holds: a table at its root. -/
structure ConfigTree : Type where
  entries : List (String × TomlTree)
  keyed : (TomlTree.table entries).Keyed

def ConfigTree.tree (config : ConfigTree) : TomlTree := .table config.entries

/-- A document without entries. -/
def ConfigTree.empty : ConfigTree := ⟨[], .table [] List.nodup_nil nofun⟩

end

end OidcExchange
