import OidcExchange.Program.Service

/-!
# Exchanging provider credentials for local tokens

The exchange flow: provider and rate limits, validated claims, assertion binding,
user lookup or registration, the new session, the access token; and the wrapper that
emits one terminal security event and takes the session back when a mandatory record
could not be written.

The controls that bind an assertion are one operation here; they touch neither users
nor sessions.
-/

set_option autoImplicit false

namespace OidcExchange

open Storage Interleaving Service

/-- SOURCE: core/src/service/exchange.rs:23-31 -/
inductive ExchangeCredential : Type
  | authorizationCode (code redirectUri : String)
  | idTokenAssertion (idToken : String)

/-- SOURCE: core/src/service/exchange.rs:33-59 -/
structure ExchangeRequest : Type where
  credential : ExchangeCredential
  provider : String
  providerAccessToken : Option String
  clientAddr : ClientAddr
  userAgent : Option String
  deviceId : Option String
  location : Option SessionLocation

/-- SOURCE: core/src/service/exchange.rs:619-623 -/
structure ExchangeSuccess : Type where
  response : TokenResponse
  userId : Option String
  refreshTokenHash : String

/-- SOURCE: core/src/service/exchange.rs:629-638 -/
inductive ExchangeFlowError : Type
  | binding (rejection : AssertionRejection)
  | attributed (error : Error) (actor : String)
  | other (error : Error)

/-- A service error inside the exchange flow. SOURCE: core/src/service/exchange.rs:640-644 -/
def Fault.intoFlow : Fault Error → Fault ExchangeFlowError
  | .error e => .error (.other e)
  | .panic => .panic

/-- A service call inside the exchange flow. -/
abbrev inFlow {α : Type} (p : Service Error α) : Service ExchangeFlowError α :=
  p.mapError Fault.intoFlow

variable (d : Deployment)

/-- SOURCE: core/src/domain/audit.rs:10-11 -/
def maxRateLimitProviderLen : ℕ := 128

/-- SOURCE: core/src/domain/audit.rs:339-342 -/
def RateLimitKey.ofProvider (provider : String) : Option RateLimitKey :=
  if provider.utf8ByteSize ≤ maxRateLimitProviderLen then some (.provider provider) else none

/-- SOURCE: core/src/domain/audit.rs:345-355 -/
def RateLimitKey.ofSubject (provider : Option String) (subject : String) :
    Option RateLimitKey :=
  match provider with
  | some p =>
    if maxRateLimitProviderLen < p.utf8ByteSize then none
    else some (.subject (some p) (d.digest subject))
  | none => some (.subject none (d.digest subject))

/-- Consume one unit of a bucket; a limiter that fails lets the call through.
SOURCE: core/src/service/exchange.rs:570-595 -/
def consumeLimit (key : Option RateLimitKey) : Service Error Unit :=
  match key with
  | none => fail (.invalidRequest "invalid provider identifier")
  | some key => do
    match ← Port.checkAndConsume key with
    | .ok .allow => .done ()
    | .ok (.deny retryAfterSecs) => fail (.tooManyRequests retryAfterSecs)
    | .error (.error _) => .done ()
    | .error .panic => .raise .panic

/-- The registration policy. SOURCE: core/src/service/exchange.rs:100-119 -/
def registrationPolicyReason (email : Option String) (emailVerified : Option Bool)
    (allowlist : Option (String → Bool)) : Option String :=
  match email with
  | none => some "verified email required for registration"
  | some email =>
    if emailVerified ≠ some true then some "verified email required for registration"
    else
      match allowlist with
      | none => none
      | some allows => if allows email then none else some "email domain not in allowlist"

/-- The validated claims, the compact token and the access token that binding consumes.
SOURCE: core/src/service/exchange.rs:369-411 -/
def authenticateCredential (request : ExchangeRequest) :
    Service Error (IdentityClaims × String × Option String) :=
  match request.credential with
  | .authorizationCode code redirectUri => do
    let tokens ← Port.exchangeCode request.provider code redirectUri
    assert (!tokens.idToken.isEmpty)
    let claims ← Port.validateIdToken request.provider tokens.idToken
    .done (claims, tokens.idToken, tokens.accessToken)
  | .idTokenAssertion idToken => do
    let claims ← Port.validateIdToken request.provider idToken
    .done (claims, idToken, request.providerAccessToken)

/-- Whether the credential is presented directly. SOURCE: core/src/service/exchange.rs:365-368 -/
def ExchangeCredential.isDirectGrant : ExchangeCredential → Bool
  | .authorizationCode _ _ => false
  | .idTokenAssertion _ => true

/-- Bind the assertion. SOURCE: core/src/service/exchange.rs:603-616 -/
def enforceAssertionBinding (claims : IdentityClaims) (ctx : AssertionContext) :
    Service ExchangeFlowError Unit := do
  match ← inFlow (Port.bindAssertion claims ctx) with
  | none => .done ()
  | some rejection => fail (.binding rejection)

/-- Steps 1 to 3: provider, limits, claims and binding.
SOURCE: core/src/service/exchange.rs:350-445 -/
def authenticate (request : ExchangeRequest) : Service ExchangeFlowError IdentityClaims :=
  match d.providers.lookup request.provider with
  | none => fail (.other (.unknownProvider request.provider))
  | some provider => do
    inFlow (consumeLimit (RateLimitKey.ofProvider request.provider))
    let (claims, compactJwt, bindingAccessToken) ← inFlow (authenticateCredential request)
    assert (!claims.subject.isEmpty)
    inFlow (consumeLimit (RateLimitKey.ofSubject d (some request.provider) claims.subject))
    enforceAssertionBinding claims
      { providerId := provider.providerId, clientId := provider.clientId,
        accessToken := bindingAccessToken, compactJwt := compactJwt,
        requireNonce := request.credential.isDirectGrant,
        maxAssertionSecs := d.maxAssertionLifetime }
    .done claims

/-- A user that was found must be active and pass the policy. The source writes this twice.
SOURCE: core/src/service/exchange.rs:453-473 and 525-546 -/
def admitExisting (claims : IdentityClaims) (user : User) : Service ExchangeFlowError User :=
  if user.status ≠ .active then fail (.other (.userSuspended user.id))
  else
    match registrationPolicyReason claims.email claims.emailVerified d.domainAllowlist with
    | some reason => fail (.attributed (.accessDenied reason) user.id)
    | none => .done user

/-- A user that was not found is created, unless a concurrent first login was faster.
SOURCE: core/src/service/exchange.rs:474-563 -/
def registerUser (request : ExchangeRequest) (claims : IdentityClaims) :
    Service ExchangeFlowError User :=
  match registrationPolicyReason claims.email claims.emailVerified d.domainAllowlist with
  | some reason => fail (.other (.accessDenied reason))
  | none =>
    match d.registrationMode with
    | .existingUsersOnly =>
      fail (.other (.accessDenied "registration is restricted to existing users only"))
    | .open => do
      let newUser : NewUser :=
        { externalId := claims.subject, provider := request.provider, email := claims.email,
          displayName := claims.name }
      match ← Port.createUser newUser with
      | .ok created => do
        inFlow (emitSecurityEvent d .principalCreated .success (some created.id)
          (some request.provider) request.clientAddr request.userAgent)
        match ← Port.notify (.created created) with
        | .error .panic => .raise .panic
        | _ => .done created
      | .error (.error (.conflict _)) => do
        match ← inFlow (Port.getUserByExternalId claims.subject request.provider) with
        | some user => admitExisting d claims user
        | none => fail (.other (.storeError ("create_user conflicted for provider=" ++
            request.provider ++ " external_id=" ++ claims.subject ++
            " but re-lookup found no user")))
      | .error (.error other) => fail (.other other)
      | .error .panic => .raise .panic

/-- Step 4: the user the credential belongs to. SOURCE: core/src/service/exchange.rs:447-563 -/
def resolveUser (request : ExchangeRequest) (claims : IdentityClaims) :
    Service ExchangeFlowError User := do
  match ← inFlow (Port.getUserByExternalId claims.subject request.provider) with
  | some user => admitExisting d claims user
  | none => registerUser d request claims

/-- The first generation of a new family. SOURCE: core/src/service/exchange.rs:510-530 -/
def firstGeneration (request : ExchangeRequest) (user : User) (tokenHash familyId : String)
    (expiresAt createdAt : Instant) : Session where
  userId := user.id
  refreshTokenHash := tokenHash
  familyId := familyId
  generation := 0
  provider := request.provider
  expiresAt := expiresAt
  rotatedAt := none
  deviceId := request.deviceId
  userAgent := request.userAgent
  ipAddress := request.clientAddr.auditAddress
  location := request.location.bind fun l => SessionLocation.new l.city l.region l.country
  createdAt := createdAt

/-- Step 7: the absolute deadline of a new family. SOURCE: core/src/service/exchange.rs:497-499 -/
def sessionExpiry : Service Error Instant := do
  let now ← Port.now
  let ttl ← expect (spanOfSecs d.refreshTokenTtl)
  expect (now.add ttl)

/-- Steps 5 to 8: mint the refresh token and store the session of a new family.
SOURCE: core/src/service/exchange.rs:486-532 -/
def storeNewSession (request : ExchangeRequest) (user : User) :
    Service Error (String × Session) := do
  let refreshToken ← Port.randomToken
  let tokenHash := d.digest refreshToken
  let expiresAt ← sessionExpiry d
  let familyId ← Port.newFamilyId
  assert (isValidFamilyId familyId)
  let createdAt ← Port.now
  let session := firstGeneration request user tokenHash familyId expiresAt createdAt
  Port.storeRefreshToken session
  .done (refreshToken, session)

/-- The access token always has text; only the expiry is checked here.
SOURCE: core/src/service/exchange.rs:534-563 -/
def respondToExchange (user : User) (refreshToken : String) (session : Session) :
    Service Error ExchangeSuccess := do
  let (accessToken, accessTtlSecs) ← buildAccessToken d user session.familyId
  assert (0 < accessTtlSecs.toNat)
  .done { response := { accessToken := accessToken, refreshToken := some refreshToken,
                        tokenType := "Bearer", expiresIn := accessTtlSecs },
          userId := some user.id, refreshTokenHash := session.refreshTokenHash }

/-- SOURCE: core/src/service/exchange.rs:345-563 -/
def exchangeInner (request : ExchangeRequest) : Service ExchangeFlowError ExchangeSuccess := do
  let claims ← authenticate d request
  let user ← resolveUser d request claims
  let (refreshToken, session) ← inFlow (storeNewSession d request user)
  inFlow (respondToExchange d user refreshToken session)

/-- The terminal event of a failed exchange. SOURCE: core/src/service/exchange.rs:647-680 -/
def exchangeTerminalEvent : Error → SecurityEvent × AuditOutcome × Option String
  | .accessDenied _ => (.registrationDenied, .failure .registrationDenied, none)
  | .userSuspended userId => (.principalSuspended, .failure .principalSuspended, some userId)
  | .providerError _ _ => (.providerRejected, .failure .providerRejected, none)
  | .providerTimeout _ => (.providerRejected, .failure .providerRejected, none)
  | .tooManyRequests _ => (.throttleExceeded, .failure .throttleExceeded, none)
  | _ => (.authenticationFailed, .failure .authenticationFailed, none)

/-- The record of a rejected binding. SOURCE: core/src/service/exchange.rs:138-165 -/
def bindingRejectedEvent (request : ExchangeRequest) (rejection : AssertionRejection) :
    AuditEvent :=
  { SecurityEvent.authenticationFailed.intoAuditEvent (.failure .authenticationFailed) none
      (some request.provider) request.clientAddr request.userAgent with
    detail := ((∅ : Table String Value).insert "check" (.string rejection.check)).insert
      "reason" (.string rejection.reason) }

/-- The record of a store fault. SOURCE: core/src/service/exchange.rs:172-190 -/
def storeFaultEvent (request : ExchangeRequest) (detail : String) : AuditEvent :=
  { createAuditEvent .storeError .error (.failure .storeError) none (some request.provider)
      request.clientAddr request.userAgent with
    detail := (∅ : Table String Value).insert "store_detail" (.string detail) }

/-- What the wrapper does with a flow that failed. SOURCE: core/src/service/exchange.rs:131-214 -/
def concludeFailure (request : ExchangeRequest) :
    ExchangeFlowError → Service Error TokenResponse
  | .binding rejection => do
    emitMandatoryAuditEvent d (bindingRejectedEvent request rejection)
    fail (.invalidGrant rejection.reason)
  | .other (.storeError detail) => do
    match ← Program.attempt (emitAudit d (storeFaultEvent request detail)) with
    | .error .panic => .raise .panic
    | _ => fail (.storeError detail)
  | .attributed error actor => do
    emitSecurityEvent d (exchangeTerminalEvent error).1 (exchangeTerminalEvent error).2.1
      (some actor) (some request.provider) request.clientAddr request.userAgent
    fail error
  | .other error => do
    emitSecurityEvent d (exchangeTerminalEvent error).1 (exchangeTerminalEvent error).2.1
      (exchangeTerminalEvent error).2.2 (some request.provider) request.clientAddr
      request.userAgent
    fail error

/-- What the wrapper does with a flow that succeeded: when the mandatory record fails and
is enforced, the session is taken back. SOURCE: core/src/service/exchange.rs:216-250 -/
def concludeSuccess (request : ExchangeRequest) (success : ExchangeSuccess) :
    Service Error TokenResponse := do
  match ← Program.attempt (emitSecurityEvent d (.authenticationSucceeded .exchange) .success
      success.userId (some request.provider) request.clientAddr request.userAgent) with
  | .ok () => .done success.response
  | .error .panic => .raise .panic
  | .error (.error error) =>
    if d.durability.isEnforce then do
      Port.revokeSession success.refreshTokenHash
      fail error
    else fail error

/-- SOURCE: core/src/service/exchange.rs:127-251 -/
def exchange (request : ExchangeRequest) : Service Error TokenResponse := do
  match ← Program.attempt (exchangeInner d request) with
  | .ok success => concludeSuccess d request success
  | .error .panic => .raise .panic
  | .error (.error failure) => concludeFailure d request failure

end OidcExchange
