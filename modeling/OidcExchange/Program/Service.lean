import OidcExchange.Model.Ports

/-!
# What the service flows share

The result type of a service call, assertions, overflow of machine integers, the
two audit channels and the access token, as the core service composes them from
port operations.

Left out: the process-wide failure counters and the log lines.
-/

set_option autoImplicit false

namespace OidcExchange

open Storage Interleaving

/-- A service call that ends in a value, an error or a panic. -/
abbrev Service (ε α : Type) : Type := Program Ans (Fault ε) α

namespace Service

variable {ε α : Type}

/-- Fail with an error. -/
def fail (e : ε) : Service ε α := .raise (.error e)

/-- A failed assertion ends the call. -/
def assert (condition : Bool) : Service ε Unit :=
  if condition then .done () else .raise .panic

/-- The value of a partial computation that panics where it has none. -/
def expect : Option α → Service ε α
  | some a => .done a
  | none => .raise .panic

/-- Await a port and pass its failure on. -/
def await (p : Service Error (Answer α)) : Service Error α := p >>= Program.ofExcept

end Service

/-! ## The ports, as steps of a call -/

namespace Port

variable {ε : Type}

/-- SOURCE: `Utc::now()` -/
abbrev now : Service ε Instant := Program.ask Op.now

/-- SOURCE: `URL_SAFE_NO_PAD.encode(rand::random())` -/
abbrev randomToken : Service ε String := Program.ask Op.randomToken

/-- SOURCE: core/src/domain/session.rs:42-48 -/
abbrev newFamilyId : Service ε String := Program.ask Op.newFamilyId

abbrev resolveRefreshToken (tokenHash : String) : Service Error RefreshResolution :=
  Service.await (Program.ask (Op.resolveRefreshToken tokenHash))

abbrev rotateRefreshToken (liveHash : String) (replacement : Session) : Service Error Bool :=
  Service.await (Program.ask (Op.rotateRefreshToken liveHash replacement))

abbrev storeRefreshToken (session : Session) : Service Error Unit :=
  Service.await (Program.ask (Op.storeRefreshToken session))

abbrev revokeSession (tokenHash : String) : Service Error Unit :=
  Service.await (Program.ask (Op.revokeSession tokenHash))

abbrev revokeFamily (familyId : String) : Service Error ℕ :=
  Service.await (Program.ask (Op.revokeFamily familyId))

abbrev revokeAllUserSessions (userId : String) : Service Error ℕ :=
  Service.await (Program.ask (Op.revokeAllUserSessions userId))

abbrev getUserById (userId : String) : Service Error (Option User) :=
  Service.await (Program.ask (Op.getUserById userId))

abbrev getUserByExternalId (externalId provider : String) : Service Error (Option User) :=
  Service.await (Program.ask (Op.getUserByExternalId externalId provider))

/-- Creating a user, with its failure as a value. -/
abbrev createUser (user : NewUser) : Service ε (Answer User) := Program.ask (Op.createUser user)

abbrev writeUser (userId : String) (readVersion : ℕ) (user : User) : Service Error Bool :=
  Service.await (Program.ask (Op.writeUser userId readVersion user))

abbrev sign (algorithm type keyId : String) (claims : AccessTokenClaims) :
    Service Error String :=
  Service.await (Program.ask (Op.sign algorithm type keyId claims))

/-- Handing an event to the audit sink, with its failure as a value. -/
abbrev emit (event : AuditEvent) : Service ε (Answer Unit) := Program.ask (Op.emit event)

/-- A notification of user sync, with its failure as a value. -/
abbrev notify (notice : UserSyncNotice) : Service ε (Answer Unit) :=
  Program.ask (Op.notify notice)

/-- Consuming one unit of a rate-limit bucket, with its failure as a value. -/
abbrev checkAndConsume (key : RateLimitKey) : Service ε (Answer RateLimitDecision) :=
  Program.ask (Op.checkAndConsume key)

abbrev exchangeCode (provider code redirectUri : String) : Service Error ProviderTokens :=
  Service.await (Program.ask (Op.exchangeCode provider code redirectUri))

abbrev validateIdToken (provider idToken : String) : Service Error IdentityClaims :=
  Service.await (Program.ask (Op.validateIdToken provider idToken))

abbrev bindAssertion (claims : IdentityClaims) (ctx : AssertionContext) :
    Service Error (Option AssertionRejection) :=
  Service.await (Program.ask (Op.bindAssertion claims ctx))

end Port

open Service

/-! ## Arithmetic, audit and the access token -/

variable (d : Deployment)

/-- The sum of two 64-bit numbers: a build with overflow checks panics where the other
wraps. -/
def addU64 {ε : Type} (a b : UInt64) : Service ε UInt64 :=
  if d.overflowChecks = true ∧ 2 ^ 64 ≤ a.toNat + b.toNat then .raise .panic else .done (a + b)

/-- The successor of a 32-bit number: a build with overflow checks panics where the
other wraps. -/
def succU32 {ε : Type} (a : UInt32) : Service ε UInt32 :=
  if d.overflowChecks = true ∧ 2 ^ 32 ≤ a.toNat + 1 then .raise .panic else .done (a + 1)

/-- The threshold-filtered, best-effort audit channel. SOURCE: core/src/service/mod.rs:254-276 -/
def emitAudit (event : AuditEvent) : Service Error Unit :=
  if d.emitThreshold.level < event.severity.level then .done ()
  else do
    match ← Port.emit event with
    | .ok () => .done ()
    | .error .panic => .raise .panic
    | .error (.error error) =>
      if event.severity.level ≤ d.blockingThreshold.level then fail error else .done ()

/-- The mandatory audit channel, governed by the durability policy.
SOURCE: core/src/service/mod.rs:322-345 -/
def emitMandatoryAuditEvent (event : AuditEvent) : Service Error Unit := do
  match ← Port.emit event with
  | .ok () => .done ()
  | .error .panic => .raise .panic
  | .error (.error error) =>
    if d.durability.isEnforce then fail (.securityAuditDurability error.display) else .done ()

/-- SOURCE: core/src/service/mod.rs:303-318 -/
def emitSecurityEventWithDetail (event : SecurityEvent) (outcome : AuditOutcome)
    (actor provider : Option String) (clientAddr : ClientAddr) (userAgent : Option String)
    (detail : Table String Value) : Service Error Unit :=
  emitMandatoryAuditEvent d
    { event.intoAuditEvent outcome actor provider clientAddr userAgent with detail := detail }

/-- SOURCE: core/src/service/mod.rs:279-299 -/
def emitSecurityEvent (event : SecurityEvent) (outcome : AuditOutcome)
    (actor provider : Option String) (clientAddr : ClientAddr) (userAgent : Option String) :
    Service Error Unit :=
  emitSecurityEventWithDetail d event outcome actor provider clientAddr userAgent ∅

/-- SOURCE: core/src/service/mod.rs:538 -/
def accessTokenTyp : String := "at+jwt"

/-- Build and sign an access token naming the family it belongs to.
SOURCE: core/src/service/mod.rs:131-188 -/
def buildAccessToken (user : User) (familyId : String) : Service Error (AccessToken × UInt64) := do
  assert (familyId.isEmpty || isValidFamilyId familyId)
  assert (!user.id.isEmpty)
  let now ← Port.now
  let iat := UInt64.ofInt now.timestamp
  let exp ← addU64 d iat d.accessTokenTtl
  let claims : AccessTokenClaims :=
    { sub := user.id, iss := d.issuer, aud := d.audience, sid := familyId, iat := iat,
      exp := exp, custom := d.resolveCustomClaims user }
  let signature ← Port.sign d.algorithm accessTokenTyp d.keyId claims
  .done ({ alg := d.algorithm, typ := accessTokenTyp, kid := d.keyId, claims := claims,
           signature := signature }, d.accessTokenTtl)

end OidcExchange
