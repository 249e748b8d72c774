import OidcExchange.Program.Service

/-!
# Redeeming a refresh token

The flow of `refresh` in its order: resolve, reuse check, expiry gate, user gate,
mint, compare-and-swap, sign, audit, respond; and the flow without rotation.
-/

set_option autoImplicit false

namespace OidcExchange

open Storage Interleaving Service

/-- SOURCE: core/src/service/refresh.rs:23 -/
def unknownRefreshTokenReason : String := "unknown refresh token"

/-- SOURCE: core/src/service/refresh.rs:28 -/
def expiredRefreshTokenReason : String := "refresh token expired"

/-- SOURCE: core/src/service/refresh.rs:31 -/
def missingUserReason : String := "user not found"

/-- SOURCE: core/src/service/refresh.rs:42-55 -/
structure RefreshRequest : Type where
  refreshToken : String
  clientAddr : ClientAddr
  userAgent : Option String
  deviceId : Option String

variable (d : Deployment)

/-- Whether a retirement record still grants grace.
SOURCE: core/src/service/refresh.rs:145-148 -/
def withinGrace (now retiredAt : Instant) (graceSecs : UInt64) : Bool :=
  match spanOfSecs graceSecs with
  | some window => now - retiredAt ≤ window
  | none => false

/-- One `ValidationFailed` audit at Debug, then the refusal with the given reason.
SOURCE: core/src/service/refresh.rs:154-178 -/
def refuseWithValidationFailed {α : Type} (reason : String) (actor : Option String)
    (request : RefreshRequest) : Service Error α := do
  assert (!reason.isEmpty)
  emitAudit d (createAuditEvent .validationFailed .debug (.failure .authenticationFailed) actor
    none request.clientAddr request.userAgent)
  fail (.invalidToken reason)

/-- The detail of a reuse alarm. SOURCE: core/src/service/refresh.rs:203-209 -/
def reuseDetail (familyId : String) (sessionsRevoked : ℕ) : Table String Value :=
  ((∅ : Table String Value).insert "family_id" (.string familyId)).insert "sessions_revoked"
    (.number sessionsRevoked 0)

/-- Whether a detail carries a value shaped like a token hash.
SOURCE: core/src/service/refresh.rs:210-215 -/
def carriesHashShape (detail : Table String Value) : Bool :=
  detail.entries.any fun e =>
    match e.2.asStr with
    | some s => s.length == refreshHashHexLen
    | none => false

/-- A family identifier is never as long as a digest. -/
theorem not_carriesHashShape {familyId : String} (hfamily : isValidFamilyId familyId = true)
    (n : ℕ) : carriesHashShape (reuseDetail familyId n) = false := by
  have hentries : (reuseDetail familyId n).entries =
      [⟨"sessions_revoked", .number n 0⟩, ⟨"family_id", .string familyId⟩] := rfl
  have hlength : familyId.length ≠ refreshHashHexLen := by
    rw [length_of_isValidFamilyId hfamily]
    decide
  simp [carriesHashShape, hentries, Value.asStr, hlength]

/-- The reuse branch: revoke the family, then raise the alarm, then refuse as for an
unknown token. SOURCE: core/src/service/refresh.rs:184-242 -/
def revokeFamilyForReuse {α : Type} (familyId userId : String) (request : RefreshRequest) :
    Service Error α := do
  assert (isValidFamilyId familyId)
  assert (!userId.isEmpty)
  let sessionsRevoked ← Port.revokeFamily familyId
  let detail := reuseDetail familyId sessionsRevoked
  assert (!carriesHashShape detail)
  emitSecurityEventWithDetail d .refreshTokenReuse .success (some userId) none
    request.clientAddr request.userAgent detail
  fail (.invalidToken unknownRefreshTokenReason)

/-- The family of a replacement: the live one, or a fresh one for a row without.
SOURCE: core/src/service/refresh.rs:265-270 -/
def replacementFamily (live : Session) : Service Error String :=
  if live.familyId.isEmpty then Port.newFamilyId else .done live.familyId

/-- The next generation of a family: the given hash, family, generation and issue time,
everything else as in the live generation. SOURCE: core/src/service/refresh.rs:276-289 -/
def replacementOf (live : Session) (tokenHash familyId : String) (generation : UInt32)
    (rotatedAt : Instant) : Session where
  userId := live.userId
  refreshTokenHash := tokenHash
  familyId := familyId
  generation := generation
  provider := live.provider
  expiresAt := live.expiresAt
  rotatedAt := some rotatedAt
  deviceId := live.deviceId
  userAgent := live.userAgent
  ipAddress := live.ipAddress
  location := live.location
  createdAt := live.createdAt

/-- Mint the next generation of the family. SOURCE: core/src/service/refresh.rs:250-304 -/
def mintReplacement (live : Session) : Service Error (String × Session) := do
  assert (!live.refreshTokenHash.isEmpty)
  let rawToken ← Port.randomToken
  let tokenHash := d.digest rawToken
  assert (tokenHash.length == refreshHashHexLen)
  assert (tokenHash != live.refreshTokenHash)
  let familyId ← replacementFamily live
  assert (isValidFamilyId familyId)
  let generation ← succU32 d live.generation
  let rotatedAt ← Port.now
  let replacement := replacementOf live tokenHash familyId generation rotatedAt
  assert (replacement.expiresAt == live.expiresAt)
  assert (replacement.createdAt == live.createdAt)
  .done (rawToken, replacement)

/-- The detail of a successful refresh. SOURCE: core/src/service/refresh.rs:510-514 -/
def refreshDetail (familyId : String) (generation : UInt32) (viaGrace : Bool) :
    Table String Value :=
  (((∅ : Table String Value).insert "family_id" (.string familyId)).insert "generation"
    (.number generation.toNat 0)).insert "grace" (.bool viaGrace)

/-- SOURCE: core/src/service/refresh.rs:495-535 -/
def auditSuccessfulRefresh (userId familyId : String) (generation : UInt32) (viaGrace : Bool)
    (request : RefreshRequest) : Service Error Unit := do
  assert (!userId.isEmpty)
  assert (familyId.isEmpty || isValidFamilyId familyId)
  emitSecurityEventWithDetail d (.authenticationSucceeded .refresh) .success (some userId) none
    request.clientAddr request.userAgent (refreshDetail familyId generation viaGrace)

/-- The suspended user is turned away on the mandatory channel.
SOURCE: core/src/service/refresh.rs:351-366 -/
def refuseSuspended {α : Type} (user : User) (request : RefreshRequest) : Service Error α := do
  emitSecurityEvent d .principalSuspended (.failure .principalSuspended) (some user.id) none
    request.clientAddr request.userAgent
  fail (.userSuspended user.id)

/-- What is left once the swap was decided: the loser is refused without an alarm, the
winner gets its tokens. SOURCE: core/src/service/refresh.rs:373-403 -/
def respondToRotation (user : User) (rawToken : String) (replacement : Session)
    (viaGrace won : Bool) (request : RefreshRequest) : Service Error TokenResponse :=
  if won then do
    let (accessToken, expiresIn) ← buildAccessToken d user replacement.familyId
    auditSuccessfulRefresh d user.id replacement.familyId replacement.generation viaGrace request
    .done { accessToken := accessToken, refreshToken := some rawToken, tokenType := "Bearer",
            expiresIn := expiresIn }
  else
    refuseWithValidationFailed d unknownRefreshTokenReason (some user.id) request

/-- Rotate from the live generation. SOURCE: core/src/service/refresh.rs:311-403 -/
def rotateAndRespond (live : Session) (viaGrace : Bool) (request : RefreshRequest) :
    Service Error TokenResponse := do
  assert (!live.refreshTokenHash.isEmpty)
  let now ← Port.now
  if live.expiresAt < now then
    refuseWithValidationFailed d expiredRefreshTokenReason (some live.userId) request
  else
    match ← Port.getUserById live.userId with
    | none => refuseWithValidationFailed d missingUserReason (some live.userId) request
    | some user =>
      if user.status ≠ .active then refuseSuspended d user request
      else do
        let (rawToken, replacement) ← mintReplacement d live
        let won ← Port.rotateRefreshToken live.refreshTokenHash replacement
        respondToRotation d user rawToken replacement viaGrace won request

/-- The flow with rotation switched off: nothing is minted or retired.
SOURCE: core/src/service/refresh.rs:410-488 -/
def refreshWithoutRotation (resolution : RefreshResolution) (request : RefreshRequest) :
    Service Error TokenResponse :=
  match resolution with
  | .live session => do
    assert (!session.refreshTokenHash.isEmpty)
    let now ← Port.now
    if session.expiresAt < now then
      refuseWithValidationFailed d expiredRefreshTokenReason (some session.userId) request
    else
      match ← Port.getUserById session.userId with
      | none => refuseWithValidationFailed d missingUserReason (some session.userId) request
      | some user =>
        if user.status ≠ .active then refuseSuspended d user request
        else do
          let (accessToken, expiresIn) ← buildAccessToken d user session.familyId
          auditSuccessfulRefresh d user.id session.familyId session.generation false request
          .done { accessToken := accessToken, refreshToken := none, tokenType := "Bearer",
                  expiresIn := expiresIn }
  | .superseded _ _ => refuseWithValidationFailed d unknownRefreshTokenReason none request
  | .retired _ _ _ => refuseWithValidationFailed d unknownRefreshTokenReason none request
  | .unknown => refuseWithValidationFailed d unknownRefreshTokenReason none request

/-- What the classification of the presented hash leads to, with rotation on.
SOURCE: core/src/service/refresh.rs:101-124 -/
def redeem (resolution : RefreshResolution) (request : RefreshRequest) :
    Service Error TokenResponse :=
  match resolution with
  | .unknown => refuseWithValidationFailed d unknownRefreshTokenReason none request
  | .live session => rotateAndRespond d session false request
  | .superseded live retiredAt => do
    assert (0 < d.refreshRotationGrace.toNat &&
      d.refreshRotationGrace.toNat ≤ maxRefreshRotationGraceSecs)
    let now ← Port.now
    if withinGrace now retiredAt d.refreshRotationGrace then
      rotateAndRespond d live true request
    else
      revokeFamilyForReuse d live.familyId live.userId request
  | .retired familyId userId _ => revokeFamilyForReuse d familyId userId request

/-- Redeem a refresh token. SOURCE: core/src/service/refresh.rs:78-125 -/
def refresh (request : RefreshRequest) : Service Error TokenResponse := do
  assert (!request.refreshToken.isEmpty)
  let tokenHash := d.digest request.refreshToken
  assert (tokenHash.length == refreshHashHexLen)
  let resolution ← Port.resolveRefreshToken tokenHash
  if d.refreshRotation then redeem d resolution request
  else refreshWithoutRotation d resolution request

end OidcExchange
