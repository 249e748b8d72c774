import OidcExchange.Interleaving.Program
import OidcExchange.Model.Audit

/-!
# Ports

The operations the core performs on its ports, the store behind the repository
ports, and what one operation does to it. Every operation is atomic. What the
environment decides comes with the operation: that it succeeds, that it fails and
leaves the store as it was, which random text is drawn, what a provider or the
limiter answers.

The session store is the repository port as the LMDB adapter implements it with one
transaction for each call; its user and family indexes are left out, as are the
single-use records. The user store is a table with versioned conditional updates,
as the SQL adapters keep it. Random draws never repeat: no drawn text has the digest
of an earlier one, and no family identifier is drawn twice.
-/

set_option autoImplicit false

namespace OidcExchange

open Storage Interleaving

/-! ## Configuration -/

/-- SOURCE: core/src/service/refresh.rs:33 -/
def refreshHashHexLen : ℕ := 64

/-- SOURCE: core/src/config.rs:637 -/
def maxRefreshRotationGraceSecs : ℕ := 60

/-- SOURCE: core/src/config.rs:807-812 -/
inductive AuditDurability : Type
  | observe
  | enforce
  deriving DecidableEq

/-- SOURCE: core/src/config.rs:814-817 -/
def AuditDurability.isEnforce : AuditDurability → Bool
  | .observe => false
  | .enforce => true

/-- SOURCE: core/src/config.rs:1933-1936 -/
inductive RegistrationMode : Type
  | «open»
  | existingUsersOnly
  deriving DecidableEq

/-- What core reads of a configured provider. SOURCE: core/src/ports/identity_provider.rs -/
structure Provider : Type where
  providerId : String
  clientId : String

/-- The configuration the core reads, with what start-up validation guarantees of it.
`digest` is the hexadecimal SHA-256 digest, `domainAllowlist` the allow-list as a test
of an e-mail address, `resolveCustomClaims` the template resolver of the configured
claims; `overflowChecks` tells whether the build panics on integer overflow instead of
wrapping. -/
structure Deployment : Type where
  digest : String → String
  digest_length : ∀ raw, (digest raw).length = refreshHashHexLen
  overflowChecks : Bool
  issuer : String
  audience : String
  algorithm : String
  keyId : String
  accessTokenTtl : UInt64
  refreshTokenTtl : UInt64
  refreshRotation : Bool
  refreshRotationGrace : UInt64
  grace_bounded : 0 < refreshRotationGrace.toNat ∧
    refreshRotationGrace.toNat ≤ maxRefreshRotationGraceSecs
  refreshReuseRetention : UInt64
  maxAssertionLifetime : UInt64
  emitThreshold : AuditSeverity
  blockingThreshold : AuditSeverity
  durability : AuditDurability
  registrationMode : RegistrationMode
  domainAllowlist : Option (String → Bool)
  resolveCustomClaims : User → Table String Value
  providers : Table String Provider

/-! ## Operations -/

/-- Why a call ends without a result: an error, or a failed assertion. -/
inductive Fault (ε : Type) : Type
  | error (e : ε)
  | panic
  deriving DecidableEq

/-- An assertion. -/
def assertThat {ε : Type} (condition : Bool) : Except (Fault ε) Unit :=
  if condition then .ok () else .error .panic

/-- Both computations of a sequence that succeeds succeed. -/
theorem ok_of_bind {ε α β : Type} {x : Except ε α} {f : α → Except ε β} {b : β}
    (h : (x >>= f) = .ok b) : ∃ a, x = .ok a ∧ f a = .ok b := by
  cases x with
  | error e => exact absurd h (by simp [bind, Except.bind])
  | ok a => exact ⟨a, rfl, h⟩

/-- One bucket of the rate limiter; a subject is kept by its digest.
SOURCE: core/src/domain/audit.rs:314-330 -/
inductive RateLimitKey : Type
  | provider (id : String)
  | subject (provider : Option String) (subjectHash : String)

/-- SOURCE: core/src/domain/audit.rs:380-384 -/
inductive RateLimitDecision : Type
  | allow
  | deny (retryAfterSecs : ℕ)

/-- What binding an assertion reads besides its claims.
SOURCE: core/src/service/assertion.rs -/
structure AssertionContext : Type where
  providerId : String
  clientId : String
  accessToken : Option String
  compactJwt : String
  requireNonce : Bool
  maxAssertionSecs : UInt64

/-- A failed binding control. SOURCE: core/src/service/assertion.rs -/
structure AssertionRejection : Type where
  check : String
  reason : String

/-- A notification of user sync. SOURCE: core/src/ports/user_sync.rs -/
inductive UserSyncNotice : Type
  | created (user : User)
  | updated (user : User) (changedFields : List String)
  | deleted (userId : String)

/-- One atomic operation of the core on its environment.
SOURCE: core/src/ports/repository.rs, identity_provider.rs, key_manager.rs, audit.rs,
rate_limit.rs, user_sync.rs -/
inductive Op : Type
  | now
  | randomToken
  | newFamilyId
  | resolveRefreshToken (tokenHash : String)
  | rotateRefreshToken (liveHash : String) (replacement : Session)
  | storeRefreshToken (session : Session)
  | revokeSession (tokenHash : String)
  | revokeFamily (familyId : String)
  | revokeAllUserSessions (userId : String)
  | getUserById (userId : String)
  | getUserByExternalId (externalId provider : String)
  | createUser (user : NewUser)
  | writeUser (userId : String) (readVersion : ℕ) (user : User)
  | sign (algorithm type keyId : String) (claims : AccessTokenClaims)
  | emit (event : AuditEvent)
  | notify (notice : UserSyncNotice)
  | checkAndConsume (key : RateLimitKey)
  | exchangeCode (provider code redirectUri : String)
  | validateIdToken (provider idToken : String)
  | bindAssertion (claims : IdentityClaims) (ctx : AssertionContext)

/-- The answer of a port that can fail. -/
abbrev Answer (α : Type) : Type := Except (Fault Error) α

/-- The type of the answer to an operation. -/
abbrev Ans : Op → Type
  | .now => Instant
  | .randomToken => String
  | .newFamilyId => String
  | .resolveRefreshToken _ => Answer RefreshResolution
  | .rotateRefreshToken _ _ => Answer Bool
  | .storeRefreshToken _ => Answer Unit
  | .revokeSession _ => Answer Unit
  | .revokeFamily _ => Answer ℕ
  | .revokeAllUserSessions _ => Answer ℕ
  | .getUserById _ => Answer (Option User)
  | .getUserByExternalId _ _ => Answer (Option User)
  | .createUser _ => Answer User
  | .writeUser _ _ _ => Answer Bool
  | .sign _ _ _ _ => Answer String
  | .emit _ => Answer Unit
  | .notify _ => Answer Unit
  | .checkAndConsume _ => Answer RateLimitDecision
  | .exchangeCode _ _ _ => Answer ProviderTokens
  | .validateIdToken _ _ => Answer IdentityClaims
  | .bindAssertion _ _ => Answer (Option AssertionRejection)

/-- What the environment decides about one operation. -/
inductive Choice : Type
  | proceed
  | fail (e : Error)
  | draw (text : String)
  | decide (decision : RateLimitDecision)
  | grant (tokens : ProviderTokens)
  | identify (claims : IdentityClaims)
  | bind (rejection : Option AssertionRejection)

/-- What the world can do on its own: time passes, the sweep removes an expired row. -/
inductive Drift : Type
  | tick (nanos : ℕ)
  | sweepSession (tokenHash : String)
  | sweepRetired (tokenHash : String)

/-! ## The store -/

/-- The clock, the texts drawn so far and the tables of the store. -/
structure World : Type where
  clock : Instant
  tokens : List String
  familyIds : List String
  sessions : Table String Session
  retired : Table String RetiredRefreshToken
  users : Table String User

/-- The world before anything happened. -/
def World.empty (clock : Instant) : World where
  clock := clock
  tokens := []
  familyIds := []
  sessions := ∅
  retired := ∅
  users := ∅

/-- The error a panic inside a blocking task reaches the caller as; the number of the
task in its text is left out. -/
def taskPanicked : Fault Error := .error (.storeError "task panicked")

/-- The row an update statement leaves: the columns of `user` that a patch can change, and
the stored version advanced. SOURCE: adapters/src/sqlite/mod.rs:629-655 -/
def User.overwritten (stored user : User) : User :=
  { stored with
    email := user.email, displayName := user.displayName, metadata := user.metadata,
    claims := user.claims, status := user.status, updatedAt := user.updatedAt,
    version := stored.version + 1 }

namespace World

variable (w : World)

/-- SOURCE: adapters/src/lmdb/mod.rs:381-450 -/
def resolveRefreshToken (tokenHash : String) : Answer RefreshResolution :=
  if tokenHash.isEmpty then .error .panic else
  match w.sessions.lookup tokenHash with
  | some session => .ok (.live session)
  | none =>
    match w.retired.lookup tokenHash with
    | none => .ok .unknown
    | some record =>
      if record.expiresAt ≤ w.clock then .ok .unknown else
      match w.sessions.lookup record.successorHash with
      | some successor =>
        if successor.familyId = record.familyId then
          .ok (.superseded successor record.retiredAt)
        else
          .error taskPanicked
      | none => .ok (.retired record.familyId record.userId record.retiredAt)

/-- SOURCE: core/src/domain/session.rs:245-261 -/
def retentionDeadline (retiredAt : Instant) (reuseRetentionSecs : UInt64)
    (familyExpiresAt : Instant) : Option Instant :=
  if reuseRetentionSecs = 0 then none else
  match spanOfSecs reuseRetentionSecs with
  | none => none
  | some retention =>
    match retiredAt.add retention with
    | none => none
    | some byRetention =>
      some (if byRetention < familyExpiresAt then byRetention else familyExpiresAt)

/-- The record a winning rotation writes; `none` where an assertion fails or the deadline
cannot be represented. SOURCE: adapters/src/lmdb/mod.rs:146-175 -/
def retirementRecord (liveHash : String) (live replacement : Session)
    (reuseRetentionSecs : UInt64) (now : Instant) : Option RetiredRefreshToken :=
  if live.refreshTokenHash = liveHash ∧ isValidFamilyId live.familyId then
    match retentionDeadline now reuseRetentionSecs replacement.expiresAt with
    | none => none
    | some expiresAt => some
        { refreshTokenHash := liveHash, familyId := live.familyId, userId := live.userId,
          successorHash := replacement.refreshTokenHash, retiredAt := now,
          expiresAt := expiresAt }
  else
    none

/-- The compare-and-swap: the live row goes, its retirement record and the replacement
come, or nothing happens. A row without a family leaves no record.
SOURCE: adapters/src/lmdb/mod.rs:464-567 -/
def rotateRefreshToken (d : Deployment) (liveHash : String) (replacement : Session) :
    Answer Bool × World :=
  if isValidFamilyId replacement.familyId = false ∨ liveHash = replacement.refreshTokenHash then
    (.error .panic, w)
  else
  match w.sessions.lookup liveHash with
  | none => (.ok false, w)
  | some live =>
    if (live.familyId ≠ "" ∧ live.familyId ≠ replacement.familyId) ∨
        live.userId ≠ replacement.userId ∨
        (w.sessions.lookup replacement.refreshTokenHash).isSome ∨
        (w.retired.lookup replacement.refreshTokenHash).isSome then
      (.error taskPanicked, w)
    else
      let sessions := (w.sessions.erase liveHash).insert replacement.refreshTokenHash replacement
      if live.familyId = "" then
        (.ok true, { w with sessions := sessions })
      else
        match retirementRecord liveHash live replacement d.refreshReuseRetention w.clock with
        | none => (.error taskPanicked, w)
        | some record =>
          (.ok true, { w with sessions := sessions,
                              retired := w.retired.insert liveHash record })

/-- SOURCE: adapters/src/lmdb/mod.rs:283-340 -/
def storeRefreshToken (session : Session) : Answer Unit × World :=
  if (session.familyId ≠ "" ∧ isValidFamilyId session.familyId = false) ∨
      session.refreshTokenHash = "" then
    (.error .panic, w)
  else
    (.ok (), { w with sessions := w.sessions.insert session.refreshTokenHash session })

/-- SOURCE: adapters/src/lmdb/mod.rs:570-610 -/
def revokeSession (tokenHash : String) : Answer Unit × World :=
  if tokenHash = "" then (.error .panic, w)
  else (.ok (), { w with sessions := w.sessions.erase tokenHash })

/-- SOURCE: adapters/src/lmdb/mod.rs:618-640 -/
def revokeFamily (familyId : String) : Answer ℕ × World :=
  if isValidFamilyId familyId = false then (.error .panic, w)
  else
    (.ok (Table.countWhere w.sessions (fun _ s => s.familyId == familyId) +
        Table.countWhere w.retired (fun _ r => r.familyId == familyId)),
      { w with
        sessions := Table.deleteWhere w.sessions (fun _ s => s.familyId == familyId),
        retired := Table.deleteWhere w.retired (fun _ r => r.familyId == familyId) })

/-- SOURCE: core/src/ports/repository.rs:124-131 -/
def revokeAllUserSessions (userId : String) : Answer ℕ × World :=
  (.ok (Table.countWhere w.sessions fun _ s => s.userId == userId),
    { w with
      sessions := Table.deleteWhere w.sessions (fun _ s => s.userId == userId),
      retired := Table.deleteWhere w.retired (fun _ r => r.userId == userId) })

/-- A deleted user never satisfies the lookup. SOURCE: adapters/src/sqlite/mod.rs:500-525 -/
def getUserByExternalId (externalId provider : String) : Option User :=
  Table.findValue? w.users fun u =>
    u.externalId == externalId && u.provider == provider && u.status != .deleted

/-- The identity is unique among the users that are not deleted; `id` is the fresh
identifier the adapter generates. SOURCE: adapters/src/sqlite/mod.rs:527-588 -/
def createUser (id : String) (user : NewUser) : Option (Answer User × World) :=
  if id = "" ∨ (w.users.lookup id).isSome then none
  else if (w.getUserByExternalId user.externalId user.provider).isSome then
    some (.error (.error (.conflict ("user already exists for external_id=" ++ user.externalId
      ++ " provider=" ++ user.provider))), w)
  else
    let created : User :=
      { id := id, externalId := user.externalId, provider := user.provider,
        email := user.email, displayName := user.displayName, metadata := ∅, claims := ∅,
        status := .active, version := initialUserVersion, createdAt := w.clock,
        updatedAt := w.clock }
    some (.ok created, { w with users := w.users.insert id created })

/-- The versioned update: the row is written when it still has the version that was
read. SOURCE: adapters/src/sqlite/mod.rs:629-655 -/
def writeUser (userId : String) (readVersion : ℕ) (user : User) : Bool × World :=
  match w.users.lookup userId with
  | some stored =>
    if stored.version = readVersion then
      (true, { w with users := w.users.insert userId (stored.overwritten user) })
    else (false, w)
  | none => (false, w)

end World

/-! ## What one operation does -/

/-- An operation that can fail without effect. -/
def fallible {α : Type} (w : World) : Choice → Answer α × World → Option (Answer α × World)
  | .proceed, done => some done
  | .fail e, _ => some (.error (.error e), w)
  | _, _ => none

/-- The answer and the world after one operation, and `none` when the environment's
choice does not fit the operation. -/
def exec (d : Deployment) (x : Choice) (_c : ℕ) (o : Op) (w : World) : Option (Ans o × World) :=
  match o with
  | .now => some (w.clock, w)
  | .randomToken =>
    match x with
    | .draw raw =>
      if d.digest raw ∈ w.tokens.map d.digest then none
      else some (raw, { w with tokens := raw :: w.tokens })
    | _ => none
  | .newFamilyId =>
    match x with
    | .draw id =>
      if isValidFamilyId id = false ∨ id ∈ w.familyIds then none
      else some (id, { w with familyIds := id :: w.familyIds })
    | _ => none
  | .resolveRefreshToken h => fallible w x (w.resolveRefreshToken h, w)
  | .rotateRefreshToken h r => fallible w x (w.rotateRefreshToken d h r)
  | .storeRefreshToken s => fallible w x (w.storeRefreshToken s)
  | .revokeSession h => fallible w x (w.revokeSession h)
  | .revokeFamily f => fallible w x (w.revokeFamily f)
  | .revokeAllUserSessions u => fallible w x (w.revokeAllUserSessions u)
  | .getUserById u => fallible w x (.ok (w.users.lookup u), w)
  | .getUserByExternalId e p => fallible w x (.ok (w.getUserByExternalId e p), w)
  | .createUser user =>
    match x with
    | .draw id => w.createUser id user
    | .fail e => some (.error (.error e), w)
    | _ => none
  | .writeUser u v user =>
    fallible w x (.ok (w.writeUser u v user).1, (w.writeUser u v user).2)
  | .sign _ _ _ _ =>
    match x with
    | .draw signature => some (.ok signature, w)
    | .fail e => some (.error (.error e), w)
    | _ => none
  | .emit _ => fallible w x (.ok (), w)
  | .notify _ => fallible w x (.ok (), w)
  | .checkAndConsume _ =>
    match x with
    | .decide decision => some (.ok decision, w)
    | .fail e => some (.error (.error e), w)
    | _ => none
  | .exchangeCode _ _ _ =>
    match x with
    | .grant tokens => some (.ok tokens, w)
    | .fail e => some (.error (.error e), w)
    | _ => none
  | .validateIdToken _ _ =>
    match x with
    | .identify claims => some (.ok claims, w)
    | .fail e => some (.error (.error e), w)
    | _ => none
  | .bindAssertion _ _ =>
    match x with
    | .bind rejection => some (.ok rejection, w)
    | .fail e => some (.error (.error e), w)
    | _ => none

/-- Time passes, or the sweep removes a row whose deadline has been reached.
SOURCE: adapters/src/lmdb/mod.rs:725-800 -/
def drift : Drift → World → Option World
  | .tick nanos, w => some { w with clock := w.clock + nanos }
  | .sweepSession h, w =>
    match w.sessions.lookup h with
    | some s => if s.expiresAt ≤ w.clock then some { w with sessions := w.sessions.erase h }
                else none
    | none => none
  | .sweepRetired h, w =>
    match w.retired.lookup h with
    | some r => if r.expiresAt ≤ w.clock then some { w with retired := w.retired.erase h }
                else none
    | none => none

/-- The operations of a deployment as a semantics for pools of calls. -/
def portSemantics (d : Deployment) : Semantics Ans World Choice Drift where
  exec := exec d
  drift := drift

end OidcExchange
