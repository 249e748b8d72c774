import Mathlib.Data.List.DropRight
import OidcExchange.Storage.Table

/-!
# Domain types

Users, sessions, retired refresh tokens and the classification of a presented
token, with the field names of the source. An instant is a count of nanoseconds
since the epoch. A session's generation is a 32-bit counter, as in the source, and
family identifiers are texts that a decidable predicate accepts or refuses.

Left out: the serialised forms of these records, and the fields of the provider
configuration that no modelled function reads.
-/

set_option autoImplicit false

namespace OidcExchange

open Storage

/-! ## Time -/

/-- Nanoseconds since the epoch. -/
abbrev Instant : Type := ℤ

/-- A signed span of nanoseconds. -/
abbrev Span : Type := ℤ

/-- Nanoseconds in a second. -/
def nanosPerSec : ℤ := 1000000000

/-- The largest number of seconds a span can be built from. -/
def maxSpanSecs : ℤ := 9223372036854775

/-- The first representable instant, in seconds. -/
def minInstantSecs : ℤ := -8334601228800

/-- The first second after the last representable instant. -/
def endInstantSecs : ℤ := 8210266876800

/-- The span of a configured number of seconds, cast to a signed 64-bit number first;
`none` where building it panics. SOURCE: `Duration::seconds(secs as i64)`. -/
def spanOfSecs (secs : UInt64) : Option Span :=
  let signed := secs.toInt64.toInt
  if -maxSpanSecs ≤ signed ∧ signed ≤ maxSpanSecs then some (signed * nanosPerSec) else none

/-- An instant moved by a span; `none` where the sum leaves the representable range and
the addition panics. -/
def Instant.add (t : Instant) (d : Span) : Option Instant :=
  if minInstantSecs * nanosPerSec ≤ t + d ∧ t + d < endInstantSecs * nanosPerSec then
    some (t + d)
  else
    none

/-- Whole seconds since the epoch, rounded down. -/
def Instant.timestamp (t : Instant) : ℤ := t / nanosPerSec

/-- The instant a number of seconds after the epoch; `none` where it cannot be represented.
SOURCE: `DateTime::from_timestamp` -/
def Instant.ofTimestamp (secs : ℤ) : Option Instant :=
  if minInstantSecs ≤ secs ∧ secs < endInstantSecs then some (secs * nanosPerSec) else none

/-! ## Dynamic values -/

/-- A JSON value; the number `m` with `e` decimal places is `m / 10 ^ e`. -/
inductive Value : Type
  | null
  | bool (b : Bool)
  | number (m : ℤ) (e : ℕ)
  | string (s : String)
  | array (items : List Value)
  | object (fields : List (String × Value))

/-- The text of a string value. SOURCE: `Value::as_str`. -/
def Value.asStr : Value → Option String
  | .string s => some s
  | _ => none

/-- A member of an object. -/
def Value.field (value : Value) (name : String) : Option Value :=
  match value with
  | .object fields => fields.lookup name
  | _ => none

/-! ## Users -/

/-- Lifecycle of a user. SOURCE: core/src/domain/user.rs:79-86 -/
inductive UserStatus : Type
  | active
  | suspended
  | deleted
  deriving DecidableEq, Repr

/-- Whether a status patch is a valid lifecycle transition. SOURCE:
core/src/domain/user.rs:99-111 -/
def UserStatus.canTransitionTo : UserStatus → UserStatus → Bool
  | .deleted, _ => false
  | .active, .deleted => true
  | .suspended, .deleted => true
  | .active, .active => true
  | .active, .suspended => true
  | .suspended, .active => true
  | .suspended, .suspended => true

/-- The name the source's debug formatter prints. -/
def UserStatus.debugName : UserStatus → String
  | .active => "Active"
  | .suspended => "Suspended"
  | .deleted => "Deleted"

/-- A status change is legal exactly from a status that is not `Deleted`. -/
@[simp] theorem UserStatus.canTransitionTo_iff (s t : UserStatus) :
    s.canTransitionTo t = true ↔ s ≠ .deleted := by
  cases s <;> cases t <;> simp [UserStatus.canTransitionTo]

/-- SOURCE: core/src/domain/user.rs:58-77 -/
structure User : Type where
  id : String
  externalId : String
  provider : String
  email : Option String
  displayName : Option String
  metadata : Table String Value
  claims : Table String Value
  status : UserStatus
  version : ℕ
  createdAt : Instant
  updatedAt : Instant

/-- The version every creation writes. SOURCE: core/src/domain/user.rs:11 -/
def initialUserVersion : ℕ := 1

/-- SOURCE: core/src/domain/user.rs:113-119 -/
structure NewUser : Type where
  externalId : String
  provider : String
  email : Option String
  displayName : Option String

/-- SOURCE: core/src/domain/user.rs:121-129 -/
structure UserPatch : Type where
  email : Option String
  displayName : Option String
  metadata : Option (Table String Value)
  claims : Option (Table String Value)
  status : Option UserStatus

/-! ## Session families -/

/-- SOURCE: core/src/domain/session.rs:8 -/
def familyIdPrefix : String := "fam_"

/-- SOURCE: core/src/domain/session.rs:13 -/
def ulidCharLen : ℕ := 26

/-- SOURCE: core/src/domain/session.rs:18 -/
def ulidLowercaseAlphabet : List Char := "0123456789abcdefghjkmnpqrstvwxyz".toList

/-- Whether a text is a well-formed family identifier. The alphabet is ASCII, so the
source's byte length of the part after the prefix is its number of characters.
SOURCE: core/src/domain/session.rs:27-37 -/
def isValidFamilyId (id : String) : Bool :=
  match id.toList.dropPrefix? familyIdPrefix.toList with
  | none => false
  | some ulidPart =>
    ulidPart.length == ulidCharLen && ulidPart.all fun c => ulidLowercaseAlphabet.contains c

/-- The empty text, which a session written before rotation carries, is not well formed. -/
@[simp] theorem isValidFamilyId_empty : isValidFamilyId "" = false := by decide

/-- A well-formed identifier is not empty. -/
theorem ne_empty_of_isValidFamilyId {id : String} (h : isValidFamilyId id = true) : id ≠ "" := by
  rintro rfl
  simp at h

/-- A well-formed identifier is the prefix and 26 characters. -/
theorem length_of_isValidFamilyId {id : String} (h : isValidFamilyId id = true) :
    id.length = familyIdPrefix.length + ulidCharLen := by
  unfold isValidFamilyId at h
  split at h
  · exact absurd h (by simp)
  · rename_i rest hrest
    have hlist := List.dropPrefix?_eq_some_iff.mp hrest
    obtain ⟨pre, hsplit, hpre⟩ := hlist
    have hpre' : pre = familyIdPrefix.toList := by simpa using hpre
    have hlen : rest.length = ulidCharLen := by
      have := (Bool.and_eq_true _ _).mp h |>.1
      simpa using this
    rw [← String.length_toList, hsplit, hpre', List.length_append, hlen, String.length_toList]

/-- SOURCE: core/src/domain/session.rs:51 -/
def maxLocationPartLen : ℕ := 80

/-- SOURCE: core/src/domain/session.rs:64-72 -/
structure SessionLocation : Type where
  city : Option String
  region : Option String
  country : Option String
  deriving DecidableEq

/-- The control characters of Unicode. -/
def isControl (c : Char) : Bool := c.val ≤ 0x1F || (0x7F ≤ c.val && c.val ≤ 0x9F)

/-- The white space characters of Unicode. -/
def isWhiteSpace (c : Char) : Bool :=
  (0x09 ≤ c.val && c.val ≤ 0x0D) || c.val == 0x20 || c.val == 0x85 || c.val == 0xA0 ||
    c.val == 0x1680 || (0x2000 ≤ c.val && c.val ≤ 0x200A) || c.val == 0x2028 ||
    c.val == 0x2029 || c.val == 0x202F || c.val == 0x205F || c.val == 0x3000

/-- A text without its leading and trailing white space. -/
def trimChars (cs : List Char) : List Char := (cs.dropWhile isWhiteSpace).rdropWhile isWhiteSpace

/-- One part of a location: control characters stripped, trimmed, cut to its bound and
trimmed again; a part that is empty afterwards is dropped.
SOURCE: core/src/domain/session.rs:83-94 -/
def cleanLocationPart (part : Option String) : Option String :=
  match part with
  | none => none
  | some raw =>
    let stripped := raw.toList.filter fun c => !isControl c
    let trimmed := trimChars ((trimChars stripped).take maxLocationPartLen)
    if trimmed.isEmpty then none else some (String.ofList trimmed)

/-- The sanitising constructor. SOURCE: core/src/domain/session.rs:78-102 -/
def SessionLocation.new (city region country : Option String) : Option SessionLocation :=
  let location : SessionLocation :=
    { city := cleanLocationPart city, region := cleanLocationPart region,
      country := cleanLocationPart country }
  if location.city.isSome || location.region.isSome || location.country.isSome then
    some location
  else
    none

/-- One generation of a refresh-token family. SOURCE: core/src/domain/session.rs:168-211 -/
structure Session : Type where
  userId : String
  refreshTokenHash : String
  familyId : String
  generation : UInt32
  provider : String
  expiresAt : Instant
  rotatedAt : Option Instant
  deviceId : Option String
  userAgent : Option String
  ipAddress : Option String
  location : Option SessionLocation
  createdAt : Instant
  deriving DecidableEq

/-- A retired generation, kept so that presenting it again is noticed.
SOURCE: core/src/domain/session.rs:221-237 -/
structure RetiredRefreshToken : Type where
  refreshTokenHash : String
  familyId : String
  userId : String
  successorHash : String
  retiredAt : Instant
  expiresAt : Instant
  deriving DecidableEq

/-- How a presented hash classifies. SOURCE: core/src/domain/session.rs:277-296 -/
inductive RefreshResolution : Type
  | live (session : Session)
  | superseded (live : Session) (retiredAt : Instant)
  | retired (familyId userId : String) (retiredAt : Instant)
  | unknown
  deriving DecidableEq

/-! ## Errors -/

/-- SOURCE: core/src/error.rs:4-66 -/
inductive Error : Type
  | invalidGrant (reason : String)
  | invalidToken (reason : String)
  | invalidRequest (reason : String)
  | unknownProvider (provider : String)
  | accessDenied (reason : String)
  | userSuspended (userId : String)
  | unauthorized (reason : String)
  | conflict (detail : String)
  | notFound (detail : String)
  | tooManyRequests (retryAfterSecs : ℕ)
  | providerError (provider detail : String)
  | providerTimeout (provider : String)
  | storeError (detail : String)
  | keyError (detail : String)
  | auditError (detail : String)
  | securityAuditDurability (detail : String)
  | syncError (detail : String)
  | configError (detail : String)
  deriving DecidableEq

/-- The text of an error. SOURCE: core/src/error.rs:4-66 -/
def Error.display : Error → String
  | .invalidGrant reason => "invalid grant: " ++ reason
  | .invalidToken reason => "invalid token: " ++ reason
  | .invalidRequest reason => "invalid request: " ++ reason
  | .unknownProvider provider => "unknown provider: " ++ provider
  | .accessDenied reason => "access denied: " ++ reason
  | .userSuspended userId => "user suspended: " ++ userId
  | .unauthorized reason => "unauthorized: " ++ reason
  | .conflict detail => "conflict: " ++ detail
  | .notFound detail => "not found: " ++ detail
  | .tooManyRequests secs =>
    "too many requests; retry after " ++ secs.repr ++ " seconds"
  | .providerError provider detail => "provider error (" ++ provider ++ "): " ++ detail
  | .providerTimeout provider => "provider timeout: " ++ provider
  | .storeError detail => "store error: " ++ detail
  | .keyError detail => "key error: " ++ detail
  | .auditError detail => "audit error: " ++ detail
  | .securityAuditDurability detail =>
    "mandatory security audit could not be persisted: " ++ detail
  | .syncError detail => "sync error: " ++ detail
  | .configError detail => "config error: " ++ detail

/-! ## Tokens -/

/-- Claims of an access token. SOURCE: core/src/domain/token.rs:41-62 -/
structure AccessTokenClaims : Type where
  sub : String
  iss : String
  aud : String
  sid : String
  iat : UInt64
  exp : UInt64
  custom : Table String Value

/-- An access token before it is written as text: the header, the claims and the
signature over both. -/
structure AccessToken : Type where
  alg : String
  typ : String
  kid : String
  claims : AccessTokenClaims
  signature : String

/-- SOURCE: core/src/domain/token.rs:9-20 -/
structure TokenResponse : Type where
  accessToken : AccessToken
  refreshToken : Option String
  tokenType : String
  expiresIn : UInt64

/-- What a provider returns for a code. SOURCE: core/src/domain/token.rs:64-70 -/
structure ProviderTokens : Type where
  idToken : String
  refreshToken : Option String
  accessToken : Option String

/-- Validated claims of an identity token. SOURCE: core/src/domain/token.rs:87-103 -/
structure IdentityClaims : Type where
  subject : String
  email : Option String
  emailVerified : Option Bool
  name : Option String
  isPrivateEmail : Option Bool
  signingAlg : String
  rawClaims : Table String Value

end OidcExchange
