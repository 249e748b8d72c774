import Mathlib.Data.Rat.Defs
import Mathlib.Algebra.Order.Field.Rat
import OidcExchange.Model.Domain

/-!
# What the admin interface verifies tokens with

The discovery document and the key set of the exchange, checked and kept together, and the check of
a token against them.

The reader of addresses and the package that reads headers and verifies signatures are parameters.
Objects have one member of a name, as the JSON reader leaves them. Left out: how a document is
fetched and read from its bytes.
-/

set_option autoImplicit false

namespace OidcExchange

/-! ## Bounds -/

/-- SOURCE: apps/admin-ui/src/lib/auth.ts:15-26 -/
def maxAlgorithms : ℕ := 9

def maxJwksKeys : ℕ := 32

def maxTokenBytes : ℕ := 16384

def maxKidChars : ℕ := 128

def maxJoseNameChars : ℕ := 16

def maxIssuerChars : ℕ := 2048

def maxSubjectChars : ℕ := 512

def maxAudienceChars : ℕ := 512

def maxAudiences : ℕ := 8

def maxJwkMaterialChars : ℕ := 1024

/-- SOURCE: apps/admin-ui/src/lib/auth.ts:27-29 -/
def maxTokenAgeSeconds : ℚ := 3600

def maxTokenLifetimeSeconds : ℚ := 3600

def clockToleranceSeconds : ℕ := 30

/-- SOURCE: apps/admin-ui/src/lib/auth.ts:34-45 -/
def supportedAlgorithms : List String :=
  ["EdDSA", "RS256", "RS384", "RS512", "PS256", "PS384", "PS512", "ES256", "ES384", "ES512"]

/-! ## Texts and values -/

/-- The length of a text, in units of 16 bits. SOURCE: `String.prototype.length` -/
def unitLength (text : String) : ℕ :=
  (text.toList.map fun c => if c.toNat < 0x10000 then 1 else 2).sum

/-- SOURCE: apps/admin-ui/src/lib/auth.ts:32 -/
def isKidText (text : String) : Bool :=
  !text.isEmpty && text.toList.all fun c => c.isAlphanum || c ∈ ['.', '_', '~', '-']

/-- What goes wrong: an error with a message, a signature that does not match, and any other failure
of the package. -/
inductive AuthError : Type
  | error (message : String)
  | signatureVerificationFailed
  | jose (code : String)
  deriving DecidableEq

/-- SOURCE: apps/admin-ui/src/lib/auth.ts:100-105 -/
def requireBoundedString (value : Option Value) (name : String) (maxChars : ℕ) :
    Except AuthError String :=
  match value with
  | some (.string text) =>
    if unitLength text = 0 ∨ maxChars < unitLength text then .error (.error (name ++ " is invalid"))
    else .ok text
  | _ => .error (.error (name ++ " is invalid"))

/-- A check that fails with a message. -/
def throwUnless (condition : Bool) (message : String) : Except AuthError Unit :=
  if condition then .ok () else .error (.error message)

/-! ## Packages -/

/-- The parts of an address. SOURCE: `URL` -/
structure WebUrl : Type where
  protocol : String
  username : String
  password : String
  hash : String
  origin : String
  href : String

/-- What a token is verified with. SOURCE: `JWTVerifyOptions` -/
structure JwtVerifyOptions : Type where
  algorithms : List String
  issuer : String
  audience : String
  requiredClaims : List String
  typ : Option String
  clockTolerance : ℕ

/-- The settings of the interface and the packages it uses: reading an address, reading the header
of a token, and verifying a token with a set of keys at an instant, which gives its payload.
SOURCE: apps/admin-ui/src/lib/auth.ts:48-50, `URL`, `decodeProtectedHeader`, `jwtVerify` -/
structure AdminUi : Type where
  exchangeUrl : String
  exchangeIssuer : String
  audience : String
  url : String → Option WebUrl
  decodeProtectedHeader : String → Except AuthError Value
  jwtVerify : List Value → JwtVerifyOptions → ℕ → String → Except AuthError Value

/-! ## Documents -/

/-- SOURCE: apps/admin-ui/src/lib/auth.ts:54-58 -/
structure UiDiscovery : Type where
  issuer : String
  jwksUri : String
  algorithms : List String

/-- What tokens are verified with, and when it was loaded.
SOURCE: apps/admin-ui/src/lib/auth.ts:60-65 -/
structure VerificationMaterial : Type where
  discovery : UiDiscovery
  jwks : List Value
  kids : List String
  cachedAt : ℕ

/-- SOURCE: apps/admin-ui/src/lib/auth.ts:210-218 -/
def requireAlgorithm (algorithm : Value) : Except AuthError String := do
  let name ← requireBoundedString algorithm "Discovery signing algorithm" maxJoseNameChars
  throwUnless (supportedAlgorithms.contains name) "Discovery signing algorithm is unsupported"
  .ok name

/-- SOURCE: apps/admin-ui/src/lib/auth.ts:202-221 -/
def parseAlgorithms (raw : Option Value) : Except AuthError (List String) :=
  match raw with
  | some (.array items) => do
    throwUnless (decide (0 < items.length ∧ items.length ≤ maxAlgorithms))
      "Discovery signing algorithms are invalid"
    let algorithms ← items.mapM requireAlgorithm
    throwUnless (decide algorithms.Nodup) "Discovery signing algorithms are invalid"
    .ok algorithms
  | _ => .error (.error "Discovery signing algorithms are invalid")

/-- The bytes of a text in base64url; what is left of the last group of six bits is dropped.
SOURCE: `Buffer.from(encoded, "base64url")` -/
def base64urlBytes : List ℕ → List ℕ
  | a :: b :: c :: d :: rest =>
    [a * 4 + b / 16, b % 16 * 16 + c / 4, c % 4 * 64 + d] ++ base64urlBytes rest
  | [a, b, c] => [a * 4 + b / 16, b % 16 * 16 + c / 4]
  | [a, b] => [a * 4 + b / 16]
  | _ => []

/-- The six bits of a character of the alphabet of base64url. -/
def base64urlDigit (c : Char) : Option ℕ :=
  if c.isUpper then some (c.toNat - 'A'.toNat)
  else if c.isLower then some (c.toNat - 'a'.toNat + 26)
  else if c.isDigit then some (c.toNat - '0'.toNat + 52)
  else if c = '-' then some 62
  else if c = '_' then some 63
  else none

/-- SOURCE: apps/admin-ui/src/lib/auth.ts:225-233 -/
def decodeBase64url (value : Option Value) (name : String) (expectedBytes : Option ℕ) :
    Except AuthError (List ℕ) := do
  let encoded ← requireBoundedString value name maxJwkMaterialChars
  match encoded.toList.mapM base64urlDigit with
  | none => .error (.error (name ++ " is invalid"))
  | some digits =>
    let bytes := base64urlBytes digits
    throwUnless (expectedBytes.all (bytes.length == ·)) (name ++ " is invalid")
    .ok bytes

/-- Whether a member is the given text. -/
def Value.hasText (value : Value) (name text : String) : Bool :=
  (value.field name).bind Value.asStr == some text

/-- The curve of an algorithm and the length of its coordinates.
SOURCE: apps/admin-ui/src/lib/auth.ts:245-250 -/
def curveOf (algorithm : String) : String × ℕ :=
  if algorithm = "ES256" then ("P-256", 32)
  else if algorithm = "ES384" then ("P-384", 48)
  else ("P-521", 66)

/-- SOURCE: apps/admin-ui/src/lib/auth.ts:235-262 -/
def validateJwkForAlgorithm (key : Value) (algorithm : String) : Except AuthError Unit :=
  if algorithm = "EdDSA" then do
    throwUnless (key.hasText "kty" "OKP" && key.hasText "crv" "Ed25519") "JWKS key type is invalid"
    let _ ← decodeBase64url (key.field "x") "JWKS x" (some 32)
    .ok ()
  else if "ES".toList <+: algorithm.toList then do
    let (curve, bytes) := curveOf algorithm
    throwUnless (key.hasText "kty" "EC" && key.hasText "crv" curve) "JWKS key type is invalid"
    let _ ← decodeBase64url (key.field "x") "JWKS x" (some bytes)
    let _ ← decodeBase64url (key.field "y") "JWKS y" (some bytes)
    .ok ()
  else do
    throwUnless (key.hasText "kty" "RSA") "JWKS key type is invalid"
    let modulus ← decodeBase64url (key.field "n") "JWKS modulus" none
    let _ ← decodeBase64url (key.field "e") "JWKS exponent" none
    throwUnless (decide (256 ≤ modulus.length) && modulus.head?.any (128 ≤ ·))
      "JWKS RSA modulus is too weak"

/-- SOURCE: apps/admin-ui/src/lib/auth.ts:264-270 -/
def validateKeyOperations (key : Value) : Except AuthError Unit := do
  throwUnless ((key.field "use").isNone || key.hasText "use" "sig") "JWKS use is invalid"
  match key.field "key_ops" with
  | none => .ok ()
  | some (.array [.string "verify"]) => .ok ()
  | some _ => .error (.error "JWKS key_ops is invalid")

/-- One key of a set, after those that came before it.
SOURCE: apps/admin-ui/src/lib/auth.ts:282-294 -/
def checkJwk (algorithms kids : List String) (rawKey : Value) : Except AuthError (List String) :=
  match rawKey with
  | .object _ => do
    let kid ← requireBoundedString (rawKey.field "kid") "JWKS kid" maxKidChars
    throwUnless (isKidText kid && !kids.contains kid) "JWKS kid is invalid"
    let algorithm ← requireBoundedString (rawKey.field "alg") "JWKS alg" maxJoseNameChars
    throwUnless (supportedAlgorithms.contains algorithm && algorithms.contains algorithm)
      "JWKS algorithm is invalid"
    validateKeyOperations rawKey
    validateJwkForAlgorithm rawKey algorithm
    .ok (kids ++ [kid])
  | _ => .error (.error "JWKS key is invalid")

/-- A set of keys, with their identifiers. SOURCE: apps/admin-ui/src/lib/auth.ts:272-296 -/
def parseJwks (value : Value) (algorithms : List String) :
    Except AuthError (List Value × List String) :=
  match value.field "keys" with
  | some (.array keys) => do
    throwUnless (decide (0 < keys.length ∧ keys.length ≤ maxJwksKeys)) "JWKS is invalid"
    let kids ← keys.foldlM (checkJwk algorithms) []
    .ok (keys, kids)
  | _ => .error (.error "JWKS is invalid")

/-- The header of a token. SOURCE: apps/admin-ui/src/lib/auth.ts:327 -/
structure UiTokenHeader : Type where
  kid : String
  alg : String
  typ : Option String
  deriving DecidableEq

namespace AdminUi

variable (ui : AdminUi)

/-- SOURCE: apps/admin-ui/src/lib/auth.ts:87-94 -/
def requireHttpsUrl (value name : String) : Except AuthError WebUrl :=
  if maxIssuerChars < unitLength value then .error (.error (name ++ " is too long"))
  else match ui.url value with
    | none => .error (.jose "ERR_INVALID_URL")
    | some url => do
      throwUnless (url.protocol == "https:") (name ++ " must use HTTPS")
      throwUnless (url.username == "" && url.password == "" && url.hash == "")
        (name ++ " contains forbidden URL components")
      .ok url

/-- SOURCE: apps/admin-ui/src/lib/auth.ts:195-223 -/
def parseDiscovery (value : Value) (exchangeUrl : WebUrl) : Except AuthError UiDiscovery :=
  match value with
  | .object _ => do
    let issuer ← requireBoundedString (value.field "issuer") "Discovery issuer" maxIssuerChars
    throwUnless (issuer == ui.exchangeIssuer) "Discovery issuer mismatch"
    let jwksUri ← requireBoundedString (value.field "jwks_uri") "Discovery jwks_uri" maxIssuerChars
    let jwksUrl ← ui.requireHttpsUrl jwksUri "Discovery jwks_uri"
    throwUnless (jwksUrl.origin == exchangeUrl.origin) "Discovery jwks_uri origin mismatch"
    let algorithms ← parseAlgorithms (value.field "id_token_signing_alg_values_supported")
    .ok { issuer := issuer, jwksUri := jwksUrl.href, algorithms := algorithms }
  | _ => .error (.error "Discovery document must be an object")

/-- The material that the two documents give at an instant.
SOURCE: apps/admin-ui/src/lib/auth.ts:298-308 -/
def loadVerificationMaterial (discovery jwks : Value) (now : ℕ) :
    Except AuthError VerificationMaterial := do
  let exchangeUrl ← ui.requireHttpsUrl ui.exchangeUrl "OIDC_EXCHANGE_URL"
  let discovery ← ui.parseDiscovery discovery exchangeUrl
  let (keys, kids) ← parseJwks jwks discovery.algorithms
  .ok { discovery := discovery, jwks := keys, kids := kids, cachedAt := now }

/-- The media type that a header names, if it names one.
SOURCE: apps/admin-ui/src/lib/auth.ts:336-341 -/
def parseTyp (header : Value) : Except AuthError (Option String) :=
  match header.field "typ" with
  | none => .ok none
  | some value => do
    let typ ← requireBoundedString value "JWT type" maxJoseNameChars
    throwUnless (typ == "JWT" || typ == "at+jwt") "JWT type is not allowed"
    .ok (some typ)

/-- SOURCE: apps/admin-ui/src/lib/auth.ts:327-342 -/
def parseBoundedHeader (token : String) : Except AuthError UiTokenHeader := do
  let headerSegment := String.ofList (token.toList.takeWhile (· ≠ '.'))
  throwUnless (decide (0 < unitLength headerSegment ∧ unitLength headerSegment ≤ 1024))
    "JWT header is invalid"
  let header ← ui.decodeProtectedHeader token
  let kid ← requireBoundedString (header.field "kid") "JWT kid" maxKidChars
  throwUnless (isKidText kid) "JWT kid is invalid"
  let alg ← requireBoundedString (header.field "alg") "JWT algorithm" maxJoseNameChars
  throwUnless (supportedAlgorithms.contains alg) "JWT algorithm is not allowed"
  let typ ← parseTyp header
  .ok { kid := kid, alg := alg, typ := typ }

end AdminUi

/-- The number that a member is. -/
def Value.numberField (value : Value) (name : String) : Option ℚ :=
  match value.field name with
  | some (.number m e) => some (m / 10 ^ e)
  | _ => none

/-- The audiences of a payload. SOURCE: apps/admin-ui/src/lib/auth.ts:347-350 -/
def audiencesOf (payload : Value) : Except AuthError (List Value) :=
  match payload.field "aud" with
  | some (.string audience) => .ok [.string audience]
  | some (.array audiences) => do
    throwUnless (decide (0 < audiences.length ∧ audiences.length ≤ maxAudiences)) "JWT aud is invalid"
    .ok audiences
  | _ => .error (.error "JWT aud is invalid")

/-- The instants of a payload are in order and it is not too old, in seconds.
SOURCE: apps/admin-ui/src/lib/auth.ts:353-361 -/
def checkTimes (payload : Value) (now : ℚ) : Except AuthError Unit :=
  match payload.numberField "iat", payload.numberField "exp" with
  | some iat, some exp => do
    throwUnless (decide (iat < exp ∧ iat ≤ now + clockToleranceSeconds)) "JWT times are invalid"
    throwUnless (decide (now - iat ≤ maxTokenAgeSeconds + clockToleranceSeconds)) "JWT is too old"
    throwUnless (decide (exp - iat ≤ maxTokenLifetimeSeconds)) "JWT lifetime is too long"
  | _, _ => .error (.error "JWT times are invalid")

/-- SOURCE: apps/admin-ui/src/lib/auth.ts:344-362 -/
def validatePayloadBounds (payload : Value) (now : ℕ) : Except AuthError Unit := do
  let _ ← requireBoundedString (payload.field "iss") "JWT iss" maxIssuerChars
  let _ ← requireBoundedString (payload.field "sub") "JWT sub" maxSubjectChars
  let audiences ← audiencesOf payload
  audiences.forM fun audience => do
    let _ ← requireBoundedString audience "JWT audience" maxAudienceChars
    .ok ()
  checkTimes payload (now / 1000 : ℕ)

/-- The check of a token against loaded material, at an instant.
SOURCE: apps/admin-ui/src/lib/auth.ts:364-381 -/
def AdminUi.verifyWithMaterial (ui : AdminUi) (token : String) (material : VerificationMaterial)
    (now : ℕ) : Except AuthError Value := do
  let header ← ui.parseBoundedHeader token
  throwUnless (material.discovery.algorithms.contains header.alg) "JWT algorithm is not allowed"
  let payload ← ui.jwtVerify material.jwks {
      algorithms := material.discovery.algorithms
      issuer := ui.exchangeIssuer
      audience := ui.audience
      requiredClaims := ["exp", "iss", "aud", "sub", "iat"]
      typ := header.typ
      clockTolerance := clockToleranceSeconds } now token
  validatePayloadBounds payload now
  .ok payload

end OidcExchange
