import OidcExchange.Interleaving.Assumption
import OidcExchange.Program.JwksCache
import OidcExchange.Program.VerificationKeys

/-!
# Identity tokens checked with published keys

The validators of the two providers find the key of a token in the cache of its provider, whose
fetches turn served documents into key sets, and check the token with it. They differ in the
algorithms they admit, in what a token is checked against and in the claims they read.

Left out: that the permit of the cache is given back when a fetch panics.
-/

set_option autoImplicit false

namespace OidcExchange

open Interleaving

/-! ## Fetches that serve documents -/

/-- The operations of the cache, with documents in the place of key sets that are fetched. -/
inductive ServedOp (Keys : Type) : Type
  | cache (o : JwksOp Keys)
  | getJson (fetch : Fetch)

/-- A document is served, or the transport fails. -/
abbrev ServedAns (Keys : Type) : ServedOp Keys → Type
  | .cache o => JwksAns Keys o
  | .getJson _ => Except Error Value

/-- A call of a validator. -/
abbrev ServedCall (Key α : Type) : Type :=
  Program (ServedAns (VerificationKeySet Key)) (Fault Error) α

/-- The algorithms that a cache admits, and the address of the document.
SOURCE: adapters/src/shared/jwks.rs:51-66 -/
structure KeySource : Type where
  jwksUri : String
  ttl : ℕ
  admitted : List JwsAlgorithm

variable (tables : UnicodeTables) {Key : Type} (decode : JwkDecoder Key)

/-- An error leaves the cache as it is; an assertion that fails ends the call. -/
def orPanic {α : Type} : Except (Fault Error) α → ServedCall Key (Except Error α)
  | .ok a => .done (.ok a)
  | .error (.error e) => .done (.error e)
  | .error .panic => .raise .panic

/-- SOURCE: adapters/src/shared/jwks.rs:293-303 -/
def KeySource.fetchKeys (source : KeySource) (fetch : Fetch) :
    ServedCall Key (Except Error (VerificationKeySet Key)) := do
  match ← Program.ask (ServedOp.getJson fetch) with
  | .error e => .done (.error e)
  | .ok value =>
    orPanic (VerificationKeySet.fromJwks tables decode source.admitted source.jwksUri value)

/-- An operation that is the cache's own. -/
def askCache (o : JwksOp (VerificationKeySet Key)) :
    ServedCall Key (JwksAns (VerificationKeySet Key) o) :=
  Program.ask (ServedOp.cache o)

/-- The operations of the cache: fetches are served documents. -/
def KeySource.serveOp (source : KeySource) : (o : JwksOp (VerificationKeySet Key)) →
    ServedCall Key (JwksAns (VerificationKeySet Key) o)
  | .fetchKeys fetch => source.fetchKeys tables decode fetch
  | .freshCached => askCache .freshCached
  | .tryAcquire => askCache .tryAcquire
  | .anyCached => askCache .anyCached
  | .acquire => askCache .acquire
  | .recheck => askCache .recheck
  | .store fetch keys => askCache (.store fetch keys)
  | .release => askCache .release
  | .forcedLately => askCache .forcedLately
  | .recordForced => askCache .recordForced

/-- The cache looks ids up in key sets. -/
def KeySource.config (source : KeySource) :
    JwksConfig (VerificationKeySet Key) (Jwks.VerificationKey Key) where
  ttl := source.ttl
  get keys kid := keys.byKid.lookup kid

/-- SOURCE: adapters/src/shared/jwks.rs:204-222 -/
def KeySource.getKey (source : KeySource) (kid : String) :
    ServedCall Key (Jwks.VerificationKey Key) :=
  (JwksCache.getKey source.config kid).expand (source.serveOp tables decode)

/-! ## Validators -/

/-- What a validator does with a token whose key is found. -/
structure TokenPolicy : Type where
  source : KeySource
  validation : String → Validation
  identityClaims : String → Value → Except Error IdentityClaims

variable (lib : ProviderLibrary Key)

/-- A token is checked with the key that was found for it.
SOURCE: adapters/src/oidc/mod.rs:204-249, providers/src/apple.rs:327-371 -/
def TokenPolicy.check (policy : TokenPolicy) (idToken kid : String)
    (key : Jwks.VerificationKey Key) : Except (Fault Error) IdentityClaims := do
  assertThat (key.kid == kid)
  let algorithm := jwsAlgName key.algorithm
  let claims ← (lib.decode idToken key.decodingKey (policy.validation algorithm)).mapError
    fun e => .error (.invalidGrant ("JWT validation failed: " ++ e))
  (policy.identityClaims algorithm claims).mapError .error

/-- SOURCE: adapters/src/oidc/mod.rs:188-250, providers/src/apple.rs:312-372 -/
def TokenPolicy.validateIdToken (policy : TokenPolicy) (idToken : String) :
    ServedCall Key IdentityClaims := do
  let header ← Program.ofExcept ((lib.decodeHeader idToken).mapError fun e =>
    .error (.invalidGrant ("Invalid JWT header: " ++ e)))
  match header with
  | none => .raise (.error (.invalidGrant "JWT missing kid header"))
  | some kid => do
    let key ← policy.source.getKey tables decode kid
    Program.ofExcept (policy.check lib idToken kid key)

/-- SOURCE: adapters/src/oidc/mod.rs:18-28 -/
def oidcAdmittedAlgorithms : List JwsAlgorithm :=
  [.rs256, .rs384, .rs512, .es256, .es384, .ps256, .ps384, .ps512, .edDsa]

/-- SOURCE: adapters/src/oidc/mod.rs:188-250 -/
def OidcProvider.policy (provider : OidcProvider) (ttl : ℕ) : TokenPolicy where
  source := ⟨provider.jwksUri.text, ttl, oidcAdmittedAlgorithms⟩
  validation := provider.validation
  identityClaims := provider.identityClaims

/-- SOURCE: providers/src/apple.rs:19 -/
def appleIssuer : String := "https://appleid.apple.com"

/-- SOURCE: providers/src/apple.rs:32 -/
def appleAdmittedAlgorithms : List JwsAlgorithm := [.rs256, .es256]

/-- What the validator of Apple's tokens uses. SOURCE: providers/src/apple.rs:39-47 -/
structure AppleProvider : Type where
  clientId : String
  jwksUri : String

/-- SOURCE: providers/src/apple.rs:334-338 -/
def AppleProvider.validation (provider : AppleProvider) (algorithm : String) : Validation where
  algorithm := algorithm
  issuers := [appleIssuer]
  audience := [provider.clientId]
  requiredSpecClaims := ["exp", "iss", "aud"]
  validateNbf := true

/-- SOURCE: providers/src/apple.rs:347-371 -/
def AppleProvider.identityClaims (algorithm : String) (claims : Value) :
    Except Error IdentityClaims :=
  match (claims.member "sub").asStr with
  | some subject =>
    if subject.isEmpty then .error (.invalidGrant "ID token missing required 'sub' claim")
    else .ok {
      subject := subject
      email := (claims.member "email").asStr
      emailVerified := coerceBool (claims.member "email_verified")
      name := (claims.member "name").asStr
      isPrivateEmail := coerceBool (claims.member "is_private_email")
      signingAlg := algorithm
      rawClaims := claims.asObject.getD ∅ }
  | none => .error (.invalidGrant "ID token missing required 'sub' claim")

/-- SOURCE: providers/src/apple.rs:312-372 -/
def AppleProvider.policy (provider : AppleProvider) (ttl : ℕ) : TokenPolicy where
  source := ⟨provider.jwksUri, ttl, appleAdmittedAlgorithms⟩
  validation := provider.validation
  identityClaims := AppleProvider.identityClaims

end OidcExchange
