import OidcExchange.Program.OperatorToken

/-!
# A provider found by discovery

A provider is built from its configuration, with the endpoints that are not configured taken from
the discovery document of its issuer; its identity tokens are validated against the configured
issuer.

The packages that parse addresses and check tokens, the transport and the key cache are
parameters. Left out: warnings, assertions of debug builds, and the flows that exchange a code or
revoke a token.
-/

set_option autoImplicit false

namespace OidcExchange

open Storage

/-- The parts of a parsed address. -/
structure Url : Type where
  scheme : String
  host : Option String
  port : Option ℕ
  path : String
  query : Option String
  fragment : Option String

/-- SOURCE: adapters/src/shared/discovery.rs:45-51 -/
structure RawDiscoveryDocument : Type where
  issuer : String
  tokenEndpoint : String
  jwksUri : String
  revocationEndpoint : Option String

/-- SOURCE: adapters/src/shared/discovery.rs:9-16 -/
structure DiscoveryDocument : Type where
  issuer : HttpsUrl
  tokenEndpoint : HttpsUrl
  jwksUri : HttpsUrl
  revocationEndpoint : Option HttpsUrl

/-- SOURCE: core/src/domain/provider.rs:13-23 -/
inductive EmailVerification : Type
  | standard
  | trustEmail
  | claim (name : String)

/-- SOURCE: core/src/domain/provider.rs:26-57 -/
structure OidcProviderConfig : Type where
  issuer : HttpsUrl
  clientId : String
  jwksUri : Option HttpsUrl
  tokenEndpoint : Option HttpsUrl
  revocationEndpoint : Option HttpsUrl
  endpointOrigins : List String
  emailVerification : EmailVerification

/-- A published key that a token can be checked with, and the algorithm it is for. -/
structure VerificationKey (Key : Type) : Type where
  algorithm : String
  decodingKey : Key

/-- What a token is checked against. SOURCE: `jsonwebtoken::Validation` -/
structure Validation : Type where
  algorithm : String
  issuers : List String
  audience : List String
  requiredSpecClaims : List String
  validateNbf : Bool

/-- What the adapter uses of the packages, of the transport and of the key cache. -/
structure ProviderLibrary (Key : Type) : Type where
  urlParse : String → Option Url
  getJson : String → String → Except Error RawDiscoveryDocument
  getKey : String → String → Except Error (VerificationKey Key)
  decodeHeader : String → Except String (Option String)
  decode : String → Key → Validation → Except String Value

/-- SOURCE: adapters/src/shared/origins.rs:33 -/
def maxEndpointOrigins : ℕ := 16

/-- SOURCE: adapters/src/shared/origins.rs:40 -/
def maxEndpointOriginLenBytes : ℕ := 256

/-- SOURCE: adapters/src/shared/origins.rs:145-153 -/
def originString (scheme : String) (url : Url) : String :=
  let host := url.host.getD ""
  match url.port with
  | some port => scheme ++ "://" ++ host ++ ":" ++ toString port
  | none => scheme ++ "://" ++ host

/-- A member of a value that is an object, or nothing at all. SOURCE: `Value::index` -/
def Value.member (value : Value) (name : String) : Value :=
  (value.asObject.bind fun members => members.lookup name).getD .null

/-- SOURCE: adapters/src/shared/claims.rs:14-23 -/
def coerceBool : Value → Option Bool
  | .bool b => some b
  | .string "true" => some true
  | .string "false" => some false
  | _ => none

/-- SOURCE: adapters/src/oidc/mod.rs:140-171 -/
def deriveEmailVerified (mode : EmailVerification) (claims : Value) : Option Bool :=
  match coerceBool (claims.member "email_verified") with
  | some explicit => some explicit
  | none =>
    match mode with
    | .standard => none
    | .claim name => coerceBool (claims.member name)
    | .trustEmail =>
      match (claims.member "email").asStr with
      | some email => if email.isEmpty then none else some true
      | none => none

/-- A text without the slashes at its end. -/
def trimSlashes (text : String) : String :=
  String.ofList (text.toList.rdropWhile (· == '/'))

/-- Where the discovery document of an issuer is. -/
def discoveryUrl (issuerUrl : HttpsUrl) : String :=
  trimSlashes issuerUrl.text ++ "/.well-known/openid-configuration"

section

variable (tables : UnicodeTables) {Key : Type} (lib : ProviderLibrary Key)

/-- SOURCE: adapters/src/shared/origins.rs:89-122 -/
def parseHttpsOrigin (input : String) : Except (Fault String) String := do
  assertThat (!input.isEmpty)
  assertThat (decide (input.utf8ByteSize ≤ maxEndpointOriginLenBytes))
  match lib.urlParse input with
  | none => .error (.error "endpoint origin is not an absolute URL")
  | some url =>
    if url.scheme ≠ "https" then
      .error (.error ("endpoint origin scheme must be https, found " ++ tables.debug url.scheme))
    else if (url.path ≠ "/" ∧ url.path ≠ "") ∨ url.query.isSome ∨ url.fragment.isSome then
      .error (.error
        "endpoint origin must be scheme://host[:port] with no path, query, or fragment")
    else do
      assertThat url.host.isSome
      .ok (originString "https" url)

/-- SOURCE: adapters/src/shared/origins.rs:130-142 -/
def originOf (text : String) : Option String :=
  if text.isEmpty then none
  else do
    let url ← lib.urlParse text
    let host ← url.host
    if host.isEmpty then none else some (originString url.scheme url)

/-- One more origin of the set, unless it is there or the set is full. -/
def pushOrigin (origins : List String) (candidate : Option String) : List String :=
  match candidate with
  | none => origins
  | some origin =>
    if maxEndpointOrigins ≤ origins.length || origins.contains origin then origins
    else origins ++ [origin]

/-- The origins that a discovery document may name.
SOURCE: adapters/src/shared/origins.rs:179-213 -/
def endpointOrigins (issuer : String) (configuredEndpoints declaredExtras : List String) :
    Except (Fault Error) (List String) := do
  assertThat (!issuer.isEmpty)
  .ok ((issuer :: configuredEndpoints ++ declaredExtras).foldl
    (fun origins text => pushOrigin origins (originOf lib text)) [])

/-- SOURCE: adapters/src/shared/origins.rs:227-233 -/
def EndpointOrigins.containsNormalized (origins : List String) (observedOrigin : String) :
    Except (Fault Error) Bool := do
  assertThat (!observedOrigin.isEmpty)
  .ok (origins.contains observedOrigin)

/-- SOURCE: adapters/src/shared/origins.rs:219-224 -/
def EndpointOrigins.admits (origins : List String) (candidateUrl : String) : Except (Fault Error) Bool :=
  match originOf lib candidateUrl with
  | some observed => EndpointOrigins.containsNormalized origins observed
  | none => .ok false

/-- A supplied endpoint outside the permitted origins is let through with a warning.
SOURCE: adapters/src/shared/origins.rs:264-323 -/
def checkPinnedOrigin (provider endpointKind : String) : Except (Fault Error) Unit := do
  assertThat (!provider.isEmpty)
  assertThat (!endpointKind.isEmpty)

/-- SOURCE: adapters/src/shared/discovery.rs:108-111 -/
def parseDiscoveredEndpoint (value : String) : Except (Fault Error) HttpsUrl :=
  (HttpsUrl.parseField tables "URL" value).mapError .error

/-- SOURCE: adapters/src/shared/discovery.rs:33-105 -/
def discover (issuerUrl : HttpsUrl) (permittedOrigins : List String) :
    Except (Fault Error) DiscoveryDocument := do
  assertThat (!permittedOrigins.isEmpty)
  let raw ← (lib.getJson issuerUrl.text (discoveryUrl issuerUrl)).mapError .error
  if trimSlashes raw.issuer ≠ trimSlashes issuerUrl.text then
    .error (.error (.providerError issuerUrl.text
      ("discovered issuer '" ++ raw.issuer ++ "' does not match configured issuer '" ++
        trimSlashes issuerUrl.text ++ "'")))
  else do
    checkPinnedOrigin issuerUrl.text "token_endpoint"
    checkPinnedOrigin issuerUrl.text "jwks_uri"
    raw.revocationEndpoint.forM fun _ => checkPinnedOrigin issuerUrl.text "revocation_endpoint"
    .ok {
      issuer := ← parseDiscoveredEndpoint tables raw.issuer
      tokenEndpoint := ← parseDiscoveredEndpoint tables raw.tokenEndpoint
      jwksUri := ← parseDiscoveredEndpoint tables raw.jwksUri
      revocationEndpoint := ← raw.revocationEndpoint.mapM (parseDiscoveredEndpoint tables) }

/-- SOURCE: adapters/src/oidc/mod.rs:34-46 -/
structure OidcProvider : Type where
  providerId : String
  clientId : String
  tokenEndpoint : HttpsUrl
  jwksUri : HttpsUrl
  revocationEndpoint : Option HttpsUrl
  issuer : HttpsUrl
  emailVerification : EmailVerification

/-- What is missing is a configuration error. -/
def orConfigError {α : Type} (detail : String) : Option α → Except (Fault Error) α
  | some a => .ok a
  | none => .error (.error (.configError detail))

/-- A declared origin is checked once more.
SOURCE: adapters/src/oidc/mod.rs:65-69 -/
def checkDeclaredOrigin (providerId entry : String) : Except (Fault Error) Unit :=
  match parseHttpsOrigin tables lib entry with
  | .ok _ => .ok ()
  | .error .panic => .error .panic
  | .error (.error e) => .error (.error (.configError
      ("provider '" ++ providerId ++ "': invalid endpoint_origins entry: " ++ e)))

/-- The discovery document, unless both endpoints are configured.
SOURCE: adapters/src/oidc/mod.rs:90-94 -/
def discoverMissing (config : OidcProviderConfig) (permitted : List String) :
    Except (Fault Error) (Option DiscoveryDocument) :=
  if config.tokenEndpoint.isSome && config.jwksUri.isSome then .ok none
  else some <$> discover tables lib config.issuer permitted

/-- SOURCE: adapters/src/oidc/mod.rs:57-127 -/
def OidcProvider.fromConfig (providerId : String) (config : OidcProviderConfig) :
    Except (Fault Error) OidcProvider := do
  assertThat (decide (config.endpointOrigins.length ≤ maxEndpointOrigins))
  config.endpointOrigins.forM (checkDeclaredOrigin tables lib providerId)
  let configured := ([config.tokenEndpoint, config.jwksUri, config.revocationEndpoint].filterMap
    id).map HttpsUrl.text
  let permitted ← endpointOrigins lib config.issuer.text configured config.endpointOrigins
  let discovery ← discoverMissing tables lib config permitted
  let tokenEndpoint ← orConfigError "token_endpoint not configured and discovery failed"
    (config.tokenEndpoint.or (discovery.map DiscoveryDocument.tokenEndpoint))
  let jwksUri ← orConfigError "jwks_uri not configured and discovery failed"
    (config.jwksUri.or (discovery.map DiscoveryDocument.jwksUri))
  .ok {
    providerId := providerId
    clientId := config.clientId
    tokenEndpoint := tokenEndpoint
    jwksUri := jwksUri
    revocationEndpoint :=
      config.revocationEndpoint.or (discovery.bind DiscoveryDocument.revocationEndpoint)
    issuer := config.issuer
    emailVerification := config.emailVerification }

/-- What the provider's tokens are checked against.
SOURCE: adapters/src/oidc/mod.rs:211-216 -/
def OidcProvider.validation (provider : OidcProvider) (algorithm : String) : Validation where
  algorithm := algorithm
  issuers := [provider.issuer.text]
  audience := [provider.clientId]
  requiredSpecClaims := ["exp", "iss", "aud"]
  validateNbf := true

/-- SOURCE: adapters/src/oidc/mod.rs:225-248 -/
def OidcProvider.identityClaims (provider : OidcProvider) (algorithm : String) (claims : Value) :
    Except Error IdentityClaims :=
  match (claims.member "sub").asStr with
  | some subject =>
    if subject.isEmpty then .error (.invalidGrant "ID token missing required 'sub' claim")
    else .ok {
      subject := subject
      email := (claims.member "email").asStr
      emailVerified := deriveEmailVerified provider.emailVerification claims
      name := (claims.member "name").asStr
      isPrivateEmail := none
      signingAlg := algorithm
      rawClaims := claims.asObject.getD ∅ }
  | none => .error (.invalidGrant "ID token missing required 'sub' claim")

/-- SOURCE: adapters/src/oidc/mod.rs:188-250 -/
def OidcProvider.validateIdToken (provider : OidcProvider) (idToken : String) :
    Except Error IdentityClaims := do
  let header ← (lib.decodeHeader idToken).mapError fun e =>
    .invalidGrant ("Invalid JWT header: " ++ e)
  match header with
  | none => .error (.invalidGrant "JWT missing kid header")
  | some kid => do
    let key ← lib.getKey provider.jwksUri.text kid
    let claims ← (lib.decode idToken key.decodingKey (provider.validation key.algorithm)).mapError
      fun e => .invalidGrant ("JWT validation failed: " ++ e)
    provider.identityClaims key.algorithm claims

end

end OidcExchange
