import OidcExchange.Program.Configuration

/-!
# The configured providers

Each block of the provider table is resolved under the name it stands under. The name is
taken as it is: it becomes the identifier of the provider, and the field paths of its errors
carry it.
-/

set_option autoImplicit false

namespace OidcExchange

open Storage

/-- What a key of a provider block holds; only texts are read here. -/
inductive TomlValue : Type
  | string (text : String)
  | other

/-- SOURCE: `toml::Value::as_str` -/
def TomlValue.asStr : TomlValue → Option String
  | .string text => some text
  | .other => none

/-- SOURCE: core/src/config.rs:1832-1838 -/
structure RawProviderConfig : Type where
  adapter : String
  extra : Table String TomlValue

/-- SOURCE: core/src/config.rs:2170-2191 -/
inductive IdentityProviderAdapter : Type
  | oidc
  | apple
  deriving DecidableEq

variable (tables : UnicodeTables)

def IdentityProviderAdapter.parseField (field value : String) :
    Except Error IdentityProviderAdapter :=
  parseNamed tables [("oidc", .oidc), ("apple", .apple)] "invalid provider adapter" field value

/-- SOURCE: core/src/config.rs:1840-1849 -/
structure ProviderConfig : Type where
  providerId : String
  adapter : IdentityProviderAdapter
  extra : Table String TomlValue
  issuer : Option HttpsUrl
  jwksUri : Option HttpsUrl
  tokenEndpoint : Option HttpsUrl
  revocationEndpoint : Option HttpsUrl

/-- SOURCE: core/src/config.rs:1853-1892 -/
def ProviderConfig.resolve (providerId : String) (raw : RawProviderConfig) :
    Except Error ProviderConfig := do
  let endpoint : String → Except Error (Option HttpsUrl) := fun name =>
    ((raw.extra.lookup name).bind TomlValue.asStr).mapM
      (HttpsUrl.parseField tables ("providers." ++ providerId ++ "." ++ name))
  let issuer ← endpoint "issuer"
  let jwksUri ← endpoint "jwks_uri"
  let tokenEndpoint ← endpoint "token_endpoint"
  let revocationEndpoint ← endpoint "revocation_endpoint"
  let adapter ← IdentityProviderAdapter.parseField tables "providers.adapter" raw.adapter
  if adapter = .oidc ∧ issuer.isNone then
    refuseConfig ("providers." ++ providerId ++ ".issuer: missing required HTTPS URL")
  else
    .ok { providerId := providerId, adapter := adapter, extra := raw.extra, issuer := issuer,
          jwksUri := jwksUri, tokenEndpoint := tokenEndpoint,
          revocationEndpoint := revocationEndpoint }

/-- The blocks in the order the map gives them. SOURCE: core/src/config.rs:72-80 -/
def resolveProviders (raw : List (String × RawProviderConfig)) :
    Except Error (List (String × ProviderConfig)) :=
  raw.mapM fun entry => do
    let provider ← ProviderConfig.resolve tables entry.1 entry.2
    .ok (provider.providerId, provider)

/-- The identifier that the provider built from a block answers with.
SOURCE: server/src/bootstrap.rs:1583-1607, adapters/src/oidc/mod.rs:118 and
providers/src/apple.rs:407-409 -/
def ProviderConfig.builtId (name : String) (c : ProviderConfig) : String :=
  match c.adapter with
  | .oidc => name
  | .apple => "apple"

end OidcExchange
