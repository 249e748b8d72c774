import OidcExchange.Analysis.DomainAllowlist
import OidcExchange.Program.OidcProvider

/-!
# Discovery and validation on the issuer

Discovery compares the issuer of a document with the configured one up to the slashes at their
ends, validation compares the issuer of a token with the configured text. A token that carries the
document's issuer is refused for it exactly when the two texts differ.
-/

set_option autoImplicit false

namespace OidcExchange

open Storage

variable {tables : UnicodeTables} {Key : Type} {lib : ProviderLibrary Key}

/-- What the token package documents about issuers: a token that passes when its own issuer is
expected passes whatever else is expected beside it, and is refused for its issuer otherwise. -/
def ProviderLibrary.ChecksIssuer (lib : ProviderLibrary Key) : Prop :=
  ∀ token key (validation : Validation) claims issuer,
    lib.decode token key { validation with issuers := [issuer] } = .ok claims →
    claims.member "iss" = .string issuer →
    ∀ issuers, lib.decode token key { validation with issuers := issuers } =
      if issuer ∈ issuers then .ok claims else .error "InvalidIssuer"

/-- A token with an issuer that is valid but for the question whether the issuer is expected. -/
structure OtherwiseValid (lib : ProviderLibrary Key) (provider : OidcProvider) (token : String)
    (issuer : String) (claims : Value) : Prop where
  issued : claims.member "iss" = .string issuer
  subject : ∃ subject, claims.member "sub" = .string subject ∧ subject.isEmpty = false
  checked : ∃ kid key, lib.decodeHeader token = .ok (some kid) ∧
    lib.getKey provider.jwksUri.text kid = .ok key ∧
    lib.decode token key.decodingKey
      { provider.validation key.algorithm with issuers := [issuer] } = .ok claims

/-- The token is refused for its issuer. -/
def RejectedForIssuer (result : Except Error IdentityClaims) : Prop :=
  result = .error (.invalidGrant "JWT validation failed: InvalidIssuer")

/-- A provider expects the issuer that was configured. -/
theorem issuer_of_fromConfig {providerId : String} {config : OidcProviderConfig}
    {provider : OidcProvider}
    (h : OidcProvider.fromConfig tables lib providerId config = .ok provider) :
    provider.issuer = config.issuer := by
  obtain ⟨_, -, h⟩ := ok_of_bind h
  obtain ⟨_, -, h⟩ := ok_of_bind h
  obtain ⟨_, -, h⟩ := ok_of_bind h
  obtain ⟨_, -, h⟩ := ok_of_bind h
  obtain ⟨_, -, h⟩ := ok_of_bind h
  obtain ⟨_, -, h⟩ := ok_of_bind h
  cases h
  rfl

/-- A document that discovery accepts has the configured issuer, up to slashes at the end. -/
theorem issuer_of_discover {issuerUrl : HttpsUrl} {origins : List String}
    {document : DiscoveryDocument} {raw : RawDiscoveryDocument}
    (hfetched : lib.getJson issuerUrl.text (discoveryUrl issuerUrl) = .ok raw)
    (h : discover tables lib issuerUrl origins = .ok document) :
    trimSlashes raw.issuer = trimSlashes issuerUrl.text := by
  obtain ⟨_, -, h⟩ := ok_of_bind h
  rw [hfetched] at h
  obtain ⟨raw', hraw, h⟩ := ok_of_bind h
  cases hraw
  by_contra hne
  rw [if_pos hne] at h
  cases h

/-- An otherwise valid token is accepted if its issuer is the configured text, and is refused for
its issuer if not. -/
theorem validateIdToken_of_otherwiseValid (hchecks : lib.ChecksIssuer) {provider : OidcProvider}
    {token issuer : String} {claims : Value}
    (hvalid : OtherwiseValid lib provider token issuer claims) :
    (issuer = provider.issuer.text →
      ∃ identity, provider.validateIdToken lib token = .ok identity) ∧
    (issuer ≠ provider.issuer.text → RejectedForIssuer (provider.validateIdToken lib token)) := by
  obtain ⟨kid, key, hheader, hkey, hdecode⟩ := hvalid.checked
  obtain ⟨subject, hsubject, hnonempty⟩ := hvalid.subject
  have hanswer := hchecks token key.decodingKey (provider.validation key.algorithm) claims issuer
    hdecode hvalid.issued [provider.issuer.text]
  have hexpected : { provider.validation key.algorithm with issuers := [provider.issuer.text] } =
      provider.validation key.algorithm := rfl
  rw [hexpected] at hanswer
  have hrun : provider.validateIdToken lib token =
      ((lib.decode token key.decodingKey (provider.validation key.algorithm)).mapError
        fun e => Error.invalidGrant ("JWT validation failed: " ++ e)).bind
          (provider.identityClaims key.algorithm) := by
    unfold OidcProvider.validateIdToken
    rw [hheader]
    simp only [Except.mapError, bind, Except.bind, hkey]
  rw [hrun, hanswer]
  constructor
  · intro heq
    rw [if_pos (by simp [heq])]
    simp [Except.mapError, Except.bind, OidcProvider.identityClaims, hsubject, Value.asStr,
      hnonempty]
  · intro hne
    rw [if_neg (by simpa using hne)]
    rfl

/-- **Discovery and validation, exactly**: the issuer of a document that discovery accepts is the
configured one up to slashes at the end, and an otherwise valid token that carries it is not
refused for its issuer exactly when it is the configured text itself. -/
theorem discovered_issuer_accepted_iff (tables : UnicodeTables) (lib : ProviderLibrary Key)
    (hchecks : lib.ChecksIssuer) (providerId : String) (config : OidcProviderConfig)
    (provider : OidcProvider)
    (hprovider : OidcProvider.fromConfig tables lib providerId config = .ok provider)
    (origins : List String) (raw : RawDiscoveryDocument) (document : DiscoveryDocument)
    (hfetched : lib.getJson config.issuer.text (discoveryUrl config.issuer) = .ok raw)
    (haccepted : discover tables lib config.issuer origins = .ok document)
    (token : String) (claims : Value)
    (hvalid : OtherwiseValid lib provider token raw.issuer claims) :
    trimSlashes raw.issuer = trimSlashes config.issuer.text ∧
      (¬ RejectedForIssuer (provider.validateIdToken lib token) ↔
        raw.issuer = config.issuer.text) := by
  refine ⟨issuer_of_discover hfetched haccepted, ?_⟩
  obtain ⟨haccepts, hrejects⟩ := validateIdToken_of_otherwiseValid hchecks hvalid
  rw [issuer_of_fromConfig hprovider] at haccepts hrejects
  constructor
  · intro hnot
    by_contra hne
    exact hnot (hrejects hne)
  · intro heq hrejected
    obtain ⟨identity, hok⟩ := haccepts heq
    rw [RejectedForIssuer, hok] at hrejected
    cases hrejected

/-! ## An issuer with a slash at its end -/

/-- The claims of a token of an issuer. -/
def claimsOf (issuer : String) : Value := .object [("iss", .string issuer), ("sub", .string "s")]

/-- A provider whose document and whose tokens carry one issuer. -/
def singleIssuer (issuer : String) : ProviderLibrary Unit where
  urlParse _ := some ⟨"https", some "idp.example", none, "/", none, none⟩
  getJson _ _ := .ok ⟨issuer, "https://idp.example/token", "https://idp.example/keys", none⟩
  getKey _ _ := .ok ⟨"ES256", ()⟩
  decodeHeader _ := .ok (some "kid")
  decode _ _ validation :=
    if issuer ∈ validation.issuers then .ok (claimsOf issuer) else .error "InvalidIssuer"

theorem singleIssuer_checksIssuer (issuer : String) : (singleIssuer issuer).ChecksIssuer := by
  intro token key validation claims issuer' hdecode hissued issuers
  simp only [singleIssuer, List.mem_singleton] at hdecode ⊢
  split at hdecode
  · rename_i heq
    subst heq
    rw [Except.ok.inj hdecode]
  · cases hdecode

theorem singleIssuer_otherwiseValid (issuer : String) (provider : OidcProvider) :
    OtherwiseValid (singleIssuer issuer) provider "token" issuer (claimsOf issuer) where
  issued := by rfl
  subject := ⟨"s", by rfl, by decide⟩
  checked := ⟨"kid", ⟨"ES256", ()⟩, rfl, rfl, by simp [singleIssuer]⟩

/-- A provider with nothing configured but its issuer. -/
def plainProvider (issuer : HttpsUrl) : OidcProviderConfig where
  issuer := issuer
  clientId := "client"
  jwksUri := none
  tokenEndpoint := none
  revocationEndpoint := none
  endpointOrigins := []
  emailVerification := .standard

def slashed : HttpsUrl := ⟨"https://idp.example/", by decide +kernel⟩

def unslashed : HttpsUrl := ⟨"https://idp.example", by decide +kernel⟩

theorem exists_ok {ε α : Type} {x : Except ε α} (h : x.isOk = true) : ∃ a, x = .ok a := by
  cases x with
  | error e => cases h
  | ok a => exact ⟨a, rfl⟩

/-- The configured text as the document has it. -/
theorem discovered_issuer_accepted_same :
    ∃ provider, OidcProvider.fromConfig plainTables (singleIssuer slashed.text) "idp"
        (plainProvider slashed) = .ok provider ∧
      ¬ RejectedForIssuer (provider.validateIdToken (singleIssuer slashed.text) "token") := by
  obtain ⟨provider, hprovider⟩ := exists_ok (x := OidcProvider.fromConfig plainTables
    (singleIssuer slashed.text) "idp" (plainProvider slashed)) (by decide +kernel)
  obtain ⟨document, hdocument⟩ := exists_ok (x := discover plainTables
    (singleIssuer slashed.text) slashed ["https://idp.example"]) (by decide +kernel)
  refine ⟨provider, hprovider, ?_⟩
  exact (discovered_issuer_accepted_iff plainTables (singleIssuer slashed.text)
    (singleIssuer_checksIssuer _) "idp" (plainProvider slashed) provider hprovider
    ["https://idp.example"] _ document rfl hdocument "token" (claimsOf slashed.text)
    (singleIssuer_otherwiseValid _ provider)).2.mpr rfl

/-- A document with a slash more than the configured text is accepted, and every token of its
issuer is refused. -/
theorem slashed_issuer_locks_out :
    ∃ provider document,
      OidcProvider.fromConfig plainTables (singleIssuer slashed.text) "idp"
        (plainProvider unslashed) = .ok provider ∧
      discover plainTables (singleIssuer slashed.text) unslashed ["https://idp.example"] =
        .ok document ∧
      document.issuer = slashed ∧
      OtherwiseValid (singleIssuer slashed.text) provider "token" slashed.text
        (claimsOf slashed.text) ∧
      RejectedForIssuer (provider.validateIdToken (singleIssuer slashed.text) "token") := by
  obtain ⟨provider, hprovider⟩ := exists_ok (x := OidcProvider.fromConfig plainTables
    (singleIssuer slashed.text) "idp" (plainProvider unslashed)) (by decide +kernel)
  have hissuer : (discover plainTables (singleIssuer slashed.text) unslashed
      ["https://idp.example"]).toOption.map (fun document => document.issuer.text) =
        some slashed.text := by
    decide +kernel
  obtain ⟨document, hdocument⟩ := exists_ok (x := discover plainTables
    (singleIssuer slashed.text) unslashed ["https://idp.example"]) (by decide +kernel)
  rw [hdocument] at hissuer
  have hvalid := singleIssuer_otherwiseValid slashed.text provider
  refine ⟨provider, document, hprovider, hdocument, ?_, hvalid, ?_⟩
  · cases hurl : document.issuer with
    | mk text https =>
      rw [Except.toOption, Option.map_some, hurl] at hissuer
      cases Option.some.inj hissuer
      rfl
  · apply (validateIdToken_of_otherwiseValid (singleIssuer_checksIssuer _) hvalid).2
    rw [issuer_of_fromConfig hprovider]
    decide +kernel

end OidcExchange
