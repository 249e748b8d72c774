import OidcExchange.Analysis.IssuerAgreement
import OidcExchange.Storage.Bounded

/-!
# The origins that a provider is pinned to

The origins of the issuer, of the configured endpoints and of the declared entries are collected
in one list, which takes a bounded number of them. It admits what was configured, and nothing
else, exactly if there are no more different origins than that.
-/

set_option autoImplicit false

namespace OidcExchange

open Storage

variable {Key : Type}

/-- The package finds a host in every address of this scheme. -/
def ProviderLibrary.FindsHosts (lib : ProviderLibrary Key) : Prop :=
  ∀ text url, lib.urlParse text = some url → url.scheme = "https" →
    ∃ host, url.host = some host ∧ host ≠ ""

/-- The endpoints that are configured. -/
def OidcProviderConfig.configuredEndpoints (config : OidcProviderConfig) : List String :=
  ([config.tokenEndpoint, config.jwksUri, config.revocationEndpoint].filterMap id).map
    HttpsUrl.text

/-- The addresses whose origins are pinned, in the order in which they are. -/
def OidcProviderConfig.pinnedUrls (config : OidcProviderConfig) : List String :=
  config.issuer.text :: config.configuredEndpoints ++ config.endpointOrigins

/-- The normalised origins of everything that is configured. -/
def OidcProviderConfig.pinned (lib : ProviderLibrary Key) (config : OidcProviderConfig) :
    List String :=
  config.pinnedUrls.filterMap (originOf lib)

/-- The set admits exactly the addresses whose origin was configured, those of the declared
entries among them. -/
structure PinsExactly (lib : ProviderLibrary Key) (config : OidcProviderConfig)
    (permitted : List String) : Prop where
  admits_iff : ∀ url, ∃ admitted, EndpointOrigins.admits lib permitted url = .ok admitted ∧
    (admitted = true ↔ ∃ origin, originOf lib url = some origin ∧ origin ∈ config.pinned lib)
  keeps_declared : ∀ entry ∈ config.endpointOrigins,
    EndpointOrigins.admits lib permitted entry = .ok true

/-- Every step of a row that succeeds has succeeded. -/
theorem ok_of_forM {ε α : Type} {f : α → Except ε Unit} :
    ∀ {l : List α}, l.forM f = .ok () → ∀ a ∈ l, f a = .ok ()
  | [], _, a, ha => absurd ha List.not_mem_nil
  | b :: l, h, a, ha => by
    obtain ⟨_, hfirst, hrest⟩ := ok_of_bind (show (f b >>= fun _ => l.forM f) = .ok () from h)
    obtain rfl | hmem := List.mem_cons.mp ha
    · exact hfirst
    · exact ok_of_forM hrest a hmem

section

variable {lib : ProviderLibrary Key}

theorem originString_ne_empty (scheme : String) (url : Url) :
    (originString scheme url).isEmpty = false := by
  rw [Bool.eq_false_iff, ne_eq, String.isEmpty_iff, originString]
  split
  · simp
  · simp

theorem originOf_ne_empty {text origin : String} (h : originOf lib text = some origin) :
    origin.isEmpty = false := by
  rw [originOf] at h
  split at h
  · cases h
  · obtain ⟨url, -, h⟩ := Option.bind_eq_some_iff.mp h
    obtain ⟨host, -, h⟩ := Option.bind_eq_some_iff.mp h
    split at h
    · cases h
    · exact Option.some.inj h ▸ originString_ne_empty url.scheme url

/-- Membership is never asked of an empty origin. -/
theorem admits_eq (origins : List String) (url : String) :
    EndpointOrigins.admits lib origins url =
      .ok (decide (∃ origin, originOf lib url = some origin ∧ origin ∈ origins)) := by
  rw [EndpointOrigins.admits]
  cases horigin : originOf lib url with
  | none => simp
  | some origin =>
    simp only [EndpointOrigins.containsNormalized, originOf_ne_empty horigin, Bool.not_false, assertThat, if_true]
    rw [← List.elem_eq_contains, List.elem_eq_mem]
    simp
    rfl

/-- A declared entry that was accepted has an origin. -/
theorem originOf_of_checked (hlib : lib.FindsHosts) {tables : UnicodeTables}
    {providerId entry : String} (h : checkDeclaredOrigin tables lib providerId entry = .ok ()) :
    ∃ origin, originOf lib entry = some origin := by
  rw [checkDeclaredOrigin] at h
  cases hparse : parseHttpsOrigin tables lib entry with
  | error fault => rw [hparse] at h; cases fault <;> cases h
  | ok origin =>
    rw [parseHttpsOrigin] at hparse
    obtain ⟨_, hnonempty, hparse⟩ := ok_of_bind hparse
    obtain ⟨_, -, hparse⟩ := ok_of_bind hparse
    have hne : entry.isEmpty = false := by
      cases hempty : entry.isEmpty with
      | false => rfl
      | true => rw [hempty] at hnonempty; cases hnonempty
    cases hurl : lib.urlParse entry with
    | none => rw [hurl] at hparse; cases hparse
    | some url =>
      rw [hurl] at hparse
      simp only at hparse
      split at hparse
      · cases hparse
      · rename_i hscheme
        obtain ⟨host, hhost, hlong⟩ := hlib entry url hurl (not_not.mp hscheme)
        refine ⟨originString url.scheme url, ?_⟩
        simp [originOf, hne, hurl, hhost, hlong]

/-! ## The collected set -/

theorem pushOrigin_eq (origins : List String) (candidate : Option String) :
    pushOrigin origins candidate = candidate.elim origins (pushNew maxEndpointOrigins origins) := by
  cases candidate with
  | none => rfl
  | some origin => rfl

theorem foldl_pushOrigin (texts origins : List String) :
    texts.foldl (fun origins text => pushOrigin origins (originOf lib text)) origins =
      (texts.filterMap (originOf lib)).foldl (pushNew maxEndpointOrigins) origins := by
  induction texts generalizing origins with
  | nil => rfl
  | cons text texts ih =>
    rw [List.foldl_cons, ih, pushOrigin_eq]
    cases horigin : originOf lib text with
    | none => rw [List.filterMap_cons_none horigin]; rfl
    | some origin => rw [List.filterMap_cons_some horigin]; rfl

theorem endpointOrigins_collects {config : OidcProviderConfig} {permitted : List String}
    (h : endpointOrigins lib config.issuer.text config.configuredEndpoints
      config.endpointOrigins = .ok permitted) :
    Collects maxEndpointOrigins (config.pinned lib) permitted := by
  obtain ⟨_, -, h⟩ := ok_of_bind h
  cases h
  rw [foldl_pushOrigin]
  exact (Collects.nil maxEndpointOrigins).foldl (config.pinned lib)

/-- A set that holds nothing but configured origins is exact if it holds them all. -/
theorem pinsExactly_iff {config : OidcProviderConfig} {permitted : List String}
    (hsound : ∀ origin ∈ permitted, origin ∈ config.pinned lib)
    (hdeclared : ∀ entry ∈ config.endpointOrigins, ∃ origin, originOf lib entry = some origin) :
    PinsExactly lib config permitted ↔ ∀ origin ∈ config.pinned lib, origin ∈ permitted := by
  constructor
  · intro hexact origin horigin
    obtain ⟨url, -, hurl⟩ := List.mem_filterMap.mp horigin
    obtain ⟨admitted, hadmits, hiff⟩ := hexact.admits_iff url
    have htrue : admitted = true := hiff.mpr ⟨origin, hurl, horigin⟩
    rw [admits_eq, htrue, Except.ok.injEq, decide_eq_true_eq] at hadmits
    obtain ⟨observed, hobserved, hmem⟩ := hadmits
    cases hobserved.symm.trans hurl
    exact hmem
  · intro hall
    refine ⟨fun url => ⟨_, admits_eq permitted url, ?_⟩, fun entry hentry => ?_⟩
    · rw [decide_eq_true_eq]
      constructor
      · rintro ⟨origin, horigin, hmem⟩
        exact ⟨origin, horigin, hsound origin hmem⟩
      · rintro ⟨origin, horigin, hmem⟩
        exact ⟨origin, horigin, hall origin hmem⟩
    · obtain ⟨origin, horigin⟩ := hdeclared entry hentry
      have hpinned : origin ∈ config.pinned lib :=
        List.mem_filterMap.mpr ⟨entry, List.mem_append_right _ hentry, horigin⟩
      rw [admits_eq, Except.ok.injEq, decide_eq_true_eq]
      exact ⟨origin, horigin, hall origin hpinned⟩

/-- **Pinned origins, exactly**: an accepted configuration is pinned to what it names, and to
nothing else, exactly if it names no more different origins than the set takes. -/
theorem pinned_origins_exact_iff (tables : UnicodeTables) (hlib : lib.FindsHosts)
    (providerId : String) (config : OidcProviderConfig) (provider : OidcProvider)
    (haccepted : OidcProvider.fromConfig tables lib providerId config = .ok provider) :
    ∃ permitted discovery,
      endpointOrigins lib config.issuer.text config.configuredEndpoints
        config.endpointOrigins = .ok permitted ∧
      discoverMissing tables lib config permitted = .ok discovery ∧
      (PinsExactly lib config permitted ↔
        (config.pinned lib).toFinset.card ≤ maxEndpointOrigins) := by
  obtain ⟨_, -, haccepted⟩ := ok_of_bind haccepted
  obtain ⟨_, hchecked, haccepted⟩ := ok_of_bind haccepted
  obtain ⟨permitted, hpermitted, haccepted⟩ := ok_of_bind haccepted
  obtain ⟨discovery, hdiscovery, -⟩ := ok_of_bind haccepted
  refine ⟨permitted, discovery, hpermitted, hdiscovery, ?_⟩
  have hcollects := endpointOrigins_collects hpermitted
  rw [← hcollects.whole_iff]
  apply pinsExactly_iff hcollects.sound
  intro entry hentry
  exact originOf_of_checked hlib (ok_of_forM hchecked entry hentry)

end

/-! ## More origins than the set takes -/

/-- The address of a host with a path, without a port. -/
def addressOf (host path : String) : Option Url :=
  if host = "" then none
  else some ⟨"https", some host, none, if path = "" then "/" else path, none, none⟩

def hostUrl (text : String) : Option Url :=
  (text.toList.dropPrefix? "https://".toList).bind fun rest =>
    addressOf (String.ofList (rest.takeWhile (· != '/')))
      (String.ofList (rest.dropWhile (· != '/')))

/-- A provider whose addresses are hosts with a path. -/
def hostLibrary : ProviderLibrary Unit where
  urlParse := hostUrl
  getJson _ _ := .ok ⟨"https://idp.example", "https://idp.example/token",
    "https://idp.example/keys", none⟩
  getKey _ _ := .ok ⟨"ES256", ()⟩
  decodeHeader _ := .ok (some "kid")
  decode _ _ _ := .ok (claimsOf "https://idp.example")

theorem hostLibrary_findsHosts : hostLibrary.FindsHosts := by
  intro text url h _
  obtain ⟨rest, -, h⟩ := Option.bind_eq_some_iff.mp h
  rw [addressOf] at h
  split at h
  · cases h
  · rename_i hne
    cases Option.some.inj h
    exact ⟨_, rfl, hne⟩

/-- A provider that declares these origins besides the one of its issuer. -/
def declaring (origins : List String) : OidcProviderConfig where
  issuer := unslashed
  clientId := "client"
  jwksUri := none
  tokenEndpoint := none
  revocationEndpoint := none
  endpointOrigins := origins
  emailVerification := .standard

/-- Two origins that are declared and the one of the issuer are all pinned. -/
theorem pinned_origins_exact_iff_two :
    ∃ permitted, endpointOrigins hostLibrary "https://idp.example" []
        ["https://keys.example", "https://idp.example"] = .ok permitted ∧
      PinsExactly hostLibrary (declaring ["https://keys.example", "https://idp.example"])
        permitted := by
  obtain ⟨provider, hprovider⟩ := exists_ok (x := OidcProvider.fromConfig plainTables hostLibrary
    "idp" (declaring ["https://keys.example", "https://idp.example"])) (by decide +kernel)
  obtain ⟨permitted, -, hpermitted, -, hiff⟩ := pinned_origins_exact_iff plainTables
    hostLibrary_findsHosts "idp" _ provider hprovider
  exact ⟨permitted, hpermitted, hiff.mpr (by decide +kernel)⟩

/-- As many origins as may be declared. -/
def sixteenOrigins : List String :=
  (List.range maxEndpointOrigins).map fun n => "https://h" ++ toString n ++ ".example"

/-- A configuration with as many declared origins as are accepted lacks one of them. -/
theorem last_declared_origin_dropped :
    ∃ provider permitted,
      OidcProvider.fromConfig plainTables hostLibrary "idp" (declaring sixteenOrigins) =
        .ok provider ∧
      endpointOrigins hostLibrary "https://idp.example" [] sixteenOrigins = .ok permitted ∧
      EndpointOrigins.admits hostLibrary permitted "https://h15.example" = .ok false ∧
      ¬PinsExactly hostLibrary (declaring sixteenOrigins) permitted := by
  obtain ⟨provider, hprovider⟩ := exists_ok (x := OidcProvider.fromConfig plainTables hostLibrary
    "idp" (declaring sixteenOrigins)) (by decide +kernel)
  obtain ⟨permitted, hpermitted⟩ := exists_ok (x := endpointOrigins hostLibrary
    "https://idp.example" [] sixteenOrigins) (by decide +kernel)
  have hadmits : EndpointOrigins.admits hostLibrary permitted "https://h15.example" =
      .ok false := by
    have h : (endpointOrigins hostLibrary "https://idp.example" [] sixteenOrigins).bind
        (fun permitted => EndpointOrigins.admits hostLibrary permitted "https://h15.example") =
          .ok false := by
      decide +kernel
    rwa [hpermitted] at h
  refine ⟨provider, permitted, hprovider, hpermitted, hadmits, fun hexact => ?_⟩
  have hkept := hexact.keeps_declared "https://h15.example" (by decide +kernel)
  rw [hadmits] at hkept
  cases hkept

end OidcExchange
