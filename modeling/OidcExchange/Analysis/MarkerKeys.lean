import OidcExchange.Analysis.NonceLedger
import OidcExchange.Analysis.StartUp
import OidcExchange.Analysis.Undisturbed
import OidcExchange.Program.Providers

/-!
# What a replay marker identifies

The key of a marker joins a fixed prefix, the identifier of the provider and a digest; a `d:`
before the digest tells a token without a `jti` from one with it. Digests have one length, so a
key splits into what stands before the digest and the digest. What stands before it may be read
in two ways, since the identifier of a provider may itself end in `:d`.
-/

set_option autoImplicit false

namespace OidcExchange

open Storage Interleaving

/-! ## Assertions and their identity -/

/-- What makes an assertion the one it is, within its provider. -/
inductive AssertionIdentity : Type
  | jti (value : String)
  | token (compactJwt : String)
  deriving DecidableEq

/-- The `jti` that the marker is made of. SOURCE: core/src/service/assertion.rs:415 -/
def IdentityClaims.usableJti (claims : IdentityClaims) : Option String :=
  (claims.strClaim "jti").filter (· ≠ "")

/-- An assertion as the controls see it. -/
structure SeenAssertion : Type where
  ctx : AssertionContext
  claims : IdentityClaims

namespace SeenAssertion

variable (a b : SeenAssertion)

def identity : AssertionIdentity :=
  match a.claims.usableJti with
  | some jti => .jti jti
  | none => .token a.ctx.compactJwt

/-- The same assertion of the same provider. -/
def Same : Prop := a.ctx.providerId = b.ctx.providerId ∧ a.identity = b.identity

instance : Decidable (a.Same b) := inferInstanceAs (Decidable (_ ∧ _))

/-- The text that is digested. -/
def marked : String := a.claims.usableJti.getD a.ctx.compactJwt

/-- What stands between the prefix and the digest. -/
def label : String :=
  match a.claims.usableJti with
  | some _ => a.ctx.providerId ++ ":"
  | none => a.ctx.providerId ++ ":" ++ "d:"

/-- The first carries a `jti` that spells the second, under the identifier of the second's
provider followed by `:d`. -/
def Spells : Prop :=
  a.ctx.providerId = b.ctx.providerId ++ ":d" ∧ a.claims.usableJti = some b.ctx.compactJwt ∧
    b.claims.usableJti = none

variable (d : Deployment)

def key : String := assertionMarkerKey d a.ctx a.claims

/-- Claiming the marker of the first leaves the outcome for the second as it was. -/
def Spares : Prop :=
  ∀ now now' expiresAt expiresAt' t,
    (SingleUseStore.port.put now' (b.key d) expiresAt'
      (SingleUseStore.port.put now (a.key d) expiresAt t).2).1 =
    (SingleUseStore.port.put now' (b.key d) expiresAt' t).1

/-- What the markers of two assertions are for. -/
structure MarkersIdentify : Prop where
  key_eq_iff : a.key d = b.key d ↔ a.Same b
  not_nonce : ∀ nonce, a.key d ≠ nonceKey d nonce ∧ b.key d ≠ nonceKey d nonce
  spares : ¬ a.Same b → a.Spares b d ∧ b.Spares a d

end SeenAssertion

/-! ## Keys -/

section Keys

open SeenAssertion

variable {d : Deployment} {a b : SeenAssertion}

/-- A key is its label and a digest. -/
theorem key_eq : a.key d = "assertion:" ++ (a.label ++ d.digest a.marked) := by
  unfold key label marked assertionMarkerKey IdentityClaims.usableJti
  cases (a.claims.strClaim "jti").filter (· ≠ "") with
  | none => simp only [Option.getD_none, String.append_assoc]
  | some jti => simp only [Option.getD_some, String.append_assoc]

/-- Texts that end in parts of one length agree in both parts. -/
theorem append_inj_of_length {s s' t t' : String} (h : s ++ t = s' ++ t')
    (hlength : t.length = t'.length) : s = s' ∧ t = t' := by
  have hlists : s.toList ++ t.toList = s'.toList ++ t'.toList := by
    simpa using congrArg String.toList h
  obtain ⟨hs, ht⟩ := List.append_inj' hlists (by rwa [String.length_toList, String.length_toList])
  exact ⟨String.toList_injective hs, String.toList_injective ht⟩

theorem key_eq_iff_parts :
    a.key d = b.key d ↔ a.label = b.label ∧ d.digest a.marked = d.digest b.marked := by
  rw [key_eq, key_eq, String.append_right_inj]
  constructor
  · intro h
    apply append_inj_of_length h
    rw [d.digest_length, d.digest_length]
  · rintro ⟨hlabel, hdigest⟩
    rw [hlabel, hdigest]

/-- Two identifiers before the same separator. -/
theorem append_left_inj' {s s' t : String} : s ++ t = s' ++ t ↔ s = s' := by
  constructor
  · intro h
    exact (append_inj_of_length h rfl).1
  · intro h
    rw [h]

/-- Where the labels and the digested texts agree, the assertions are the same or one spells the
other. -/
theorem same_or_spells (hlabel : a.label = b.label) (hmarked : a.marked = b.marked) :
    a.Same b ∨ a.Spells b ∨ b.Spells a := by
  have hcut : ∀ p q : String, p ++ ":" = q ++ ":" ++ "d:" → p = q ++ ":d" := by
    intro p q h
    have hsplit : p ++ ":" = (q ++ ":d") ++ ":" := by
      rw [h, String.append_assoc, String.append_assoc]
      rfl
    exact append_left_inj'.mp hsplit
  unfold label marked at *
  unfold Same Spells identity
  cases ha : a.claims.usableJti with
  | none =>
    cases hb : b.claims.usableJti with
    | none =>
      simp only [ha, hb, Option.getD_none] at hlabel hmarked
      exact .inl ⟨append_left_inj'.mp (append_left_inj'.mp hlabel), by rw [hmarked]⟩
    | some jti =>
      simp only [ha, hb, Option.getD_none, Option.getD_some] at hlabel hmarked
      exact .inr (.inr ⟨hcut _ _ hlabel.symm, by rw [hmarked], rfl⟩)
  | some jti =>
    cases hb : b.claims.usableJti with
    | none =>
      simp only [ha, hb, Option.getD_none, Option.getD_some] at hlabel hmarked
      exact .inr (.inl ⟨hcut _ _ hlabel, by rw [hmarked], rfl⟩)
    | some jti' =>
      simp only [ha, hb, Option.getD_some] at hlabel hmarked
      exact .inl ⟨append_left_inj'.mp hlabel, by rw [hmarked]⟩

theorem parts_of_same (h : a.Same b) : a.label = b.label ∧ a.marked = b.marked := by
  obtain ⟨hprovider, hidentity⟩ := h
  unfold identity at hidentity
  unfold label marked
  cases ha : a.claims.usableJti with
  | none =>
    cases hb : b.claims.usableJti with
    | none =>
      simp only [ha, hb, AssertionIdentity.token.injEq] at hidentity
      exact ⟨by rw [hprovider], hidentity⟩
    | some jti => simp [ha, hb] at hidentity
  | some jti =>
    cases hb : b.claims.usableJti with
    | none => simp [ha, hb] at hidentity
    | some jti' =>
      simp only [ha, hb, AssertionIdentity.jti.injEq] at hidentity
      exact ⟨by rw [hprovider], hidentity⟩

theorem parts_of_spells (h : a.Spells b) : a.label = b.label ∧ a.marked = b.marked := by
  obtain ⟨hprovider, ha, hb⟩ := h
  unfold label marked
  rw [ha, hb, hprovider]
  constructor
  · show b.ctx.providerId ++ ":d" ++ ":" = b.ctx.providerId ++ ":" ++ "d:"
    rw [String.append_assoc, String.append_assoc]
    rfl
  · rfl

/-- What one assertion spells is another one. -/
theorem not_same_of_spells (h : a.Spells b) : ¬ a.Same b := by
  rintro ⟨-, hidentity⟩
  obtain ⟨-, ha, hb⟩ := h
  simp [identity, ha, hb] at hidentity

/-! ## The store -/

/-- A claim under one key leaves what is recorded under another. -/
theorem lookup_put_of_ne {now expiresAt : Instant} {key key' : String} (hne : key' ≠ key)
    (t : Table String Instant) :
    (SingleUseStore.port.put now key expiresAt t).2.lookup key' = t.lookup key' := by
  obtain ⟨-, hput⟩ | ⟨-, hsame⟩ := put_cases now key expiresAt t
  · rw [hput]
    exact AList.lookup_insert_ne hne
  · rw [hsame]

/-- The outcome of a claim rests on what is recorded under its key. -/
theorem put_congr {now expiresAt : Instant} {key : String} {t t' : Table String Instant}
    (h : t.lookup key = t'.lookup key) :
    (SingleUseStore.port.put now key expiresAt t).1 =
      (SingleUseStore.port.put now key expiresAt t').1 := by
  simp only [SingleUseStore.port, h]
  by_cases hkey : key = ""
  · rw [if_pos hkey, if_pos hkey]
  · rw [if_neg hkey, if_neg hkey]
    cases t'.lookup key with
    | none => rfl
    | some expiry =>
      by_cases hlive : now < expiry
      · simp [hlive]
      · simp [hlive]

theorem spares_of_ne (h : a.key d ≠ b.key d) : a.Spares b d := by
  intro now now' expiresAt expiresAt' t
  apply put_congr
  exact lookup_put_of_ne h.symm t

/-! ## The claim -/

/-- **The markers of two assertions identify them** exactly where neither spells the other: then
their keys are equal only for the same assertion of the same provider, no key is that of a
nonce, and claiming one leaves the outcome for the other. -/
theorem markers_identify_iff (d : Deployment) (a b : SeenAssertion)
    (hsha : d.digest a.marked = d.digest b.marked → a.marked = b.marked) :
    a.MarkersIdentify b d ↔ ¬ a.Spells b ∧ ¬ b.Spells a := by
  constructor
  · intro h
    have hdiffer : ∀ {p q : SeenAssertion}, (p.key d = q.key d → p.Same q) → ¬ p.Spells q := by
      intro p q hkey hspells
      obtain ⟨hlabel, hmarked⟩ := parts_of_spells hspells
      apply not_same_of_spells hspells
      apply hkey
      exact key_eq_iff_parts.mpr ⟨hlabel, by rw [hmarked]⟩
    refine ⟨hdiffer h.key_eq_iff.mp, hdiffer fun hkey => ?_⟩
    obtain ⟨hprovider, hidentity⟩ := h.key_eq_iff.mp hkey.symm
    exact ⟨hprovider.symm, hidentity.symm⟩
  · rintro ⟨hab, hba⟩
    have hkey : a.key d = b.key d ↔ a.Same b := by
      constructor
      · intro heq
        obtain ⟨hlabel, hdigest⟩ := key_eq_iff_parts.mp heq
        obtain hsame | hspells | hspells := same_or_spells hlabel (hsha hdigest)
        · exact hsame
        · exact absurd hspells hab
        · exact absurd hspells hba
      · intro hsame
        obtain ⟨hlabel, hmarked⟩ := parts_of_same hsame
        exact key_eq_iff_parts.mpr ⟨hlabel, by rw [hmarked]⟩
    constructor
    · exact hkey
    · exact fun nonce => ⟨(nonceKey_ne_marker nonce _ _).symm, (nonceKey_ne_marker nonce _ _).symm⟩
    · intro hother
      have hne : a.key d ≠ b.key d := fun heq => hother (hkey.mp heq)
      exact ⟨spares_of_ne hne, spares_of_ne hne.symm⟩

end Keys

/-! ## Two providers -/

/-- An assertion of a provider, with a `jti` or without one. -/
def assertionOf (providerId : String) (jti : Option String) (compactJwt : String) :
    SeenAssertion where
  ctx := { providerId := providerId, clientId := "app", compactJwt := compactJwt,
           requireNonce := true, accessToken := none, maxAssertionSecs := 600 }
  claims := { Sample.claims with
    rawClaims := match jti with
      | some jti => (∅ : Table String Value).insert "jti" (.string jti)
      | none => ∅ }

/-- Two assertions of one provider, with a `jti` and without one. -/
theorem markers_identify_one_provider :
    (assertionOf "google" (some "id-1") "e30.e30.MQ").MarkersIdentify
      (assertionOf "google" none "e30.e30.Mg") (Sample.deployment true) :=
  (markers_identify_iff (Sample.deployment true) (assertionOf "google" (some "id-1") "e30.e30.MQ")
    (assertionOf "google" none "e30.e30.Mg") (by decide +kernel)).mpr
    ⟨fun h => absurd h.1 (by decide +kernel), fun h => absurd h.1 (by decide +kernel)⟩

/-- A block of a generic provider. -/
def oidcBlock : RawProviderConfig where
  adapter := "oidc"
  extra := (∅ : Table String TomlValue).insert "issuer" (.string "https://idp.example")

/-- Two accepted providers whose assertions block each other: the second issues a `jti` that is
the compact token of the first, and no marker of the first can be claimed after it. -/
theorem markers_identify_fails :
    (∃ providers, resolveProviders plainTables [("corp", oidcBlock), ("corp:d", oidcBlock)] =
        .ok providers ∧
      providers.map (fun entry => entry.2.builtId entry.1) = ["corp", "corp:d"]) ∧
    ¬ (assertionOf "corp:d" (some "e30.e30.c2ln") "e30.e30.b3Ro").Same (assertionOf "corp" none "e30.e30.c2ln") ∧
    (assertionOf "corp:d" (some "e30.e30.c2ln") "e30.e30.b3Ro").key (Sample.deployment true) =
      (assertionOf "corp" none "e30.e30.c2ln").key (Sample.deployment true) ∧
    ¬ (assertionOf "corp:d" (some "e30.e30.c2ln") "e30.e30.b3Ro").MarkersIdentify
      (assertionOf "corp" none "e30.e30.c2ln") (Sample.deployment true) := by
  have hkey : (assertionOf "corp:d" (some "e30.e30.c2ln") "e30.e30.b3Ro").key (Sample.deployment true) =
      (assertionOf "corp" none "e30.e30.c2ln").key (Sample.deployment true) := by decide +kernel
  have hother : ¬ (assertionOf "corp:d" (some "e30.e30.c2ln") "e30.e30.b3Ro").Same
      (assertionOf "corp" none "e30.e30.c2ln") := by decide +kernel
  refine ⟨exists_ok_of_test (by decide +kernel), hother, hkey, ?_⟩
  exact fun h => hother (h.key_eq_iff.mp hkey)

end OidcExchange
