import OidcExchange.Analysis.AssertionLifetime
import OidcExchange.Analysis.LifetimePanics
import OidcExchange.Program.Assertion

/-!
# What binds an assertion to its client and its access token

The two controls read `azp` and `at_hash` as texts, so a member of another type counts as none. An
assertion that is accepted is bound by the two where they are texts or absent, and by nothing else.
-/

set_option autoImplicit false

namespace OidcExchange

open Storage Interleaving

/-- What the two controls have before them. -/
structure AssertionMembers : Type where
  azp : Option Value
  aud : Option Value
  atHash : Option Value
  algorithm : JwsAlgorithm
  clientId : String
  accessToken : Option String

/-- The claims and the context of a call present this. -/
structure Presents (claims : IdentityClaims) (ctx : AssertionContext) (p : AssertionMembers) : Prop where
  azp : claims.rawClaims.lookup "azp" = p.azp
  aud : claims.rawClaims.lookup "aud" = p.aud
  atHash : claims.rawClaims.lookup "at_hash" = p.atHash
  algorithm : claims.signingAlg = jwsAlgName p.algorithm
  clientId : ctx.clientId = p.clientId
  accessToken : ctx.accessToken = p.accessToken

/-- The size of the digest that goes with an algorithm. -/
def JwsAlgorithm.digestSize : JwsAlgorithm → Option ℕ
  | .hs256 | .es256 | .rs256 | .ps256 => some 256
  | .hs384 | .es384 | .rs384 | .ps384 => some 384
  | .hs512 | .rs512 | .ps512 => some 512
  | .edDsa => none

namespace AssertionMembers

variable (p : AssertionMembers)

/-- Several audiences. -/
def SeveralAudiences : Prop := ∃ items, p.aud = some (.array items) ∧ 1 < items.length

/-- Where `azp` is there it is the client, and among several audiences it is there. -/
structure BoundToClient : Prop where
  same : ∀ value, p.azp = some value → value = .string p.clientId
  required : p.SeveralAudiences → p.azp ≠ none

/-- Where `at_hash` is there it is the left half of the digest of the access token, if there is
one, under the algorithm. -/
def BoundToToken (g : GrantSettings) : Prop :=
  ∀ value token, p.atHash = some value → p.accessToken = some token →
    ∃ bits, p.algorithm.digestSize = some bits ∧ value = .string (g.leftHalf bits token)

/-- The value is absent or a text. -/
def IsText (value : Option Value) : Prop := ∀ v, value = some v → ∃ text, v = .string text

/-- The control of `azp` refuses: a text that is not the client, or no text among several
audiences. -/
def AzpRefused : Prop :=
  (∃ text, p.azp = some (.string text) ∧ text ≠ p.clientId) ∨
    ((∀ text, p.azp ≠ some (.string text)) ∧ p.SeveralAudiences)

/-- The control of `at_hash` refuses: a text that no digest is defined for, or that is not the
digest of the access token. -/
def AtHashRefused (g : GrantSettings) : Prop :=
  ∃ text, p.atHash = some (.string text) ∧ (p.algorithm = .edDsa ∨ ∃ token bits,
    p.accessToken = some token ∧ p.algorithm.digestSize = some bits ∧ text ≠ g.leftHalf bits token)

/-- Nothing but texts, or a refusal on other grounds. -/
def ReadAsText (g : GrantSettings) : Prop :=
  p.AzpRefused ∨ p.AtHashRefused g ∨
    (IsText p.azp ∧ (p.accessToken = none ∨ IsText p.atHash))

end AssertionMembers

/-! ## The two controls -/

variable {d : Deployment} {g : GrantSettings} {claims : IdentityClaims} {ctx : AssertionContext}
  {p : AssertionMembers} {now : Instant}

/-- The digest that the suffix of a name selects is that of the algorithm. -/
theorem atHashValue_jwsAlgName (g : GrantSettings) (algorithm : JwsAlgorithm) (token : String) :
    atHashValue g (jwsAlgName algorithm) token =
      algorithm.digestSize.map fun bits => g.leftHalf bits token := by
  cases algorithm <;> rfl

theorem jwsAlgName_eq_edDsa {algorithm : JwsAlgorithm} :
    jwsAlgName algorithm = "EdDSA" ↔ algorithm = .edDsa := by
  cases algorithm <;> decide

/-- A text that a member has, where it has one. -/
theorem strClaim_eq_some_iff {name text : String} :
    claims.strClaim name = some text ↔ claims.rawClaims.lookup name = some (.string text) := by
  rw [IdentityClaims.strClaim]
  constructor
  · intro h
    obtain ⟨value, hvalue, htext⟩ := Option.bind_eq_some_iff.mp h
    cases value with
    | string s =>
      obtain rfl := Option.some.inj htext
      exact hvalue
    | _ => exact nomatch htext
  · intro h
    rw [h]
    rfl

theorem strClaim_eq_none_iff {name : String} :
    claims.strClaim name = none ↔ ∀ text, claims.rawClaims.lookup name ≠ some (.string text) := by
  rw [Option.eq_none_iff_forall_ne_some]
  exact forall_congr' fun text => not_congr strClaim_eq_some_iff

theorem audIsMulti_iff (h : Presents claims ctx p) :
    claims.audIsMulti = true ↔ p.SeveralAudiences := by
  rw [IdentityClaims.audIsMulti, AssertionMembers.SeveralAudiences, h.aud]
  constructor
  · intro hmulti
    split at hmulti
    · rename_i items haud
      exact ⟨items, haud, of_decide_eq_true hmulti⟩
    · exact nomatch hmulti
  · rintro ⟨items, haud, hlength⟩
    rw [haud]
    exact decide_eq_true hlength

/-- **The control of `azp`.** -/
theorem checkAzp_eq_ok_iff (h : Presents claims ctx p) :
    checkAzp claims ctx = .ok () ↔ ¬ p.AzpRefused := by
  rw [checkAzp, AssertionMembers.AzpRefused, h.clientId]
  cases hazp : claims.strClaim "azp" with
  | some azp =>
    have hlookup : p.azp = some (.string azp) := h.azp.symm.trans (strClaim_eq_some_iff.mp hazp)
    by_cases hsame : azp = p.clientId
    · simp [hlookup, hsame]
    · simp [hlookup, hsame, rejected]
  | none =>
    have hnone : ∀ text, p.azp ≠ some (.string text) := h.azp ▸ strClaim_eq_none_iff.mp hazp
    by_cases hmulti : claims.audIsMulti = true
    · simp [hnone, hmulti, (audIsMulti_iff h).mp hmulti, rejected]
    · have hfew : ¬ p.SeveralAudiences := fun hseveral => hmulti ((audIsMulti_iff h).mpr hseveral)
      simp [hnone, hmulti, hfew]

/-- Every algorithm but one has a digest. -/
theorem digestSize_isSome {algorithm : JwsAlgorithm} (h : algorithm ≠ .edDsa) :
    ∃ bits, algorithm.digestSize = some bits := by
  cases algorithm with
  | edDsa => exact absurd rfl h
  | _ => exact ⟨_, rfl⟩

/-- **The control of `at_hash`.** -/
theorem checkAtHash_eq_ok_iff (h : Presents claims ctx p) :
    checkAtHash g claims ctx = .ok () ↔ ¬ p.AtHashRefused g := by
  rw [checkAtHash, AssertionMembers.AtHashRefused, h.algorithm, h.accessToken]
  cases hclaimed : claims.strClaim "at_hash" with
  | none =>
    have hnone : ∀ text, p.atHash ≠ some (.string text) :=
      h.atHash ▸ strClaim_eq_none_iff.mp hclaimed
    simp [hnone]
  | some claimed =>
    have hlookup : p.atHash = some (.string claimed) :=
      h.atHash.symm.trans (strClaim_eq_some_iff.mp hclaimed)
    by_cases hed : p.algorithm = .edDsa
    · simp [hlookup, hed, jwsAlgName, rejected]
    · obtain ⟨bits, hbits⟩ := digestSize_isSome hed
      simp only [hlookup, hed, mt jwsAlgName_eq_edDsa.mp hed, if_false, false_or]
      cases htoken : p.accessToken with
      | none => simp
      | some token =>
        have hexpected : atHashValue g (jwsAlgName p.algorithm) token =
            some (g.leftHalf bits token) := by
          rw [atHashValue_jwsAlgName, hbits]
          rfl
        simp only [hexpected]
        by_cases hsame : g.leftHalf bits token = claimed
        · simp [hsame, hbits]
        · simp [hsame, hbits, rejected, Ne.symm hsame]

/-! ## Accepted assertions -/

/-- An accepted assertion has passed both controls. -/
theorem controls_of_accepted {answers : (o : BindingOp) → BindingAns o}
    (haccepted : (Assertion.bind d g claims ctx).run answers = .ok ()) :
    checkAzp claims ctx = .ok () ∧ checkAtHash g claims ctx = .ok () := by
  obtain ⟨now, -, hrest⟩ := Program.ok_of_run_bind haccepted
  obtain ⟨expiresAt, hcontrols, -⟩ := Program.ok_of_run_bind hrest
  have hread : readingControls d g claims ctx now = .ok expiresAt := by
    cases hresult : readingControls d g claims ctx now with
    | ok e =>
      rw [hresult] at hcontrols
      exact hcontrols
    | error e =>
      rw [hresult] at hcontrols
      exact nomatch hcontrols
  obtain ⟨_, -, hrest⟩ := ok_of_bind hread
  obtain ⟨⟨⟩, hazp, hrest⟩ := ok_of_bind hrest
  obtain ⟨⟨⟩, hatHash, -⟩ := ok_of_bind hrest
  exact ⟨hazp, hatHash⟩

/-- **What is accepted is bound** where both members are read as texts. -/
theorem bound_of_readAsText (h : Presents claims ctx p)
    {answers : (o : BindingOp) → BindingAns o}
    (haccepted : (Assertion.bind d g claims ctx).run answers = .ok ()) (hread : p.ReadAsText g) :
    p.BoundToClient ∧ p.BoundToToken g := by
  obtain ⟨hazp, hatHash⟩ := controls_of_accepted haccepted
  have hclient := (checkAzp_eq_ok_iff h).mp hazp
  have htoken := (checkAtHash_eq_ok_iff h).mp hatHash
  obtain hrefused | hrefused | ⟨hazpText, hatHashText⟩ := hread
  · exact absurd hrefused hclient
  · exact absurd hrefused htoken
  · refine ⟨⟨fun value hvalue => ?_, fun hseveral hnone => ?_⟩, fun value token hvalue hgiven => ?_⟩
    · obtain ⟨text, rfl⟩ := hazpText value hvalue
      by_contra hother
      exact hclient (Or.inl ⟨text, hvalue, fun hsame => hother (congrArg Value.string hsame)⟩)
    · exact hclient (Or.inr ⟨fun text htext => (nomatch hnone.symm.trans htext), hseveral⟩)
    · obtain hnone | htext := hatHashText
      · exact nomatch hnone.symm.trans hgiven
      · obtain ⟨text, rfl⟩ := htext value hvalue
        have hed : p.algorithm ≠ .edDsa := fun hed => htoken ⟨text, hvalue, Or.inl hed⟩
        obtain ⟨bits, hbits⟩ := digestSize_isSome hed
        refine ⟨bits, hbits, ?_⟩
        by_contra hother
        exact htoken ⟨text, hvalue, Or.inr ⟨token, bits, hgiven, hbits,
          fun hsame => hother (congrArg Value.string hsame)⟩⟩

/-! ## An assertion with given members -/

/-- Claims with a member, where there is one. -/
def withMember (name : String) (value : Option Value) (raw : Table String Value) :
    Table String Value :=
  value.elim raw (raw.insert name)

theorem lookup_withMember {name : String} {value : Option Value} {raw : Table String Value}
    (h : raw.lookup name = none) : (withMember name value raw).lookup name = value := by
  cases value with
  | none => exact h
  | some v => exact AList.lookup_insert raw

theorem lookup_withMember_ne {name name' : String} {value : Option Value} {raw : Table String Value}
    (hne : name' ≠ name) : (withMember name value raw).lookup name' = raw.lookup name' := by
  cases value with
  | none => rfl
  | some v => exact AList.lookup_insert_ne hne

namespace AssertionMembers

/-- Claims that present this and expire in a minute. -/
def sampleClaims (p : AssertionMembers) : IdentityClaims :=
  { expiringClaims 1000000060 with
    signingAlg := jwsAlgName p.algorithm
    rawClaims := withMember "azp" p.azp (withMember "aud" p.aud
      (withMember "at_hash" p.atHash (expiringClaims 1000000060).rawClaims)) }

/-- A call that presents this under a ceiling of an hour. -/
def sampleContext (p : AssertionMembers) : AssertionContext where
  providerId := "idp"
  clientId := p.clientId
  accessToken := p.accessToken
  compactJwt := "jwt"
  requireNonce := false
  maxAssertionSecs := 3600

theorem lookup_expiringClaims {name : String} (hne : name ≠ "exp") (secs : ℤ) :
    (expiringClaims secs).rawClaims.lookup name = none :=
  (AList.lookup_insert_ne hne).trans (AList.lookup_empty name)

theorem presents (p : AssertionMembers) : Presents p.sampleClaims p.sampleContext p where
  azp := by
    refine lookup_withMember ?_
    rw [lookup_withMember_ne (by decide), lookup_withMember_ne (by decide)]
    exact lookup_expiringClaims (by decide) _
  aud := by
    refine (lookup_withMember_ne (by decide)).trans (lookup_withMember ?_)
    rw [lookup_withMember_ne (by decide)]
    exact lookup_expiringClaims (by decide) _
  atHash := by
    refine (lookup_withMember_ne (by decide)).trans ((lookup_withMember_ne (by decide)).trans
      (lookup_withMember ?_))
    exact lookup_expiringClaims (by decide) _
  algorithm := rfl
  clientId := rfl
  accessToken := rfl

theorem expires (p : AssertionMembers) : ExpiresAtSecs p.sampleClaims 1000000060 := by
  refine ⟨1000000060, 0, ?_, Int.tdiv_one _⟩
  refine (lookup_withMember_ne (by decide)).trans ((lookup_withMember_ne (by decide)).trans
    ((lookup_withMember_ne (by decide)).trans ?_))
  exact AList.lookup_insert _

/-- Every port answers in order a minute before the expiry. -/
def answers : (o : BindingOp) → BindingAns o := calmBinding (1000000000 * nanosPerSec) "email"

/-- What both controls let pass is accepted. -/
theorem accepted (hazp : ¬ p.AzpRefused) (hatHash : ¬ p.AtHashRefused g) :
    (Assertion.bind d g p.sampleClaims p.sampleContext).run answers = .ok () := by
  have hlifetime : checkLifetime d p.sampleClaims (1000000000 * nanosPerSec) p.sampleContext.maxAssertionSecs =
      .ok (1000000060 * nanosPerSec) :=
    (checkLifetime_eq_ok_iff (by decide) p.expires (by decide)).mpr
      ⟨by decide, show (_ : ℤ) ≤ signedSecs 3600 by decide, by decide⟩
  have hclient := (checkAzp_eq_ok_iff p.presents).mpr hazp
  have htoken := (@checkAtHash_eq_ok_iff g _ _ _ p.presents).mpr hatHash
  have hread : readingControls d g p.sampleClaims p.sampleContext (1000000000 * nanosPerSec) =
      .ok (1000000060 * nanosPerSec) := by
    simp only [readingControls, hlifetime, hclient, htoken, bind, Except.bind]
  unfold Assertion.bind
  simp only [Program.ask_bind, Program.run_perform]
  show ((Program.ofExcept (readingControls d g p.sampleClaims p.sampleContext (1000000000 * nanosPerSec)) >>=
    _).run _) = _
  rw [hread]
  rfl

end AssertionMembers

/-- Whatever call presents this and is accepted, it is bound to its client and to its token. -/
def AcceptedOnlyBound (d : Deployment) (g : GrantSettings) (p : AssertionMembers) : Prop :=
  ∀ claims ctx, Presents claims ctx p → ∀ answers,
    (Assertion.bind d g claims ctx).run answers = .ok () →
      p.BoundToClient ∧ p.BoundToToken g

/-- What is bound whenever it is accepted is read as text, or refused. -/
theorem readAsText_of_bound (h : AcceptedOnlyBound d g p) : p.ReadAsText g := by
  by_cases hazp : p.AzpRefused
  · exact Or.inl hazp
  · by_cases hatHash : p.AtHashRefused g
    · exact Or.inr (Or.inl hatHash)
    · obtain ⟨hclient, htoken⟩ := h _ _ p.presents _ (AssertionMembers.accepted hazp hatHash)
      refine Or.inr (Or.inr ⟨fun value hvalue => ⟨_, hclient.same value hvalue⟩, ?_⟩)
      cases hgiven : p.accessToken with
      | none => exact Or.inl rfl
      | some token =>
        refine Or.inr fun value hvalue => ?_
        obtain ⟨bits, -, hsame⟩ := htoken value token hvalue hgiven
        exact ⟨_, hsame⟩

/-- **The binding of an assertion** holds exactly where `azp` and `at_hash` are texts or absent, or
one of the controls refuses anyway. -/
theorem binding_holds_iff (d : Deployment) (g : GrantSettings) (p : AssertionMembers) :
    AcceptedOnlyBound d g p ↔ p.ReadAsText g :=
  ⟨readAsText_of_bound, fun hread _ _ hpresents _ haccepted =>
    bound_of_readAsText hpresents haccepted hread⟩

/-- A number for `azp`. -/
def numberedClient : AssertionMembers where
  azp := some (.number 7 0)
  aud := some (.string "app")
  atHash := none
  algorithm := .rs256
  clientId := "app"
  accessToken := none

/-- A `null` for `at_hash` beside an access token. -/
def nullDigest : AssertionMembers :=
  { numberedClient with azp := none, atHash := some .null, accessToken := some "token" }

/-- Neither is refused. -/
theorem binding_fails :
    ¬ AcceptedOnlyBound (Sample.deployment true) ⟨300, fun _ token => token⟩ numberedClient ∧
      ¬ AcceptedOnlyBound (Sample.deployment true) ⟨300, fun _ token => token⟩ nullDigest := by
  constructor
  · intro h
    obtain (⟨text, htext, -⟩ | ⟨-, items, haud, -⟩) | ⟨text, htext, -⟩ | ⟨htexts, -⟩ :=
      readAsText_of_bound h
    · exact nomatch htext
    · exact nomatch haud
    · exact nomatch htext
    · obtain ⟨text, htext⟩ := htexts _ rfl
      exact nomatch htext
  · intro h
    obtain (⟨text, htext, -⟩ | ⟨-, items, haud, -⟩) | ⟨text, htext, -⟩ | ⟨-, hnone | htexts⟩ :=
      readAsText_of_bound h
    · exact nomatch htext
    · exact nomatch haud
    · exact nomatch htext
    · exact nomatch hnone
    · obtain ⟨text, htext⟩ := htexts _ rfl
      exact nomatch htext


end OidcExchange
