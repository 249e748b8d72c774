import OidcExchange.Adapters.Adapter
import OidcExchange.Analysis.LifetimeFlow
import OidcExchange.Analysis.StartUp
import OidcExchange.Analysis.Undisturbed

/-!
# Which accepted lifetimes panic a call

The lifetimes of a configuration are safe exactly where every deadline computed from them can be
represented at every reading of the clock, no access token has a lifetime of zero, and a nonce
has the headroom its assertion asks for. What does not fit is reached by a call whose answers
are all in order.
-/

set_option autoImplicit false

namespace OidcExchange

open Storage Interleaving Service

variable {d : Deployment} {g : GrantSettings} {clock : Instant → Prop} {stored : String → Prop}

/-! ## Binding -/

/-- The ceiling on a validated assertion is computed without a panic, and is above zero where an
assertion passes it. -/
theorem sound_checkLifetime {claims : IdentityClaims} (hclaims : ExpiryClaimed claims)
    {now : Instant} (hyears : WithinYears now) (hpositive : 0 < now.timestamp)
    (maxAssertionSecs : UInt64) :
    Sound (fun _ => 0 < signedSecs maxAssertionSecs)
      (checkLifetime d claims now maxAssertionSecs) := by
  unfold checkLifetime
  split
  · trivial
  · rename_i n hn
    have hlow := hclaims n hn
    have hhigh : n ≤ maxI64 := by
      obtain ⟨v, -, hv⟩ := Option.bind_eq_some_iff.mp hn
      cases v with
      | number m e =>
        obtain rfl := Option.some.inj hv
        exact Int.max_le.mpr ⟨by decide, Int.min_le_right _ _⟩
      | _ => exact nomatch hv
    have hsub : subI64 (ε := AssertionBindError) d n now.timestamp = .ok (n - now.timestamp) := by
      unfold WithinYears nanosPerSec at hyears
      unfold Instant.timestamp nanosPerSec at hpositive ⊢
      unfold maxI64 at hhigh
      unfold subI64 minI64 maxI64
      rw [if_pos]
      constructor <;> omega
    simp only [hsub, hpositive, decide_true, assertThat, if_true, bind, Except.bind]
    split
    · trivial
    · split
      · trivial
      · split
        · trivial
        · rename_i hremaining hceiling _ _ _
          show 0 < signedSecs maxAssertionSecs
          unfold signedSecs
          omega

theorem sound_checkAzp (claims : IdentityClaims) (ctx : AssertionContext) :
    Unbroken (checkAzp claims ctx) := by
  unfold checkAzp
  split <;> split <;> trivial

theorem sound_checkAtHash (claims : IdentityClaims) (ctx : AssertionContext) :
    Unbroken (checkAtHash g claims ctx) := by
  unfold checkAtHash
  repeat' split
  all_goals trivial

theorem sound_claimed {check reason : String} {r : Answer Bool} (hr : Unbroken r) :
    Unbroken (claimed check reason r) := by
  rcases r with (e | _) | (_ | _)
  · trivial
  · exact hr
  · trivial
  · trivial

/-- Binding a validated assertion does not panic once the epoch is past. -/
theorem bind_ensures {claims : IdentityClaims} (hclaims : ExpiryClaimed claims)
    (hyears : ∀ t, clock t → WithinYears t) (hpositive : ∀ t, clock t → 0 < t.timestamp)
    (ctx : AssertionContext) :
    (Assertion.bind d g claims ctx).Ensures (fun _ => True) (BindingAdmits d clock stored)
      (Sound fun _ => 0 < signedSecs ctx.maxAssertionSecs) := by
  have hfault {α β : Type} {P : α → Prop} {Q : β → Prop} (e : Fault AssertionBindError)
      (he : Sound P (.error e)) : Sound Q (.error e) := by
    cases e with
    | error e => trivial
    | panic => exact he
  refine Program.ensures_ask_bind trivial fun now hnow => ?_
  have hreading : Sound (fun _ => 0 < signedSecs ctx.maxAssertionSecs)
      (readingControls d g claims ctx now) := by
    refine (sound_checkLifetime hclaims (hyears now hnow) (hpositive now hnow) _).bind ?_
    intro expiresAt hceiling
    refine (sound_checkAzp claims ctx).bind fun _ _ => ?_
    exact (sound_checkAtHash claims ctx).bind fun _ _ => hceiling
  refine Program.Ensures.bind ((Program.ensures_ofExcept _).mpr hreading)
    (fun expiresAt hceiling => ?_) hfault
  have hmarker : (claimAssertionMarker d claims ctx expiresAt).Ensures (fun _ => True)
      (BindingAdmits d clock stored) (Sound fun _ => 0 < signedSecs ctx.maxAssertionSecs) := by
    refine Program.ensures_ask_bind trivial fun r hr => (Program.ensures_ofExcept _).mpr ?_
    rcases hclaim : claimed "single_use" "assertion has already been used" r with (e | _) | u
    · trivial
    · exact absurd (sound_claimed hr) (by rw [hclaim]; exact id)
    · exact hceiling
  have hnonce : (consumeNonce d claims).Ensures (fun _ => True) (BindingAdmits d clock stored)
      Unbroken := by
    unfold consumeNonce
    split
    · trivial
    · exact Program.ensures_ask_bind trivial fun r hr =>
        (Program.ensures_ofExcept _).mpr (sound_claimed hr)
  show Program.Ensures _ _ _ (if ctx.requireNonce = true then
    consumeNonce d claims >>= fun _ => claimAssertionMarker d claims ctx expiresAt
    else claimAssertionMarker d claims ctx expiresAt)
  split
  · exact Program.Ensures.bind hnonce (fun _ _ => hmarker) hfault
  · exact hmarker

/-- Every operation of the exchange flow is answered as the flow assumes. -/
theorem bindingHandler_ensures (hyears : ∀ t, clock t → WithinYears t)
    (hepoch : ProviderServed d → ∀ t, clock t → 0 < t.timestamp) {ε : Type} (o : Op)
    (ho : BoundValidated d o) :
    ((bindingHandler d g o).infallible : Program BindingAns ε (Ans o)).Ensures (fun _ => True)
      (BindingAdmits d clock stored) (fun r => ∃ ans, r = .ok ans ∧ Admits d clock stored o ans) := by
  cases o with
  | bindAssertion claims ctx =>
    suffices hbound : (bindingHandler d g (.bindAssertion claims ctx)).Ensures (fun _ => True)
        (BindingAdmits d clock stored)
        (fun r => ∃ ans, r = .ok ans ∧ Admits d clock stored (.bindAssertion claims ctx) ans) by
      refine Program.Ensures.mapError hbound ?_ (fun e => e.elim)
      rintro ans ⟨_, ⟨⟩, hans⟩
      exact ⟨ans, rfl, hans⟩
    refine Program.Ensures.attempt_bind (bind_ensures ho.1 hyears (hepoch ho.2) ctx) ?_
    intro r hr
    refine ⟨bindAnswer r, rfl, ?_⟩
    rcases r with ((rejection | e) | _) | u
    · exact fun h => nomatch h
    · trivial
    · exact hr.elim
    · exact fun _ => hr
  | _ => exact ⟨trivial, fun ans hans => ⟨ans, rfl, hans⟩⟩

/-! ## Minting nonces -/

/-- Minting a nonce does not panic when its lifetime has headroom and fits the clock. -/
theorem mintNonce_ensures (hyears : ∀ t, clock t → WithinYears t)
    (hheadroom : g.nonceTtl.toNat ≤ (2 ^ 64 - 1) / 2)
    (hnonce : ∀ t, clock t → DeadlineFits t g.nonceTtl) :
    (mintNonce d g).Ensures (fun _ => True) (BindingAdmits d clock stored) Unbroken := by
  unfold mintNonce
  rw [decide_eq_true hheadroom]
  refine Program.ensures_ask_bind trivial fun nonce hnonceLen => ?_
  have hlen : (nonce.utf8ByteSize == nonceB64urlLen) = true := by simpa using hnonceLen.1
  have hdigest : ((d.digest nonce).length == refreshHashHexLen) = true := by
    simpa using d.digest_length nonce
  rw [hlen, hdigest]
  refine Program.ensures_ask_bind trivial fun now hnow => ?_
  obtain ⟨e, he⟩ := deadline_isSome (hyears now hnow) (hnonce now hnow)
  obtain ⟨ttl, hspan, hadd⟩ := Option.bind_eq_some_iff.mp he
  rw [hspan]
  show Program.Ensures _ _ _ (Program.ofExcept (expectSome (now.add ttl)) >>= _)
  rw [hadd]
  refine Program.ensures_ask_bind trivial fun r hr => ?_
  rcases r with (e | _) | (_ | _)
  · trivial
  · exact hr
  · trivial
  · trivial

/-! ## Calls that are answered in order -/

section Calm

open Adapter.Sample

/-- A user who is served. -/
def calmUser : User where
  id := theUser
  externalId := "subject"
  provider := "idp"
  email := none
  displayName := none
  metadata := ∅
  claims := ∅
  status := .active
  version := 1
  createdAt := 0
  updatedAt := 0

/-- The claims of an assertion that lives one more second. -/
def calmClaims (t : Instant) (email : String) : IdentityClaims where
  subject := "subject"
  email := some email
  emailVerified := some true
  name := none
  isPrivateEmail := none
  signingAlg := "RS256"
  rawClaims := (∅ : Table String Value).insert "exp" (.number (t.timestamp + 1) 0)

/-- Every port answers in order at the instant `t`; a rotation is answered as given. -/
def calmAnswers (t : Instant) (rotated : Answer Bool) (email : String) : (o : Op) → Ans o
  | .now => t
  | .randomToken => String.ofList (List.replicate nonceB64urlLen 'A')
  | .newFamilyId => theFamily
  | .resolveRefreshToken _ => .ok (.live { generation "live" 0 with expiresAt := t })
  | .rotateRefreshToken _ _ => rotated
  | .storeRefreshToken _ => .ok ()
  | .revokeSession _ => .ok ()
  | .revokeFamily _ => .ok 0
  | .revokeAllUserSessions _ => .ok 0
  | .getUserById _ => .ok (some calmUser)
  | .getUserByExternalId _ _ => .ok (some calmUser)
  | .createUser _ => .ok calmUser
  | .writeUser _ _ _ => .ok true
  | .sign _ _ _ _ => .ok "signature"
  | .emit _ => .ok ()
  | .notify _ => .ok ()
  | .checkAndConsume _ => .ok .allow
  | .exchangeCode _ _ _ => .ok { idToken := "id", refreshToken := none, accessToken := none }
  | .validateIdToken _ _ => .ok (calmClaims t email)
  | .bindAssertion _ _ => .ok (some ⟨"single_use", "assertion has already been used"⟩)

/-- The same for a call whose binding controls are written out. -/
def calmBinding (t : Instant) (email : String) : (o : BindingOp) → BindingAns o
  | .port o => calmAnswers t (.ok true) email o
  | .putSingleUse _ _ => .ok true
  | .takeSingleUse _ => .ok true

variable {t : Instant} {email : String}

/-- No digest is as short as the hash of the live session. -/
theorem digest_ne_live (d : Deployment) (raw : String) : d.digest raw ≠ "live" := by
  intro hraw
  have hlen := d.digest_length raw
  rw [hraw] at hlen
  exact absurd hlen (by decide)

/-- These answers are the assumed ones. -/
theorem calmAnswers_admitted (email : String) (ht : clock t) (hyears : WithinYears t)
    {rotated : Answer Bool} (hrotated : ∀ live replacement,
      Admits d clock (· = "live") (.rotateRefreshToken live replacement) rotated) (o : Op) :
    Admits d clock (· = "live") o (calmAnswers t rotated email o) := by
  have huser : calmUser.id ≠ "" := by decide
  have hfamily : isValidFamilyId theFamily = true := by decide
  have hlive : "live" ≠ "" := by decide
  have howner : theUser ≠ "" := by decide
  have hzero : (0 : UInt32).toNat + 1 < 2 ^ 32 := by decide
  have hlength : (String.ofList (List.replicate nonceB64urlLen 'A')).utf8ByteSize =
      nonceB64urlLen := by decide
  cases o with
  | now => exact ht
  | randomToken => exact ⟨hlength, digest_ne_live d _⟩
  | newFamilyId => exact hfamily
  | resolveRefreshToken h => exact ⟨rfl, hlive, howner, Or.inr hfamily, hzero⟩
  | rotateRefreshToken live replacement => exact hrotated live replacement
  | getUserById id => exact fun u hu => Option.some.inj hu ▸ huser
  | getUserByExternalId e p => exact fun u hu => Option.some.inj hu ▸ huser
  | createUser user => exact huser
  | exchangeCode p c r => exact (by decide : "id" ≠ "")
  | validateIdToken p i =>
    refine ⟨(by decide : "subject" ≠ ""), fun n hn => ?_⟩
    have hexp : max minI64 (min ((t.timestamp + 1).tdiv (10 ^ 0)) maxI64) = n :=
      Option.some.inj hn
    have hpositive : 0 ≤ t.timestamp := Int.ediv_nonneg hyears.1 (by decide)
    have hdiv : (t.timestamp + 1).tdiv (10 ^ 0) = t.timestamp + 1 := Int.tdiv_one _
    rw [hdiv] at hexp
    unfold minI64 maxI64 at hexp
    omega
  | bindAssertion c x => exact fun h => nomatch h
  | _ => trivial

/-- A refresh of a live token, answered in order, comes to the access token. -/
theorem refresh_run_calm (request : RefreshRequest) (hrequest : request.refreshToken ≠ "")
    (hpanic : (buildAccessToken d calmUser theFamily).run (calmAnswers t (.ok true) email) =
      .error .panic) :
    (refresh d request).run (calmAnswers t (.ok true) email) = .error .panic := by
  have hlen : ∀ raw, (d.digest raw).length = refreshHashHexLen := d.digest_length
  have hne := digest_ne_live d
  have hfamily : isValidFamilyId theFamily = true := by decide
  have hnamed : theFamily ≠ "" := by decide
  have hserved : calmUser.status = .active := rfl
  have howner : calmUser.id ≠ "" := by decide
  cases hrotation : d.refreshRotation with
  | true =>
    simp [refresh, Service.assert, Service.await, hrequest, hlen, hrotation, calmAnswers, redeem,
      rotateAndRespond, mintReplacement, hne, generation, replacementFamily, succU32, hserved,
      respondToRotation, replacementOf, hfamily, hnamed, Program.run_bind, hpanic]
    rfl
  | false =>
    simp [refresh, Service.assert, Service.await, hrequest, hlen, hrotation, calmAnswers,
      refreshWithoutRotation, generation, hserved, Program.run_bind, hpanic]
    rfl

/-- A refresh with rotation, answered in order but for a rotation that panics, panics. -/
theorem refresh_run_rotation_panic (request : RefreshRequest)
    (hrequest : request.refreshToken ≠ "") (hrotation : d.refreshRotation = true) :
    (refresh d request).run (calmAnswers t (.error .panic) email) = .error .panic := by
  have hlen : ∀ raw, (d.digest raw).length = refreshHashHexLen := d.digest_length
  have hne := digest_ne_live d
  have hfamily : isValidFamilyId theFamily = true := by decide
  have hnamed : theFamily ≠ "" := by decide
  have hserved : calmUser.status = .active := rfl
  simp [refresh, Service.assert, Service.await, hrequest, hlen, hrotation, calmAnswers, redeem,
    rotateAndRespond, mintReplacement, hne, generation, replacementFamily, succU32, hserved,
    replacementOf, hfamily, hnamed]

/-- The access token overflows. -/
theorem buildAccessToken_run_calm (hyears : WithinYears t) (hover : ¬ ExpFits d t)
    (familyId : String) (hfamily : familyId = "" ∨ isValidFamilyId familyId = true)
    (rotated : Answer Bool) :
    (buildAccessToken d calmUser familyId).run (calmAnswers t rotated email) =
      .error .panic := by
  have howner : calmUser.id ≠ "" := by decide
  have hiat := toNat_timestamp hyears
  have hsum : d.overflowChecks = true ∧ 2 ^ 64 ≤
      (UInt64.ofInt t.timestamp).toNat + d.accessTokenTtl.toNat := by
    unfold ExpFits at hover
    push Not at hover
    exact ⟨hover.1, by omega⟩
  have hbig : 18446744073709551616 ≤
      (UInt64.ofInt t.timestamp).toNat + d.accessTokenTtl.toNat := hsum.2
  have hvalid : (familyId.isEmpty || isValidFamilyId familyId) = true := by
    rcases hfamily with rfl | h <;> simp [*]
  unfold buildAccessToken addU64
  simp only [Service.assert, hvalid, if_true, Program.done_bind]
  simp [howner, calmAnswers, hsum.1, hbig]

/-- The instant the assertion of the calm claims expires at. -/
theorem checkLifetime_calm (hyears : WithinYears t) (maxAssertionSecs : UInt64) :
    checkLifetime d (calmClaims t email) t maxAssertionSecs =
      if 0 < t.timestamp then
        if 0 < signedSecs maxAssertionSecs then .ok ((t.timestamp + 1) * nanosPerSec)
        else rejected "lifetime_ceiling" "assertion lifetime exceeds the configured maximum"
      else .error .panic := by
  unfold WithinYears nanosPerSec at hyears
  have hsecs : 0 ≤ t.timestamp ∧ t.timestamp < 4133980800 := by
    unfold Instant.timestamp nanosPerSec
    omega
  have hexp : ((calmClaims t email).rawClaims.lookup "exp").bind Value.numericDate =
      some (t.timestamp + 1) := by
    have hdiv : (t.timestamp + 1).tdiv (10 ^ 0) = t.timestamp + 1 := Int.tdiv_one _
    simp only [calmClaims, AList.lookup_insert, Option.bind_some, Value.numericDate, hdiv]
    unfold minI64 maxI64
    congr 1
    omega
  have hsub : subI64 (ε := AssertionBindError) d (t.timestamp + 1) t.timestamp = .ok 1 := by
    have hone : t.timestamp + 1 - t.timestamp = 1 := by omega
    unfold subI64
    rw [hone]
    rfl
  have hinstant : Instant.ofTimestamp (t.timestamp + 1) =
      some ((t.timestamp + 1) * nanosPerSec) := by
    unfold Instant.ofTimestamp minInstantSecs endInstantSecs
    rw [if_pos]
    constructor <;> omega
  unfold checkLifetime
  rw [hexp]
  by_cases hpositive : 0 < t.timestamp
  · by_cases hceiling : 0 < signedSecs maxAssertionSecs
    · have hnot : ¬ maxAssertionSecs.toInt64.toInt < 1 := by
        unfold signedSecs at hceiling
        omega
      simp [hpositive, hceiling, hsub, assertThat, hnot, hinstant, bind, Except.bind]
    · have hlow : maxAssertionSecs.toInt64.toInt < 1 := by
        unfold signedSecs at hceiling
        omega
      simp [hpositive, hceiling, hsub, assertThat, hlow, bind, Except.bind]
  · simp [hpositive, assertThat, bind, Except.bind]

/-- Binding the calm claims, outside the direct grant. -/
theorem bind_run_calm (hyears : WithinYears t) {ctx : AssertionContext}
    (hdirect : ctx.requireNonce = false) :
    (Assertion.bind d g (calmClaims t email) ctx).run (calmBinding t email) =
      if 0 < t.timestamp then
        if 0 < signedSecs ctx.maxAssertionSecs then .ok ()
        else rejected "lifetime_ceiling" "assertion lifetime exceeds the configured maximum"
      else .error .panic := by
  have hazp : checkAzp (calmClaims t email) ctx = .ok () := rfl
  have hatHash : checkAtHash g (calmClaims t email) ctx = .ok () := rfl
  unfold Assertion.bind
  simp only [Program.ask_bind, Program.run_perform]
  show ((Program.ofExcept (readingControls d g (calmClaims t email) ctx t) >>= _).run _) = _
  rw [readingControls, checkLifetime_calm hyears, hazp, hatHash]
  by_cases hpositive : 0 < t.timestamp
  · by_cases hceiling : 0 < signedSecs ctx.maxAssertionSecs
    · simp [hpositive, hceiling, hdirect, bind, Except.bind]
      rfl
    · simp [hpositive, hceiling, rejected, bind, Except.bind]
      rfl
  · simp [hpositive, bind, Except.bind]
    rfl

/-- The answers the exchange flow gets when its binding controls are written out. -/
def boundAnswers (d : Deployment) (g : GrantSettings) (t : Instant) (email : String) (o : Op) :
    Ans o :=
  (bindingHandler d g o).value (calmBinding t email)

theorem boundAnswers_bind (claims : IdentityClaims) (ctx : AssertionContext) :
    boundAnswers d g t email (.bindAssertion claims ctx) =
      bindAnswer ((Assertion.bind d g claims ctx).run (calmBinding t email)) :=
  Program.value_attempt_bind _ _ _

/-- An exchange of a code at the provider `name`. -/
def codeRequest (name : String) : ExchangeRequest where
  credential := .authorizationCode "code" "uri"
  provider := name
  providerAccessToken := none
  clientAddr := .unknown
  userAgent := none
  deviceId := none
  location := none

/-- What asking the provider comes to: the claims once the epoch is past and the ceiling above
zero. -/
theorem authenticate_run_calm (hyears : WithinYears t) {name : String} {provider : Provider}
    (hprovider : d.providers.lookup name = some provider)
    (hname : name.utf8ByteSize ≤ maxRateLimitProviderLen)
    (h : 0 < t.timestamp → 0 < signedSecs d.maxAssertionLifetime) :
    (authenticate d (codeRequest name)).run (boundAnswers d g t email) =
      if 0 < t.timestamp then .ok (calmClaims t email) else .error .panic := by
  have hkey : RateLimitKey.ofProvider (codeRequest name).provider = some (.provider name) :=
    if_pos hname
  have hsubject : RateLimitKey.ofSubject d (some (codeRequest name).provider) "subject" =
      some (.subject (some name) (d.digest "subject")) := if_neg (Nat.not_lt.mpr hname)
  have hlimit (key : RateLimitKey) :
      (inFlow (consumeLimit (some key))).run (boundAnswers d g t email) = .ok () := rfl
  have hclaims : (inFlow (authenticateCredential (codeRequest name))).run
      (boundAnswers d g t email) = .ok (calmClaims t email, "id", none) := by
    simp [inFlow, authenticateCredential, codeRequest, Service.await, Service.assert]
    rfl
  have hlookup : d.providers.lookup (codeRequest name).provider = some provider := hprovider
  have hbind (ctx : AssertionContext) (hdirect : ctx.requireNonce = false)
      (hmax : ctx.maxAssertionSecs = d.maxAssertionLifetime) :
      (enforceAssertionBinding (calmClaims t email) ctx).run (boundAnswers d g t email) =
        if 0 < t.timestamp then .ok () else .error .panic := by
    unfold enforceAssertionBinding
    rw [Program.run_bind, Program.run_mapError]
    have hport : (Port.bindAssertion (calmClaims t email) ctx).run (boundAnswers d g t email) =
        bindAnswer ((Assertion.bind d g (calmClaims t email) ctx).run (calmBinding t email)) := by
      rw [← boundAnswers_bind]
      show (Program.ofExcept _).run _ = _
      cases boundAnswers d g t email (.bindAssertion (calmClaims t email) ctx) <;> rfl
    rw [hport, bind_run_calm hyears hdirect, hmax]
    by_cases hpositive : 0 < t.timestamp
    · simp [hpositive, h hpositive, bindAnswer, Except.mapError, bind, Except.bind]
    · simp [hpositive, bindAnswer, Except.mapError, bind, Except.bind, Fault.intoFlow]
  unfold authenticate
  rw [hlookup, hkey]
  show (inFlow (consumeLimit (some (.provider name))) >>= fun _ => _).run _ = _
  rw [Program.run_bind, hlimit]
  show (inFlow (authenticateCredential (codeRequest name)) >>= _).run _ = _
  rw [Program.run_bind, hclaims]
  show (inFlow (consumeLimit (RateLimitKey.ofSubject d (some (codeRequest name).provider)
    "subject")) >>= _).run _ = _
  rw [hsubject, Program.run_bind, hlimit]
  show (enforceAssertionBinding (calmClaims t email) _ >>= _).run _ = _
  rw [Program.run_bind, hbind _ rfl rfl]
  split <;> rfl

/-- The user of the claims is served. -/
theorem resolveUser_run_calm {name : String}
    (hallows : ∀ allows, d.domainAllowlist = some allows → allows email = true) :
    (resolveUser d (codeRequest name) (calmClaims t email)).run (boundAnswers d g t email) =
      .ok calmUser := by
  have hpolicy : registrationPolicyReason (calmClaims t email).email
      (calmClaims t email).emailVerified d.domainAllowlist = none := by
    unfold registrationPolicyReason
    cases hlist : d.domainAllowlist with
    | none => simp [calmClaims]
    | some allows => simp [calmClaims, hallows allows hlist]
  have hlets : admitExisting d (calmClaims t email) calmUser = .done calmUser := by
    unfold admitExisting
    rw [if_neg (by decide), hpolicy]
  show (admitExisting d (calmClaims t email) calmUser).run _ = _
  rw [hlets]
  rfl

/-- A new session is stored only with a deadline that fits. -/
theorem storeNewSession_run_calm (g : GrantSettings) (email : String) (hyears : WithinYears t) (request : ExchangeRequest) :
    (¬ DeadlineFits t d.refreshTokenTtl ∧
      (storeNewSession d request calmUser).run (boundAnswers d g t email) = .error .panic) ∨
    DeadlineFits t d.refreshTokenTtl ∧ ∃ minted, isValidFamilyId minted.2.familyId = true ∧
      (storeNewSession d request calmUser).run (boundAnswers d g t email) = .ok minted := by
  have hexpiry : (sessionExpiry d).run (boundAnswers d g t email) =
      (deadline t d.refreshTokenTtl).elim (.error .panic) .ok := by
    show (expect (spanOfSecs d.refreshTokenTtl) >>= fun ttl => expect (t.add ttl)).run _ = _
    unfold deadline
    cases spanOfSecs d.refreshTokenTtl with
    | none => rfl
    | some ttl => cases hadd : t.add ttl <;> simp [expect, hadd]
  simp only [storeNewSession, Program.ask_bind, Program.run_perform, Program.run_bind, hexpiry]
  rcases deadline_eq d.refreshTokenTtl hyears with ⟨hsome, hfits⟩ | ⟨hnone, hfits⟩
  · right
    have hvalid : isValidFamilyId (boundAnswers d g t email .newFamilyId) = true :=
      (by decide : isValidFamilyId theFamily = true)
    rw [hsome, hvalid]
    exact ⟨hfits, (boundAnswers d g t email .randomToken, firstGeneration request calmUser
      (d.digest (boundAnswers d g t email .randomToken)) (boundAnswers d g t email .newFamilyId)
      (t + signedSecs d.refreshTokenTtl * nanosPerSec) (boundAnswers d g t email .now)), hvalid, rfl⟩
  · left
    rw [hnone]
    exact ⟨hfits, rfl⟩

/-- An access token that never lives is not handed out. -/
theorem respondToExchange_run_calm (haccess : ¬ 0 < d.accessTokenTtl.toNat)
    (refreshToken : String) {session : Session}
    (hfamily : isValidFamilyId session.familyId = true) :
    (respondToExchange d calmUser refreshToken session).run (boundAnswers d g t email) =
      .error .panic := by
  have hbuild : (buildAccessToken d calmUser session.familyId).run
      (boundAnswers d g t email) = .error .panic ∨ ∃ accessToken,
        (buildAccessToken d calmUser session.familyId).run (boundAnswers d g t email) =
          .ok (accessToken, d.accessTokenTtl) := by
    have hsome : (!calmUser.id.isEmpty) = true := by decide
    simp only [buildAccessToken, addU64, Service.assert, hfamily, hsome, Bool.or_true, if_true,
      Program.done_bind, Program.ask_bind, Program.run_perform]
    split
    · exact Or.inl rfl
    · exact Or.inr ⟨_, rfl⟩
  unfold respondToExchange
  rw [Program.run_bind]
  rcases hbuild with hpanic | ⟨accessToken, hok⟩
  · rw [hpanic]
    rfl
  · rw [hok]
    show (assert (decide (0 < d.accessTokenTtl.toNat)) >>= _ : Service Error _).run _ = _
    rw [decide_eq_false haccess]
    rfl

/-- An exchange that is answered in order panics where a lifetime does not fit. -/
theorem exchange_run_calm (hyears : WithinYears t) {name : String} {provider : Provider}
    (hprovider : d.providers.lookup name = some provider)
    (hname : name.utf8ByteSize ≤ maxRateLimitProviderLen)
    (h : 0 < t.timestamp → 0 < signedSecs d.maxAssertionLifetime ∧
      (∀ allows, d.domainAllowlist = some allows → allows email = true) ∧
      ¬ (DeadlineFits t d.refreshTokenTtl ∧ 0 < d.accessTokenTtl.toNat)) :
    (exchangeBinding d g (codeRequest name)).run (calmBinding t email) = .error .panic := by
  have hinner : (exchangeInner d (codeRequest name)).run (boundAnswers d g t email) =
      .error .panic := by
    unfold exchangeInner
    rw [Program.run_bind, authenticate_run_calm hyears hprovider hname fun hpos => (h hpos).1]
    by_cases hpositive : 0 < t.timestamp
    · obtain ⟨-, hallows, hbad⟩ := h hpositive
      rw [if_pos hpositive]
      show (resolveUser d (codeRequest name) (calmClaims t email) >>= _).run _ = _
      rw [Program.run_bind, resolveUser_run_calm hallows]
      show (inFlow (storeNewSession d (codeRequest name) calmUser) >>= _).run _ = _
      rw [Program.run_bind, Program.run_mapError]
      rcases storeNewSession_run_calm g email hyears (codeRequest name) with
        ⟨-, hpanic⟩ | ⟨hfits, minted, hfamily, hok⟩
      · rw [hpanic]
        rfl
      · rw [hok]
        show (inFlow (respondToExchange d calmUser minted.1 minted.2)).run _ = _
        rw [Program.run_mapError, respondToExchange_run_calm (fun hpos => hbad ⟨hfits, hpos⟩) _
          hfamily]
        rfl
    · rw [if_neg hpositive]
      rfl
  unfold exchangeBinding
  rw [Program.run_interp]
  show (exchange d (codeRequest name)).run (boundAnswers d g t email) = _
  unfold exchange
  rw [Program.run_attempt_bind, hinner]
  rfl

/-- A nonce whose lifetime has no headroom or does not fit is not minted. -/
theorem mintNonce_run_calm (hyears : WithinYears t)
    (hbad : ¬ (g.nonceTtl.toNat ≤ (2 ^ 64 - 1) / 2 ∧ DeadlineFits t g.nonceTtl)) :
    (mintNonce d g).run (calmBinding t email) = .error .panic := by
  unfold mintNonce
  by_cases hheadroom : g.nonceTtl.toNat ≤ (2 ^ 64 - 1) / 2
  · have hnone := deadline_eq_none hyears fun hfits => hbad ⟨hheadroom, hfits⟩
    have hlength : ((String.ofList (List.replicate nonceB64urlLen 'A')).utf8ByteSize ==
        nonceB64urlLen) = true := by decide
    have hdigest : ((d.digest (String.ofList (List.replicate nonceB64urlLen 'A'))).length ==
        refreshHashHexLen) = true := by simpa using d.digest_length _
    rw [decide_eq_true hheadroom]
    show ((Program.ofExcept (assertThat ((String.ofList
      (List.replicate nonceB64urlLen 'A')).utf8ByteSize == nonceB64urlLen)) >>= fun _ =>
        Program.ofExcept (assertThat ((d.digest (String.ofList
          (List.replicate nonceB64urlLen 'A'))).length == refreshHashHexLen)) >>= fun _ => _).run
            (calmBinding t email)) = _
    rw [hlength, hdigest]
    show ((Program.ofExcept (expectSome (spanOfSecs g.nonceTtl)) >>= fun ttl =>
      Program.ofExcept (expectSome (t.add ttl)) >>= _).run (calmBinding t email)) = _
    unfold deadline at hnone
    cases hspan : spanOfSecs g.nonceTtl with
    | none => rfl
    | some ttl =>
      rw [hspan] at hnone
      have hadd : t.add ttl = none := hnone
      show ((Program.ofExcept (expectSome (t.add ttl)) >>= _).run (calmBinding t email)) = _
      rw [hadd]
      rfl
  · rw [decide_eq_false hheadroom]
    rfl

end Calm

/-! ## The claim -/

/-- The configured lifetimes in the place of those of `rest`, which stands for the rest of the
configuration, the build and the digests. -/
def Config.deployment (c : Config) (rest : Deployment) : Deployment :=
  { rest with
    issuer := c.server.issuer.text
    audience := c.token.audience.text
    accessTokenTtl := c.token.accessTokenTtl
    refreshTokenTtl := c.token.refreshTokenTtl
    refreshRotation := c.token.refreshRotation
    refreshRotationGrace := c.token.refreshRotationGrace.1
    grace_bounded := c.token.refreshRotationGrace.2
    refreshReuseRetention := c.token.refreshReuseRetention.1
    maxAssertionLifetime := c.grants.maxAssertionLifetime }

/-- The settings that only the grants use. -/
def Config.grantSettings (c : Config) (leftHalf : ℕ → String → String) : GrantSettings where
  nonceTtl := c.grants.nonceTtl
  leftHalf := leftHalf

/-- No call panics while the clock reads instants of `clock`, in circumstances in which nothing
but a lifetime could panic it. -/
structure NeverPanics (d : Deployment) (g : GrantSettings) (clock : Instant → Prop) : Prop where
  refresh : ∀ stored request, request.refreshToken ≠ "" →
    (refresh d request).Ensures (fun _ => True) (Admits d clock stored) Unbroken
  exchange : ∀ stored request, (exchangeBinding d g request).Ensures (fun _ => True)
    (BindingAdmits d clock stored) Unbroken
  mintNonce : ∀ stored, (mintNonce d g).Ensures (fun _ => True) (BindingAdmits d clock stored)
    Unbroken

/-- The lifetimes fit the clock. -/
structure LifetimesFit (d : Deployment) (g : GrantSettings) (clock : Instant → Prop) : Prop where
  exp : ∀ t, clock t → ExpFits d t
  retention : d.refreshRotation = true → ∀ t, clock t → DeadlineFits t d.refreshReuseRetention
  headroom : g.nonceTtl.toNat ≤ (2 ^ 64 - 1) / 2
  nonce : ∀ t, clock t → DeadlineFits t g.nonceTtl
  epoch : ProviderServed d → ∀ t, clock t → 0 < t.timestamp
  access : Exchanges d → 0 < d.accessTokenTtl.toNat
  refresh : Exchanges d → ∀ t, clock t → DeadlineFits t d.refreshTokenTtl

section

variable (hyears : ∀ t, clock t → WithinYears t)

include hyears

/-- Lifetimes that fit panic no call. -/
theorem neverPanics_of_fits (hpos : 0 < d.refreshReuseRetention.toNat)
    (hfits : LifetimesFit d g clock) : NeverPanics d g clock where
  refresh _ _ hrequest :=
    (quiet_refresh hyears (fun t ht => ⟨hfits.exp t ht, fun hrotation =>
      hfits.retention hrotation t ht⟩) hpos hrequest).mono_ready fun _ _ => trivial
  exchange _ request :=
    Program.Ensures.interp (fun o ho => bindingHandler_ensures hyears hfits.epoch o ho)
      (quiet_exchange hyears (fun hserved t ht =>
        ⟨hfits.exp t ht, hfits.access hserved, hfits.refresh hserved t ht⟩) request)
  mintNonce _ := mintNonce_ensures hyears hfits.headroom hfits.nonce

/-- A lifetime that does not fit is reached by some call. -/
theorem fits_of_neverPanics (hpos : 0 < d.refreshReuseRetention.toNat) (hsome : ∃ t, clock t)
    (h : NeverPanics d g clock) : LifetimesFit d g clock := by
  have hcalm {t : Instant} (ht : clock t) (email : String) (o : BindingOp) :
      BindingAdmits d clock (· = "live") o (calmBinding t email o) := by
    cases o with
    | port o =>
      exact calmAnswers_admitted email ht (hyears t ht)
        (fun _ _ => Or.inl (show Unbroken (Except.ok true : Answer Bool) from trivial)) o
    | putSingleUse key expiresAt => trivial
    | takeSingleUse key => trivial
  have hnonce {t : Instant} (ht : clock t) :
      g.nonceTtl.toNat ≤ (2 ^ 64 - 1) / 2 ∧ DeadlineFits t g.nonceTtl := by
    by_contra hbad
    have hrun := (h.mintNonce (· = "live")).run (hcalm ht "")
    rw [mintNonce_run_calm (hyears t ht) hbad] at hrun
    exact hrun
  have hexchange {t : Instant} (ht : clock t) {name : String} {provider : Provider}
      (hprovider : d.providers.lookup name = some provider)
      (hname : name.utf8ByteSize ≤ maxRateLimitProviderLen) (email : String)
      (hbad : 0 < t.timestamp → 0 < signedSecs d.maxAssertionLifetime ∧
        (∀ allows, d.domainAllowlist = some allows → allows email = true) ∧
        ¬ (DeadlineFits t d.refreshTokenTtl ∧ 0 < d.accessTokenTtl.toNat)) : False := by
    have hrun := (h.exchange (· = "live") (codeRequest name)).run (hcalm ht email)
    rw [exchange_run_calm (hyears t ht) hprovider hname hbad] at hrun
    exact hrun
  have hserved (hex : Exchanges d) {t : Instant} (ht : clock t) :
      DeadlineFits t d.refreshTokenTtl ∧ 0 < d.accessTokenTtl.toNat := by
    obtain ⟨⟨name, provider, hprovider, hname⟩, hceiling, hallowlist⟩ := hex
    by_contra hbad
    cases hlist : d.domainAllowlist with
    | none =>
      exact hexchange ht hprovider hname "" fun _ =>
        ⟨hceiling, fun allows heq => (by rw [hlist] at heq; exact nomatch heq), hbad⟩
    | some allows =>
      obtain ⟨email, hallows⟩ := hallowlist allows hlist
      exact hexchange ht hprovider hname email fun _ =>
        ⟨hceiling, fun allows' heq => (by rw [hlist] at heq; cases heq; exact hallows), hbad⟩
  obtain ⟨t₀, ht₀⟩ := hsome
  refine ⟨?_, ?_, (hnonce ht₀).1, fun t ht => (hnonce ht).2, ?_, fun hex => (hserved hex ht₀).2,
    fun hex t ht => (hserved hex ht).1⟩
  · intro t ht
    by_contra hover
    let request : RefreshRequest := ⟨"token", .unknown, none, none⟩
    have hrun := (h.refresh (· = "live") request (by decide)).run
      (calmAnswers_admitted "" ht (hyears t ht) fun _ _ =>
        Or.inl (show Unbroken (Except.ok true : Answer Bool) from trivial))
    rw [refresh_run_calm request (by decide) (buildAccessToken_run_calm (hyears t ht) hover _
      (Or.inr (by decide)) _)] at hrun
    exact hrun
  · intro hrotation t ht
    by_contra hfits
    let request : RefreshRequest := ⟨"token", .unknown, none, none⟩
    have hnone (e : Instant) : World.retentionDeadline t d.refreshReuseRetention e = none :=
      (retentionDeadline_eq_none_iff hpos e).mpr (deadline_eq_none (hyears t ht) hfits)
    have hcalm (o : Op) : Admits d clock (· = "live") o (calmAnswers t (.error .panic) "" o) :=
      calmAnswers_admitted "" ht (hyears t ht)
        (fun _ replacement => Or.inr ⟨t, ht, hnone replacement.expiresAt⟩) o
    have hrun := (h.refresh (· = "live") request (by decide)).run hcalm
    rw [refresh_run_rotation_panic request (by decide) hrotation] at hrun
    exact hrun
  · rintro ⟨name, provider, hprovider, hname⟩ t ht
    by_contra hepoch
    exact hexchange ht hprovider hname "" fun hpos => absurd hpos hepoch

end

/-- **Which accepted lifetimes panic a call**: while the clock reads instants within the years
1970 to 2100, no call of an accepted configuration panics exactly if its lifetimes fit. -/
theorem lifetimes_never_panic_iff {tables : UnicodeTables} {isIpNet : String → Bool}
    {raw : RawConfig} {c : Config} (_accepted : Config.resolve tables isIpNet raw = .ok c)
    (rest : Deployment) (leftHalf : ℕ → String → String)
    (hyears : ∀ t, clock t → WithinYears t) (hsome : ∃ t, clock t) :
    NeverPanics (c.deployment rest) (c.grantSettings leftHalf) clock ↔
      LifetimesFit (c.deployment rest) (c.grantSettings leftHalf) clock :=
  ⟨fits_of_neverPanics hyears c.token.refreshReuseRetention.2 hsome,
    neverPanics_of_fits hyears c.token.refreshReuseRetention.2⟩

/-- The clock from the first second of 1970 on. -/
def ordinaryClock (t : Instant) : Prop := WithinYears t ∧ 0 < t.timestamp

/-- The lifetimes of `rawConfigWith`. -/
def OrdinaryLifetimes (c : Config) : Prop :=
  c.token.accessTokenTtl = 900 ∧ c.token.refreshTokenTtl = 2592000 ∧
    c.token.refreshReuseRetention.1 = 86400 ∧ c.grants.nonceTtl = 600

instance (c : Config) : Decidable (OrdinaryLifetimes c) := inferInstanceAs (Decidable (_ ∧ _))

/-- A lifetime of at most a century fits the years. -/
theorem deadlineFits_of_le {t : Instant} (hyears : WithinYears t) {secs : UInt64}
    (hlow : 0 ≤ signedSecs secs) (hhigh : signedSecs secs ≤ 3155760000) :
    DeadlineFits t secs := by
  unfold WithinYears nanosPerSec at hyears
  unfold DeadlineFits minInstantSecs endInstantSecs nanosPerSec
  constructor <;> omega

theorem lifetimes_never_panic_iff_ordinary : ∃ c,
    Config.resolve plainTables (fun _ => true) (rawConfigWith "30s" "1h") = .ok c ∧
      NeverPanics (c.deployment (Sample.deployment true)) (c.grantSettings fun _ text => text)
        ordinaryClock := by
  obtain ⟨c, hc, haccess, hrefresh, hretention, hnonce⟩ : ∃ c,
      Config.resolve plainTables (fun _ => true) (rawConfigWith "30s" "1h") = .ok c ∧
        OrdinaryLifetimes c := exists_ok_of_test (by decide +kernel)
  refine ⟨c, hc, (lifetimes_never_panic_iff hc (Sample.deployment true) (fun _ text => text)
    (fun t ht => ht.1) ⟨1000000000 * nanosPerSec, by decide, by decide⟩).mpr ?_⟩
  constructor
  · rintro t ⟨⟨hlow, hhigh⟩, -⟩ -
    show t.timestamp + c.token.accessTokenTtl.toNat < 2 ^ 64
    rw [haccess]
    unfold nanosPerSec at hhigh
    unfold Instant.timestamp nanosPerSec
    have h900 : (900 : UInt64).toNat = 900 := rfl
    rw [h900]
    omega
  · intro _ t ht
    show DeadlineFits t c.token.refreshReuseRetention.1
    rw [hretention]
    exact deadlineFits_of_le ht.1 (by decide) (by decide)
  · show c.grants.nonceTtl.toNat ≤ (2 ^ 64 - 1) / 2
    rw [hnonce]
    decide
  · intro t ht
    show DeadlineFits t c.grants.nonceTtl
    rw [hnonce]
    exact deadlineFits_of_le ht.1 (by decide) (by decide)
  · exact fun _ t ht => ht.2
  · intro _
    show 0 < c.token.accessTokenTtl.toNat
    rw [haccess]
    decide
  · intro _ t ht
    show DeadlineFits t c.token.refreshTokenTtl
    rw [hrefresh]
    exact deadlineFits_of_le ht.1 (by decide) (by decide)

/-- The same configuration with other lifetimes of access tokens and nonces. -/
def rawConfigLiving (accessTokenTtl nonceTtl : String) : RawConfig :=
  { rawConfigWith "30s" "1h" with
    token := ⟨accessTokenTtl, "30d", "app", none, true, "10s", "24h"⟩
    grants := ⟨false, nonceTtl, "1h"⟩ }

/-- Two accepted configurations that panic a call: access tokens that live for no time, and
nonces that live for ten million years. -/
theorem lifetimes_panic_accepted :
    (∃ c, Config.resolve plainTables (fun _ => true) (rawConfigLiving "0s" "10m") = .ok c ∧
      ¬ NeverPanics (c.deployment (Sample.deployment true)) (c.grantSettings fun _ text => text)
        ordinaryClock) ∧
    (∃ c, Config.resolve plainTables (fun _ => true) (rawConfigLiving "15m" "3652500000d") = .ok c ∧
      ¬ NeverPanics (c.deployment (Sample.deployment true)) (c.grantSettings fun _ text => text)
        ordinaryClock) := by
  have hsome : ordinaryClock (1000000000 * nanosPerSec) := ⟨by decide, by decide⟩
  constructor
  · obtain ⟨c, hc, haccess, hpos, hceiling⟩ : ∃ c,
        Config.resolve plainTables (fun _ => true) (rawConfigLiving "0s" "10m") = .ok c ∧
          c.token.accessTokenTtl = 0 ∧ 0 < c.token.refreshReuseRetention.1.toNat ∧
            0 < signedSecs c.grants.maxAssertionLifetime :=
      exists_ok_of_test (by decide +kernel)
    refine ⟨c, hc, fun hnever => ?_⟩
    have hfits := fits_of_neverPanics (fun t ht => ht.1) hpos ⟨_, hsome⟩ hnever
    have hexchanges : Exchanges (c.deployment (Sample.deployment true)) :=
      ⟨⟨"idp", { providerId := "idp", clientId := "app" }, rfl, by decide⟩, hceiling,
        fun _ hlist => nomatch hlist⟩
    have haccessPos : 0 < c.token.accessTokenTtl.toNat := hfits.access hexchanges
    rw [haccess] at haccessPos
    exact absurd haccessPos (by decide)
  · obtain ⟨c, hc, hnonce, hpos⟩ : ∃ c,
        Config.resolve plainTables (fun _ => true) (rawConfigLiving "15m" "3652500000d") = .ok c ∧
          ¬ DeadlineFits (1000000000 * nanosPerSec) c.grants.nonceTtl ∧
            0 < c.token.refreshReuseRetention.1.toNat :=
      exists_ok_of_test (by decide +kernel)
    refine ⟨c, hc, fun hnever => ?_⟩
    exact hnonce ((fits_of_neverPanics (fun t ht => ht.1) hpos ⟨_, hsome⟩ hnever).nonce _ hsome)

end OidcExchange
