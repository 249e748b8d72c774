import OidcExchange.Analysis.CallFacts
import OidcExchange.Program.Assertion

/-!
# What a grant has done when it touches the single-use records

An exchange burns a nonce and claims a marker only after the provider has validated the
assertion and the controls that read have passed; it looks its user up only after both. A call
that mints a nonce claims the key of a nonce it drew itself.
-/

set_option autoImplicit false

namespace OidcExchange

open Storage Interleaving Service

/-! ## The exchange flow without its binding -/

/-- The operation is not the binding of an assertion. -/
def Op.Plain : Op → Prop
  | .bindAssertion _ _ => False
  | _ => True

/-- The operation binds no assertion and looks no user up. -/
def Op.Early : Op → Prop
  | .bindAssertion _ _ => False
  | .getUserByExternalId _ _ => False
  | _ => True

theorem Op.Early.plain {o : Op} (h : o.Early) : o.Plain := by
  cases o <;> trivial

/-- The operation asks the rate limiter. -/
def Op.Limits : Op → Prop
  | .checkAndConsume _ => True
  | _ => False

section Plain

variable (d : Deployment)

theorem consumeLimit_limits (key : Option RateLimitKey) : (consumeLimit key).Only Op.Limits := by
  cases key with
  | none => trivial
  | some key =>
    refine ⟨trivial, ?_⟩
    rintro ((error | _) | (_ | secs)) <;> trivial

theorem emitMandatoryAuditEvent_early (event : AuditEvent) :
    (emitMandatoryAuditEvent d event).Only Op.Early := by
  refine ⟨trivial, ?_⟩
  rintro ((error | _) | _)
  · show (if d.durability.isEnforce = true then _ else _ : Service Error Unit).Only Op.Early
    split <;> trivial
  · trivial
  · trivial

theorem emitAudit_early (event : AuditEvent) : (emitAudit d event).Only Op.Early := by
  unfold emitAudit
  split
  · trivial
  · refine ⟨trivial, ?_⟩
    rintro ((error | _) | _)
    · show (if event.severity.level ≤ d.blockingThreshold.level then _ else _ :
        Service Error Unit).Only Op.Early
      split <;> trivial
    · trivial
    · trivial

theorem admitExisting_plain (claims : IdentityClaims) (user : User) :
    (admitExisting d claims user).Only Op.Plain := by
  unfold admitExisting
  split
  · trivial
  · split <;> trivial

theorem registerUser_plain (req : ExchangeRequest) (claims : IdentityClaims) :
    (registerUser d req claims).Only Op.Plain := by
  unfold registerUser
  split
  · trivial
  split
  · trivial
  refine ⟨trivial, ?_⟩
  rintro ((error | _) | created)
  · cases error with
    | conflict detail =>
      refine ⟨trivial, ?_⟩
      rintro (e | (_ | user))
      · trivial
      · trivial
      · exact admitExisting_plain d claims user
    | _ => trivial
  · trivial
  · have hevent := fun event => (emitMandatoryAuditEvent_early d event).mono fun _ => Op.Early.plain
    refine (hevent _).mapError.bind fun _ => ⟨trivial, ?_⟩
    rintro ((error | _) | _) <;> trivial

theorem resolveUser_plain (req : ExchangeRequest) (claims : IdentityClaims) :
    (resolveUser d req claims).Only Op.Plain := by
  refine ⟨trivial, ?_⟩
  rintro (e | (_ | user))
  · trivial
  · exact registerUser_plain d req claims
  · exact admitExisting_plain d claims user

theorem storeNewSession_early (req : ExchangeRequest) (user : User) :
    (storeNewSession d req user).Only Op.Early := by
  have hexpiry : (sessionExpiry d).Only Op.Early :=
    Program.Only.bind ⟨trivial, fun _ => trivial⟩ fun _ =>
      (expect_only _).bind fun _ => expect_only _
  refine ⟨trivial, fun raw => hexpiry.bind fun expiresAt => ⟨trivial, fun familyId => ?_⟩⟩
  refine (assert_only _).bind fun _ => ⟨trivial, fun createdAt => ⟨trivial, ?_⟩⟩
  rintro (e | _) <;> trivial

theorem respondToExchange_early (user : User) (raw : String) (s : Session) :
    (respondToExchange d user raw s).Only Op.Early := by
  have hsum : ∀ a b : UInt64, (addU64 d a b : Service Error UInt64).Only Op.Early := by
    intro a b
    unfold addU64
    split <;> trivial
  have htoken : (buildAccessToken d user s.familyId).Only Op.Early := by
    refine (assert_only _).bind fun _ => (assert_only _).bind fun _ => ⟨trivial, fun now => ?_⟩
    refine (hsum _ _).bind fun exp => ⟨trivial, ?_⟩
    rintro (e | signature) <;> trivial
  exact htoken.bind fun _ => (assert_only _).bind fun _ => trivial

theorem concludeFailure_early (req : ExchangeRequest) (failure : ExchangeFlowError) :
    (concludeFailure d req failure).Only Op.Early := by
  have hemit : ∀ (event : AuditEvent) (error : Error),
      (emitMandatoryAuditEvent d event >>= fun _ =>
        (fail error : Service Error TokenResponse)).Only Op.Early :=
    fun event error => (emitMandatoryAuditEvent_early d event).bind fun _ => fail_only _
  unfold concludeFailure
  split
  · exact hemit _ _
  · refine ((emitAudit_early d _).attempt).bind ?_
    rintro ((error | _) | _) <;> trivial
  · exact hemit _ _
  · exact hemit _ _

theorem concludeSuccess_early (req : ExchangeRequest) (success : ExchangeSuccess) :
    (concludeSuccess d req success).Only Op.Early := by
  refine Program.Only.bind ((emitMandatoryAuditEvent_early d _).attempt) ?_
  rintro ((error | _) | _)
  · show (if d.durability.isEnforce = true then _ else _ :
      Service Error TokenResponse).Only Op.Early
    split
    · refine ⟨trivial, ?_⟩
      rintro (e | _) <;> trivial
    · trivial
  · trivial
  · trivial

end Plain

/-! ## The discipline of a grant -/

/-- What a call has performed so far, newest first. -/
abbrev BindingPast : Type := List (Performed BindingAns)

/-- The operation is one of a port. -/
def BindingOp.IsPort : BindingOp → Prop
  | .port _ => True
  | _ => False

/-- The operation claims a key. -/
def BindingOp.IsPut : BindingOp → Prop
  | .putSingleUse _ _ => True
  | _ => False

/-- A reading of the clock. -/
def readingOf : (o : BindingOp) → BindingAns o → Option Instant
  | .port .now, now => some now
  | _, _ => none

/-- A verdict of a provider on a token. -/
def verdictOf : (o : BindingOp) → BindingAns o → Option (String × String × Answer IdentityClaims)
  | .port (.validateIdToken provider jwt), verdict => some (provider, jwt, verdict)
  | _, _ => none

/-- The tokens a code was exchanged for. -/
def codeTokensOf : (o : BindingOp) → BindingAns o → Option ProviderTokens
  | .port (.exchangeCode _ _ _), .ok tokens => some tokens
  | _, _ => none

section Discipline

variable (d : Deployment) (g : GrantSettings)

/-- The context the exchange flow binds an assertion in. -/
def bindingContext (provider : Provider) (req : ExchangeRequest) (jwt : String)
    (accessToken : Option String) : AssertionContext where
  providerId := provider.providerId
  clientId := provider.clientId
  accessToken := accessToken
  compactJwt := jwt
  requireNonce := req.credential.isDirectGrant
  maxAssertionSecs := d.maxAssertionLifetime

/-- The token an exchange presents, and the access token that came with it. -/
def PresentsToken (req : ExchangeRequest) (past : BindingPast) (jwt : String)
    (accessToken : Option String) : Prop :=
  match req.credential with
  | .authorizationCode _ _ => ∃ tokens, earliest codeTokensOf past = some tokens ∧
      jwt = tokens.idToken ∧ accessToken = tokens.accessToken
  | .idTokenAssertion idToken => jwt = idToken ∧ accessToken = req.providerAccessToken

/-- The provider has validated the presented token, whose claims are bound in this context. -/
def AssertionValidated (req : ExchangeRequest) (past : BindingPast) (claims : IdentityClaims)
    (ctx : AssertionContext) : Prop :=
  ∃ provider jwt accessToken, d.providers.lookup req.provider = some provider ∧
    PresentsToken req past jwt accessToken ∧
    earliest verdictOf past = some (req.provider, jwt, .ok claims) ∧
    ctx = bindingContext d provider req jwt accessToken

/-- The controls that read have passed at the instant the call read off the clock. -/
structure Checked (req : ExchangeRequest) (past : BindingPast) (claims : IdentityClaims)
    (ctx : AssertionContext) (expiresAt : Instant) : Prop where
  validated : AssertionValidated d req past claims ctx
  controls : ∃ now, earliest readingOf past = some now ∧
    readingControls d g claims ctx now = .ok expiresAt

/-- Where the context asks for it, the call has burned the nonce of the assertion. -/
def NonceBurned (past : BindingPast) (claims : IdentityClaims) (ctx : AssertionContext) : Prop :=
  ctx.requireNonce = true → ∃ nonce, claims.usableNonce = some nonce ∧
    ⟨.takeSingleUse (nonceKey d nonce), .ok true⟩ ∈ past

/-- The call is past the binding of the assertion. -/
structure Bound (req : ExchangeRequest) (past : BindingPast) (claims : IdentityClaims)
    (ctx : AssertionContext) (expiresAt : Instant) : Prop where
  checked : Checked d g req past claims ctx expiresAt
  burned : NonceBurned d past claims ctx
  marked : ⟨.putSingleUse (assertionMarkerKey d ctx claims) expiresAt, .ok true⟩ ∈ past

/-- A control that comes before the nonce has refused the assertion: the provider did not
accept it, or one of the controls that read failed. -/
def RefusedEarly (req : ExchangeRequest) (past : BindingPast) : Prop :=
  (∃ jwt e, earliest verdictOf past = some (req.provider, jwt, .error e)) ∨
    ∃ claims ctx now e, AssertionValidated d req past claims ctx ∧
      earliest readingOf past = some now ∧ readingControls d g claims ctx now = .error e

/-- What the past of a call contains when it performs an operation. -/
def GrantReady (request : GrantRequest) (past : BindingPast) : BindingOp → Prop
  | .putSingleUse key expiresAt =>
    match request with
    | .exchange req => ∃ claims ctx, Checked d g req past claims ctx expiresAt ∧
        NonceBurned d past claims ctx ∧ key = assertionMarkerKey d ctx claims
    | .mintNonce => ∃ nonce, key = nonceKey d nonce ∧ ⟨.port .randomToken, nonce⟩ ∈ past ∧
        ∀ e ∈ past, e.1.IsPort
  | .takeSingleUse key => ∃ req claims ctx expiresAt nonce, request = .exchange req ∧
      Checked d g req past claims ctx expiresAt ∧ claims.usableNonce = some nonce ∧
      key = nonceKey d nonce
  | .port (.getUserByExternalId _ _) => ∃ req claims ctx expiresAt, request = .exchange req ∧
      Bound d g req past claims ctx expiresAt
  | .port _ => True

/-- What the past of a call contains when it ends. -/
def GrantOutcome (past : BindingPast) : Except (Fault Error) GrantResponse → Prop
  | .ok (.nonce minted) =>
    ∃ expiresAt, ⟨.putSingleUse (nonceKey d minted.nonce) expiresAt, .ok true⟩ ∈ past
  | _ => True

end Discipline

/-! ## What was seen stays seen -/

section Stable

variable {d : Deployment} {g : GrantSettings} {req : ExchangeRequest} {past : BindingPast}
variable {claims : IdentityClaims} {ctx : AssertionContext} {expiresAt : Instant}

theorem PresentsToken.cons {jwt : String} {accessToken : Option String}
    (h : PresentsToken req past jwt accessToken) (e : Performed BindingAns) :
    PresentsToken req (e :: past) jwt accessToken := by
  unfold PresentsToken at h ⊢
  split
  · rename_i hcode
    simp only [hcode] at h
    obtain ⟨tokens, hseen, hrest⟩ := h
    exact ⟨tokens, earliest_cons codeTokensOf hseen e, hrest⟩
  · rename_i hcode
    simpa only [hcode] using h

theorem AssertionValidated.cons (h : AssertionValidated d req past claims ctx)
    (e : Performed BindingAns) : AssertionValidated d req (e :: past) claims ctx := by
  obtain ⟨provider, jwt, accessToken, hprovider, hpresents, hverdict, hctx⟩ := h
  exact ⟨provider, jwt, accessToken, hprovider, hpresents.cons e,
    earliest_cons verdictOf hverdict e, hctx⟩

theorem Checked.cons (h : Checked d g req past claims ctx expiresAt) (e : Performed BindingAns) :
    Checked d g req (e :: past) claims ctx expiresAt := by
  obtain ⟨now, hnow, hcontrols⟩ := h.controls
  exact ⟨h.validated.cons e, now, earliest_cons readingOf hnow e, hcontrols⟩

theorem NonceBurned.cons (h : NonceBurned d past claims ctx) (e : Performed BindingAns) :
    NonceBurned d (e :: past) claims ctx := by
  intro hrequire
  obtain ⟨nonce, hnonce, hmem⟩ := h hrequire
  exact ⟨nonce, hnonce, List.mem_cons_of_mem e hmem⟩

theorem Bound.cons (h : Bound d g req past claims ctx expiresAt) (e : Performed BindingAns) :
    Bound d g req (e :: past) claims ctx expiresAt :=
  ⟨h.checked.cons e, h.burned.cons e, List.mem_cons_of_mem e h.marked⟩

/-- A call binds the claims its provider validated, in one context. -/
theorem AssertionValidated.unique {claims' : IdentityClaims} {ctx' : AssertionContext}
    (h : AssertionValidated d req past claims ctx) (h' : AssertionValidated d req past claims' ctx') :
    claims = claims' ∧ ctx = ctx' := by
  obtain ⟨provider, jwt, accessToken, hprovider, hpresents, hverdict, rfl⟩ := h
  obtain ⟨provider', jwt', accessToken', hprovider', hpresents', hverdict', rfl⟩ := h'
  obtain rfl : provider = provider' := Option.some.inj (hprovider.symm.trans hprovider')
  have hsame := Option.some.inj (hverdict.symm.trans hverdict')
  obtain ⟨rfl, rfl⟩ : jwt = jwt' ∧ claims = claims' := by simpa using hsame
  refine ⟨rfl, ?_⟩
  unfold PresentsToken at hpresents hpresents'
  split at hpresents
  · rename_i hcode
    simp only [hcode] at hpresents'
    obtain ⟨tokens, hseen, -, rfl⟩ := hpresents
    obtain ⟨tokens', hseen', -, rfl⟩ := hpresents'
    obtain rfl : tokens = tokens' := Option.some.inj (hseen.symm.trans hseen')
    rfl
  · rename_i hcode
    simp only [hcode] at hpresents'
    rw [hpresents.2, hpresents'.2]

/-- A call whose assertion passed the controls that read was not refused by one of them. -/
theorem Checked.not_refused (h : Checked d g req past claims ctx expiresAt) :
    ¬ RefusedEarly d g req past := by
  rintro (⟨jwt, e, hverdict⟩ | ⟨claims', ctx', now, e, hvalid, hnow, hrefuse⟩)
  · obtain ⟨provider, jwt', accessToken, -, -, hverdict', -⟩ := h.validated
    rw [hverdict] at hverdict'
    simp at hverdict'
  · obtain ⟨rfl, rfl⟩ := h.validated.unique hvalid
    obtain ⟨now', hnow', hpass⟩ := h.controls
    obtain rfl : now = now' := Option.some.inj (hnow.symm.trans hnow')
    rw [hrefuse] at hpass
    simp at hpass

end Stable

/-! ## Every grant complies -/

/-- The operation is one of a port, with property `P`. -/
def BindingOp.Within (P : Op → Prop) : BindingOp → Prop
  | .port o => P o
  | _ => False

section Compliance

variable {d : Deployment} {g : GrantSettings} {req : ExchangeRequest} {past : BindingPast}
variable {claims : IdentityClaims} {ctx : AssertionContext} {expiresAt : Instant} {α ε : Type}

/-- Ports other than binding stand for themselves. -/
theorem interp_within {P : Op → Prop} {p : Program Ans ε α} (hp : p.Only P)
    (hplain : ∀ o, P o → o.Plain) :
    (p.interp (bindingHandler d g)).Only (BindingOp.Within P) := by
  refine hp.interp fun o ho => ?_
  have hplain := hplain o ho
  cases o with
  | bindAssertion => exact hplain.elim
  | _ => exact ⟨ho, fun _ => trivial⟩

theorem ready_of_early {request : GrantRequest} {o : BindingOp} (h : o.Within Op.Early) :
    GrantReady d g request past o := by
  cases o with
  | port o =>
    cases o with
    | getUserByExternalId => exact h.elim
    | _ => trivial
  | putSingleUse => exact h.elim
  | takeSingleUse => exact h.elim

theorem ready_of_bound {o : BindingOp} (hbound : Bound d g req past claims ctx expiresAt)
    (h : o.Within Op.Plain) : GrantReady d g (.exchange req) past o := by
  cases o with
  | port o =>
    cases o with
    | getUserByExternalId => exact ⟨req, claims, ctx, expiresAt, rfl, hbound⟩
    | _ => trivial
  | putSingleUse => exact h.elim
  | takeSingleUse => exact h.elim

/-- What comes before the lookup of a user is always admitted. -/
theorem obeys_of_early {P : Op → Prop} {p : Program Ans ε α} {request : GrantRequest}
    (hp : p.Only P) (hearly : ∀ o, P o → o.Early) :
    (p.interp (bindingHandler d g)).Obeys (GrantReady d g request)
      (fun past' _ => Program.Since (BindingOp.Within P) past past') past := by
  refine (interp_within hp fun o ho => (hearly o ho).plain).obeys fun past o ho => ?_
  apply ready_of_early
  cases o with
  | port o => exact hearly o ho
  | putSingleUse => exact ho.elim
  | takeSingleUse => exact ho.elim

/-- A call that is past binding may use every port. -/
theorem obeys_of_bound {p : Program Ans ε α} (hp : p.Only Op.Plain)
    (hbound : Bound d g req past claims ctx expiresAt) :
    (p.interp (bindingHandler d g)).Obeys (GrantReady d g (.exchange req))
      (fun past' _ => Bound d g req past' claims ctx expiresAt) past :=
  (interp_within hp fun _ ho => ho).obeys_while (fun e _ h => h.cons e)
    (fun _ _ h ho => ready_of_bound h ho) hbound

/-! ### Binding -/

theorem consumeNonce_obeys (h : Checked d g req past claims ctx expiresAt) :
    (consumeNonce d claims).Obeys (GrantReady d g (.exchange req))
      (fun past' result => Checked d g req past' claims ctx expiresAt ∧
        (result = .ok () → NonceBurned d past' claims ctx)) past := by
  unfold consumeNonce
  cases hnonce : claims.usableNonce with
  | none => exact ⟨h, by simp⟩
  | some nonce =>
    refine ⟨⟨req, claims, ctx, expiresAt, nonce, rfl, h, hnonce, rfl⟩, fun answer => ?_⟩
    refine (Program.obeys_ofExcept _).mpr ⟨h.cons _, fun hok _ => ⟨nonce, hnonce, ?_⟩⟩
    match answer with
    | .ok true => exact List.mem_cons_self ..
    | .ok false => exact absurd hok (by simp [claimed, rejected])
    | .error (.error e) => exact absurd hok (by simp [claimed])
    | .error .panic => exact absurd hok (by simp [claimed])

theorem claimAssertionMarker_obeys (h : Checked d g req past claims ctx expiresAt)
    (hburned : NonceBurned d past claims ctx) :
    (claimAssertionMarker d claims ctx expiresAt).Obeys (GrantReady d g (.exchange req))
      (fun past' result => result = .ok () → Bound d g req past' claims ctx expiresAt) past := by
  refine ⟨⟨claims, ctx, h, hburned, rfl⟩, fun answer => ?_⟩
  refine (Program.obeys_ofExcept _).mpr fun hok => ?_
  refine ⟨h.cons _, hburned.cons _, ?_⟩
  match answer with
  | .ok true => exact List.mem_cons_self ..
  | .ok false => exact absurd hok (by simp [claimed, rejected])
  | .error (.error e) => exact absurd hok (by simp [claimed])
  | .error .panic => exact absurd hok (by simp [claimed])

/-- Binding reads the clock, runs the controls that read, and only then touches a record. -/
theorem bind_obeys (hvalid : AssertionValidated d req past claims ctx)
    (hunread : earliest readingOf past = none) :
    (Assertion.bind d g claims ctx).Obeys (GrantReady d g (.exchange req))
      (fun past' result => result = .ok () →
        ∃ expiresAt, Bound d g req past' claims ctx expiresAt) past := by
  refine ⟨trivial, fun now => ?_⟩
  show (Program.ofExcept (readingControls d g claims ctx now) >>= _).Obeys _ _ _
  cases hcontrols : readingControls d g claims ctx now with
  | error e => simp
  | ok expiresAt =>
    have hchecked : Checked d g req (⟨.port .now, now⟩ :: past) claims ctx expiresAt :=
      ⟨hvalid.cons _, now, earliest_of_none readingOf hunread _, hcontrols⟩
    have hmark : ∀ past', Checked d g req past' claims ctx expiresAt → NonceBurned d past' claims ctx →
        (claimAssertionMarker d claims ctx expiresAt).Obeys (GrantReady d g (.exchange req))
          (fun past' result => result = .ok () →
            ∃ expiresAt, Bound d g req past' claims ctx expiresAt) past' :=
      fun past' h hburned => (claimAssertionMarker_obeys h hburned).mono
        fun _ _ hbound hok => ⟨expiresAt, hbound hok⟩
    rw [Program.ofExcept_ok, Program.done_bind]
    by_cases hrequire : ctx.requireNonce = true
    · rw [if_pos hrequire]
      refine Program.Obeys.bind (consumeNonce_obeys hchecked) ?_ (fun _ _ _ => by simp)
      rintro past₁ ⟨⟩ ⟨hchecked₁, hburned⟩
      exact hmark past₁ hchecked₁ (hburned rfl)
    · rw [if_neg hrequire]
      exact hmark _ hchecked fun h => absurd h hrequire

/-! ### The exchange flow -/

/-- Before binding, a call has only used ports, has not read the clock and has asked no
provider for a verdict. -/
structure Fresh (past : BindingPast) : Prop where
  unread : earliest readingOf past = none
  unjudged : earliest verdictOf past = none
  noTokens : earliest codeTokensOf past = none

theorem readingOf_limits (o : BindingOp) (ans : BindingAns o) (h : o.Within Op.Limits) :
    readingOf o ans = none := by
  rcases o with o | _ | _
  · cases o <;> first | rfl | exact h.elim
  · exact h.elim
  · exact h.elim

theorem verdictOf_limits (o : BindingOp) (ans : BindingAns o) (h : o.Within Op.Limits) :
    verdictOf o ans = none := by
  rcases o with o | _ | _
  · cases o <;> first | rfl | exact h.elim
  · exact h.elim
  · exact h.elim

theorem codeTokensOf_limits (o : BindingOp) (ans : BindingAns o) (h : o.Within Op.Limits) :
    codeTokensOf o ans = none := by
  rcases o with o | _ | _
  · cases o <;> first | rfl | exact h.elim
  · exact h.elim
  · exact h.elim

/-- Asking the rate limiter shows nothing of these. -/
theorem Fresh.limited {past' : BindingPast} (h : Fresh past)
    (hsince : Program.Since (BindingOp.Within Op.Limits) past past') : Fresh past' where
  unread := (earliest_since readingOf hsince readingOf_limits).trans h.unread
  unjudged := (earliest_since verdictOf hsince verdictOf_limits).trans h.unjudged
  noTokens := (earliest_since codeTokensOf hsince codeTokensOf_limits).trans h.noTokens

/-- What authenticating a credential has shown when it succeeds. -/
def Authenticated (req : ExchangeRequest) (past : BindingPast)
    (result : Except ε (IdentityClaims × String × Option String)) : Prop :=
  ∀ claims jwt accessToken, result = .ok (claims, jwt, accessToken) →
    earliest readingOf past = none ∧ PresentsToken req past jwt accessToken ∧
      earliest verdictOf past = some (req.provider, jwt, .ok claims)

theorem authenticateCredential_obeys (h : Fresh past) :
    ((authenticateCredential req).interp (bindingHandler d g)).Obeys
      (GrantReady d g (.exchange req)) (Authenticated req) past := by
  unfold authenticateCredential
  cases hcredential : req.credential with
  | authorizationCode code redirectUri =>
    refine ⟨trivial, ?_⟩
    rintro (e | tokens)
    · exact fun _ _ _ hok => absurd hok (by simp)
    · show ((assert (!tokens.idToken.isEmpty) >>= _ : Service Error _).interp _).Obeys _ _ _
      unfold assert
      split
      · refine ⟨trivial, ?_⟩
        rintro (e | claims)
        · exact fun _ _ _ hok => absurd hok (by simp)
        · rintro _ _ _ ⟨⟩
          refine ⟨?_, ?_, ?_⟩
          · rw [earliest_of_none readingOf (earliest_of_none readingOf h.unread _)]
            rfl
          · unfold PresentsToken
            rw [hcredential]
            exact ⟨tokens, earliest_cons codeTokensOf (earliest_of_none codeTokensOf h.noTokens _) _,
              rfl, rfl⟩
          · rw [earliest_of_none verdictOf (earliest_of_none verdictOf h.unjudged _)]
            rfl
      · exact fun _ _ _ hok => absurd hok (by simp)
  | idTokenAssertion idToken =>
    refine ⟨trivial, ?_⟩
    rintro (e | claims)
    · exact fun _ _ _ hok => absurd hok (by simp)
    · rintro _ _ _ ⟨⟩
      refine ⟨?_, ?_, ?_⟩
      · rw [earliest_of_none readingOf h.unread]
        rfl
      · unfold PresentsToken
        rw [hcredential]
        exact ⟨rfl, rfl⟩
      · rw [earliest_of_none verdictOf h.unjudged]
        rfl

theorem enforceAssertionBinding_obeys (hvalid : AssertionValidated d req past claims ctx)
    (hunread : earliest readingOf past = none) :
    ((enforceAssertionBinding claims ctx).interp (bindingHandler d g)).Obeys
      (GrantReady d g (.exchange req))
      (fun past' result => result = .ok () →
        ∃ expiresAt, Bound d g req past' claims ctx expiresAt) past := by
  -- the operation, written out: its answer is what the flow is told
  have hattempt : ((Assertion.bind d g claims ctx).attempt :
      Program BindingAns Empty (BindingResult Unit)).Obeys (GrantReady d g (.exchange req))
      (fun past' result => result = .ok (.ok ()) →
        ∃ expiresAt, Bound d g req past' claims ctx expiresAt) past := by
    refine (bind_obeys hvalid hunread).attempt fun past' result hbound hok => hbound ?_
    simpa using hok
  have hanswer : (bindingHandler d g (.bindAssertion claims ctx)).Obeys
      (GrantReady d g (.exchange req)) (fun past' answer => answer = .ok (.ok none) →
        ∃ expiresAt, Bound d g req past' claims ctx expiresAt) past := by
    refine Program.Obeys.bind hattempt ?_ (fun _ e => e.elim)
    intro past' result hbound hnone
    apply hbound
    match result with
    | .ok () => rfl
    | .error (.error (.rejected _)) => exact absurd hnone (by simp [bindAnswer])
    | .error (.error (.store _)) => exact absurd hnone (by simp [bindAnswer])
    | .error .panic => exact absurd hnone (by simp [bindAnswer])
  have hwritten : ((bindingHandler d g (.bindAssertion claims ctx)).infallible :
      Program BindingAns (Fault ExchangeFlowError) _).Obeys (GrantReady d g (.exchange req))
      (fun past' answer => answer = .ok (.ok none) →
        ∃ expiresAt, Bound d g req past' claims ctx expiresAt) past := by
    refine hanswer.mapError ?_ (fun _ e => e.elim)
    intro past' answer hbound hnone
    exact hbound (by simpa using hnone)
  refine Program.Obeys.bind hwritten ?_ (fun _ _ _ => by simp)
  rintro past' (e | (_ | rejection)) hbound
  · exact fun hok => absurd hok (by simp)
  · exact fun _ => hbound rfl
  · exact fun hok => absurd hok (by simp)

theorem authenticate_obeys (h : Fresh past) :
    ((authenticate d req).interp (bindingHandler d g)).Obeys (GrantReady d g (.exchange req))
      (fun past' result => ∀ claims, result = .ok claims →
        ∃ ctx expiresAt, Bound d g req past' claims ctx expiresAt) past := by
  unfold authenticate
  cases hprovider : d.providers.lookup req.provider with
  | none => exact fun _ hok => absurd hok (by simp)
  | some provider =>
    have hlimit : ∀ (key : Option RateLimitKey) past,
        ((inFlow (consumeLimit key)).interp (bindingHandler d g)).Obeys
          (GrantReady d g (.exchange req))
          (fun past' _ => Program.Since (BindingOp.Within Op.Limits) past past') past :=
      fun key past => obeys_of_early (consumeLimit_limits key).mapError fun o ho => by
        cases o <;> trivial
    rw [Program.interp_bind]
    refine (hlimit _ past).bind ?_ (fun _ _ _ => by simp)
    intro past₁ _ h₁
    have hcredential : ((inFlow (authenticateCredential req)).interp (bindingHandler d g)).Obeys
        (GrantReady d g (.exchange req)) (Authenticated req) past₁ := by
      rw [Program.interp_mapError]
      refine (authenticateCredential_obeys (h.limited h₁)).mapError ?_ ?_
      · rintro past' ⟨claims, jwt, accessToken⟩ hshown _ _ _ ⟨⟩
        exact hshown claims jwt accessToken rfl
      · exact fun _ _ _ _ _ _ hok => absurd hok (by simp)
    rw [Program.interp_bind]
    refine hcredential.bind ?_ (fun _ _ _ => by simp)
    rintro past₂ ⟨claims, jwt, accessToken⟩ h₂
    obtain ⟨hunread, hpresents, hverdict⟩ := h₂ claims jwt accessToken rfl
    have hvalid : AssertionValidated d req past₂ claims (bindingContext d provider req jwt accessToken) :=
      ⟨provider, jwt, accessToken, hprovider, hpresents, hverdict, rfl⟩
    show ((assert (!claims.subject.isEmpty) >>= _ : Service _ _).interp _).Obeys _ _ _
    unfold assert
    split
    · rw [Program.done_bind, Program.interp_bind]
      refine (hlimit _ past₂).bind ?_ (fun _ _ _ => by simp)
      intro past₃ _ h₃
      rw [Program.interp_bind]
      have hvalid₃ : AssertionValidated d req past₃ claims
          (bindingContext d provider req jwt accessToken) :=
        h₃.keeps (I := fun past => AssertionValidated d req past claims _)
          (fun e _ hvalid => hvalid.cons e) hvalid
      have hunread₃ : earliest readingOf past₃ = none :=
        (earliest_since readingOf h₃ readingOf_limits).trans hunread
      refine (enforceAssertionBinding_obeys hvalid₃ hunread₃).bind ?_ (fun _ _ _ => by simp)
      rintro past₄ ⟨⟩ hbound _ ⟨⟩
      exact ⟨_, hbound rfl⟩
    · exact fun _ hok => absurd hok (by simp)

/-- The flow looks its user up only past binding. -/
theorem exchangeInner_binds :
    ((exchangeInner d req).interp (bindingHandler d g)).Obeys (GrantReady d g (.exchange req))
      (fun _ _ => True) [] := by
  unfold exchangeInner
  rw [Program.interp_bind]
  refine (authenticate_obeys ⟨rfl, rfl, rfl⟩).bind ?_ (fun _ _ _ => trivial)
  intro past₁ claims h₁
  obtain ⟨ctx, expiresAt, hbound⟩ := h₁ claims rfl
  refine (obeys_of_bound ?_ hbound).mono fun _ _ _ => trivial
  refine (resolveUser_plain d req claims).bind fun user => ?_
  have hstore := (storeNewSession_early d req user).mono fun _ => Op.Early.plain
  refine hstore.mapError.bind fun ⟨raw, s⟩ => ?_
  exact ((respondToExchange_early d user raw s).mono fun _ => Op.Early.plain).mapError

/-- **Every exchange complies**: it burns and claims only what its checks have earned. -/
theorem exchangeBinding_obeys :
    (exchangeBinding d g req).Obeys (GrantReady d g (.exchange req)) (fun _ _ => True) [] := by
  have hconclude : ∀ {p : Service Error TokenResponse} {past : BindingPast}, p.Only Op.Early →
      (p.interp (bindingHandler d g)).Obeys (GrantReady d g (.exchange req))
        (fun _ _ => True) past :=
    fun hearly => (obeys_of_early hearly fun _ ho => ho).mono fun _ _ _ => trivial
  have hinner : (((exchangeInner d req).interp (bindingHandler d g)).attempt :
      Program BindingAns (Fault Error) _).Obeys (GrantReady d g (.exchange req))
      (fun _ _ => True) [] :=
    exchangeInner_binds.attempt fun _ _ _ => trivial
  unfold exchangeBinding exchange
  rw [Program.interp_bind, Program.interp_attempt]
  refine hinner.bind ?_ (fun _ _ _ => trivial)
  rintro past' ((failure | _) | success) -
  · exact hconclude (concludeFailure_early d req failure)
  · trivial
  · exact hconclude (concludeSuccess_early d req success)

/-- **Every minting complies**: it claims the key of the nonce it drew. -/
theorem mintNonce_obeys :
    (mintNonce d g).Obeys (GrantReady d g .mintNonce)
      (fun past result => ∀ minted, result = .ok minted → ∃ expiresAt,
        ⟨.putSingleUse (nonceKey d minted.nonce) expiresAt, .ok true⟩ ∈ past) [] := by
  unfold mintNonce
  refine Program.obeys_ofExcept_bind (fun _ _ => ?_) (fun _ _ => by simp)
  refine Program.obeys_ask_bind trivial fun nonce => ?_
  refine Program.obeys_ofExcept_bind (fun _ _ => ?_) (fun _ _ => by simp)
  refine Program.obeys_ofExcept_bind (fun _ _ => ?_) (fun _ _ => by simp)
  refine Program.obeys_ask_bind trivial fun now => ?_
  refine Program.obeys_ofExcept_bind (fun ttl _ => ?_) (fun _ _ => by simp)
  refine Program.obeys_ofExcept_bind (fun expiresAt _ => ?_) (fun _ _ => by simp)
  refine Program.obeys_ask_bind ⟨nonce, rfl, by simp, ?_⟩ ?_
  · rintro e (_ | ⟨_, _ | ⟨_, ⟨⟩⟩⟩) <;> trivial
  · rintro (e | (_ | _))
    · exact fun _ hok => absurd hok (by simp)
    · exact fun _ hok => absurd hok (by simp)
    · rintro _ ⟨⟩
      exact ⟨expiresAt, List.mem_cons_self ..⟩

/-- Every call complies. -/
theorem grantBody_obeys (request : GrantRequest) :
    (grantBody d g request).Obeys (GrantReady d g request) (GrantOutcome d) [] := by
  cases request with
  | exchange req => 
    exact Program.Obeys.bind exchangeBinding_obeys (fun _ _ _ => trivial) (fun _ _ _ => trivial)
  | mintNonce =>
    refine Program.Obeys.bind mintNonce_obeys ?_ (fun _ _ _ => trivial)
    exact fun past minted h => h minted rfl

end Compliance

end OidcExchange
