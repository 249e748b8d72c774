import OidcExchange.Analysis.AppFlow

/-!
# What a sign-in rests on

An exchange stores a session or creates a user only for claims that the provider validated and
that were bound to this client, and that the registration policy admits. No other call of the
clients does either. The tokens that an exchange or a refresh answers name the session they
belong to.
-/

set_option autoImplicit false

namespace OidcExchange

open Storage Interleaving Service Past
open Program (Since Grown)

variable (d : Deployment)

/-! ## What is known of the claims -/

/-- The identity token of the credential: the one the provider issued for the code, or the one
that was presented. -/
def TokenPresented (req : ExchangeRequest) (past : Past) (idToken : String) : Prop :=
  match req.credential with
  | .authorizationCode code redirectUri => ∃ tokens,
      ⟨.exchangeCode req.provider code redirectUri, .ok tokens⟩ ∈ past ∧ tokens.idToken = idToken
  | .idTokenAssertion presented => presented = idToken

/-- The call has had the provider validate the token of its credential, and has bound the claims
to this client. -/
structure Vouched (req : ExchangeRequest) (past : Past) (claims : IdentityClaims) : Prop where
  validated : ∃ idToken provider ctx, TokenPresented req past idToken ∧
    ⟨.validateIdToken req.provider idToken, .ok claims⟩ ∈ past ∧
    d.providers.lookup req.provider = some provider ∧ ctx.providerId = provider.providerId ∧
    ctx.clientId = provider.clientId ∧ ctx.compactJwt = idToken ∧
    ctx.requireNonce = req.credential.isDirectGrant ∧
    ⟨.bindAssertion claims ctx, .ok none⟩ ∈ past
  named : claims.subject ≠ ""

/-- The registration policy admits the holder of the claims. -/
def Permitted (claims : IdentityClaims) : Prop :=
  registrationPolicyReason claims.email claims.emailVerified d.domainAllowlist = none

/-- The call has found the user of the claims active, or has created it. -/
def Resolved (req : ExchangeRequest) (past : Past) (claims : IdentityClaims) (user : User) :
    Prop :=
  (⟨.getUserByExternalId claims.subject req.provider, .ok (some user)⟩ ∈ past ∧
      user.status = .active) ∨
    ∃ new, ⟨.createUser new, .ok user⟩ ∈ past ∧ new.externalId = claims.subject ∧
      new.provider = req.provider

/-- What an exchange has done when it creates a user or stores a session. -/
def Grounds (req : ExchangeRequest) (past : Past) : Op → Prop
  | .createUser new => d.registrationMode = .open ∧ ∃ claims, Vouched d req past claims ∧
      Permitted d claims ∧ new.externalId = claims.subject ∧ new.provider = req.provider
  | .storeRefreshToken s => ∃ claims user raw familyId expiresAt createdAt,
      s = firstGeneration req user (d.digest raw) familyId expiresAt createdAt ∧
      Vouched d req past claims ∧ Permitted d claims ∧ Resolved req past claims user ∧
      ⟨.newFamilyId, familyId⟩ ∈ past
  | _ => True

/-- The operation neither creates a user nor stores the session of a new family. -/
def Op.Unfounding : Op → Prop
  | .createUser _ => False
  | .storeRefreshToken _ => False
  | _ => True

variable {d} {req : ExchangeRequest} {past past' : Past} {claims : IdentityClaims} {user : User}

theorem TokenPresented.of_suffix {idToken : String} (h : TokenPresented req past idToken)
    (hsuffix : past <:+ past') : TokenPresented req past' idToken := by
  unfold TokenPresented at h ⊢
  split
  · rename_i hcredential
    rw [hcredential] at h
    obtain ⟨tokens, hmem, htoken⟩ := h
    exact ⟨tokens, hsuffix.subset hmem, htoken⟩
  · rename_i hcredential
    rw [hcredential] at h
    exact h

theorem Vouched.of_suffix (h : Vouched d req past claims) (hsuffix : past <:+ past') :
    Vouched d req past' claims := by
  obtain ⟨⟨idToken, provider, ctx, hpresented, hvalidated, hprovider, hid, hclient, hjwt, hnonce,
    hbound⟩, hnamed⟩ := h
  exact ⟨⟨idToken, provider, ctx, hpresented.of_suffix hsuffix, hsuffix.subset hvalidated,
    hprovider, hid, hclient, hjwt, hnonce, hsuffix.subset hbound⟩, hnamed⟩

theorem Resolved.of_suffix (h : Resolved req past claims user) (hsuffix : past <:+ past') :
    Resolved req past' claims user := by
  obtain ⟨hmem, hactive⟩ | ⟨new, hmem, hnew⟩ := h
  · exact .inl ⟨hsuffix.subset hmem, hactive⟩
  · exact .inr ⟨new, hsuffix.subset hmem, hnew⟩

/-- What founds nothing is always admitted. -/
theorem grounds_of_unfounding (past : Past) {o : Op} (h : o.Unfounding) : Grounds d req past o := by
  cases o <;> trivial

theorem Op.Authenticates.unfounding {o : Op} (h : o.Authenticates) : o.Unfounding := by
  cases o <;> trivial

/-! ## Parts of a call -/

/-- Of what failed nothing is promised. -/
theorem promised_error {ε α : Type} {P : α → Prop} (e : ε) :
    ∀ a, (.error e : Except ε α) = .ok a → P a := fun _ h => by cases h

/-- A part of a call that has failed. -/
theorem grown_failed {ε α : Type} {base : Past} {P : Past → α → Prop} (h : base <:+ past) (e : ε) :
    Grown base P past (.error e) :=
  ⟨h, promised_error e⟩

/-- A part of a call that founds nothing goes on from where it began. -/
theorem grown_of_only {ε α : Type} {P : Op → Prop} {p : Service ε α} (hp : p.Only P)
    (hP : ∀ o, P o → o.Unfounding) (past : Past) :
    p.Obeys (Grounds d req) (Grown past fun _ _ => True) past :=
  (hp.obeys fun past' o ho => grounds_of_unfounding past' (hP o ho)).mono
    fun _ _ h => ⟨h.suffix, fun _ _ => trivial⟩

/-- A part of a call inside the exchange flow. -/
theorem grown_inFlow {α : Type} {ready : Past → Op → Prop} {P : Past → α → Prop}
    {p : Service Error α} (h : p.Obeys ready (Grown past P) past) :
    (inFlow p).Obeys ready (Grown past P) past := by
  refine h.mapError (fun past' a hgrown => ⟨hgrown.1, ?_⟩) fun _ _ hgrown =>
    grown_failed hgrown.1 _
  rintro _ ⟨⟩
  exact hgrown.2 a rfl

/-- An assertion inside a part of a call. -/
theorem grown_assert {ε : Type} {ready : Past → Op → Prop} {b : Bool} :
    (Service.assert b : Service ε Unit).Obeys ready (Grown past fun _ _ => b = true) past := by
  cases b with
  | true => exact Program.grown_ok rfl
  | false => exact Program.grown_error _

/-- The claims a credential leads to were validated by the provider. -/
theorem authenticateCredential_grown (req : ExchangeRequest) (past : Past) :
    (authenticateCredential req).Obeys (Grounds d req)
      (Grown past fun past' r => TokenPresented req past' r.2.1 ∧
        ⟨.validateIdToken req.provider r.2.1, .ok r.1⟩ ∈ past') past := by
  have hvalidate : ∀ (idToken : String) (token : Option String) (base : Past), past <:+ base →
      TokenPresented req base idToken →
      (Port.validateIdToken req.provider idToken >>= fun claims =>
        (.done (claims, idToken, token) : Service Error _)).Obeys (Grounds d req)
        (Grown past fun past' r => TokenPresented req past' r.2.1 ∧
          ⟨.validateIdToken req.provider r.2.1, .ok r.1⟩ ∈ past') base := by
    intro idToken token base hsuffix hpresented
    refine ⟨trivial, ?_⟩
    rintro (e | claims)
    · exact grown_failed (hsuffix.trans (List.suffix_cons ..)) _
    · refine ⟨hsuffix.trans (List.suffix_cons ..), ?_⟩
      rintro _ ⟨⟩
      exact ⟨hpresented.of_suffix (List.suffix_cons ..), List.mem_cons_self⟩
  unfold authenticateCredential
  split
  · rename_i code redirectUri hcredential
    refine ⟨trivial, ?_⟩
    rintro (e | tokens)
    · exact grown_failed (List.suffix_cons ..) _
    · refine obeys_assert (fun _ => ?_) (fun _ => grown_failed (List.suffix_cons ..) _)
      refine hvalidate tokens.idToken tokens.accessToken _ (List.suffix_cons ..) ?_
      rw [TokenPresented, hcredential]
      exact ⟨tokens, List.mem_cons_self, rfl⟩
  · rename_i idToken hcredential
    refine hvalidate idToken req.providerAccessToken past List.suffix_rfl ?_
    rw [TokenPresented, hcredential]

/-- An assertion that was accepted was bound. -/
theorem enforceAssertionBinding_grown (claims : IdentityClaims) (ctx : AssertionContext)
    (past : Past) :
    (enforceAssertionBinding claims ctx).Obeys (Grounds d req)
      (Grown past fun past' _ => ⟨.bindAssertion claims ctx, .ok none⟩ ∈ past') past := by
  refine ⟨trivial, ?_⟩
  rintro (e | _ | rejection)
  · exact grown_failed (List.suffix_cons ..) _
  · exact ⟨List.suffix_cons .., fun _ _ => List.mem_cons_self⟩
  · exact grown_failed (List.suffix_cons ..) _

/-- **What authentication yields was vouched for.** -/
theorem authenticate_grown (req : ExchangeRequest) (past : Past) :
    (authenticate d req).Obeys (Grounds d req) (Grown past (Vouched d req)) past := by
  have hlimit : ∀ key past, (inFlow (consumeLimit key)).Obeys (Grounds d req)
      (Grown past fun _ _ => True) past := fun key past =>
    grown_of_only (consumeLimit_only key).mapError (fun _ => Op.Authenticates.unfounding) past
  unfold authenticate
  split
  · exact Program.grown_error _
  rename_i provider hprovider
  refine (hlimit _ past).grown_bind fun past₁ _ _ _ => ?_
  refine (grown_inFlow (authenticateCredential_grown req past₁)).grown_bind ?_
  rintro past₂ ⟨claims, compactJwt, token⟩ - ⟨hpresented, hvalidated⟩
  refine (grown_assert (b := !claims.subject.isEmpty)).grown_bind fun past₃ _ h₃ hnamed => ?_
  refine (hlimit _ past₃).grown_bind fun past₄ _ h₄ _ => ?_
  refine (enforceAssertionBinding_grown claims _ past₄).grown_bind fun past₅ _ h₅ hbound => ?_
  have hsuffix := (h₃.trans h₄).trans h₅
  refine Program.grown_ok ⟨⟨compactJwt, provider, _, hpresented.of_suffix hsuffix,
    hsuffix.subset hvalidated, hprovider, rfl, rfl, rfl, rfl, hbound⟩, ?_⟩
  simpa using hnamed

/-! ## The user -/

section User

variable (d) {base : Past}

/-- A user that was found is active and admitted by the policy. -/
theorem admitExisting_grown (claims : IdentityClaims) (user : User) (past : Past) {ready} :
    (admitExisting d claims user).Obeys ready
      (Grown past fun _ found => found = user ∧ user.status = .active ∧ Permitted d claims)
      past := by
  unfold admitExisting
  split
  · exact Program.grown_error _
  · rename_i hactive
    split
    · exact Program.grown_error _
    · rename_i hpermitted
      exact Program.grown_ok ⟨rfl, by simpa using hactive, hpermitted⟩

/-- What is known of the user that a call resolves. -/
abbrev ResolvedAs (req : ExchangeRequest) (claims : IdentityClaims) (past : Past) (user : User) :
    Prop := Resolved req past claims user ∧ Permitted d claims

/-- A user that a lookup answers is admitted when it is active and the policy admits it. -/
theorem admitFound_grown (req : ExchangeRequest) (claims : IdentityClaims) (user : User)
    {past : Past} {ready}
    (hfound : ⟨.getUserByExternalId claims.subject req.provider, .ok (some user)⟩ ∈ past) :
    (admitExisting d claims user).Obeys ready (Grown past (ResolvedAs d req claims)) past := by
  refine (admitExisting_grown d claims user past).mono ?_
  rintro past' r ⟨hsuffix, hr⟩
  refine ⟨hsuffix, fun found hok => ?_⟩
  obtain ⟨rfl, hactive, hpermitted⟩ := hr found hok
  exact ⟨.inl ⟨hsuffix.subset hfound, hactive⟩, hpermitted⟩

/-- A user is registered only for claims that were vouched for, where registration is open. -/
theorem registerUser_grown (req : ExchangeRequest) {claims : IdentityClaims} {past : Past}
    (hvouched : Vouched d req past claims) :
    (registerUser d req claims).Obeys (Grounds d req) (Grown past (ResolvedAs d req claims))
      past := by
  unfold registerUser
  split
  · exact Program.grown_error _
  rename_i hpermitted
  split
  · exact Program.grown_error _
  rename_i hopen
  refine ⟨⟨hopen, claims, hvouched, hpermitted, rfl, rfl⟩, ?_⟩
  have hgrown : ∀ {base past' : Past}, past <:+ base →
      ∀ {r : Except (Fault ExchangeFlowError) User}, Grown base (ResolvedAs d req claims) past' r →
        Grown past (ResolvedAs d req claims) past' r :=
    fun h _ hr => ⟨h.trans hr.1, hr.2⟩
  have hfailed : ∀ {past' : Past} (fault : Fault ExchangeFlowError), past <:+ past' →
      Grown past (ResolvedAs d req claims) past' (.error fault) := fun fault h => grown_failed h fault
  have hcreate := fun ans => List.suffix_cons (⟨.createUser ⟨claims.subject, req.provider,
    claims.email, claims.name⟩, ans⟩ : Performed Ans) past
  rintro ((error | _) | created)
  · cases error with
    | conflict detail =>
      -- a concurrent first login was faster: look the user up again
      refine ⟨trivial, ?_⟩
      rintro (e | _ | user)
      · exact hfailed _ ((hcreate _).trans (List.suffix_cons ..))
      · exact hfailed _ ((hcreate _).trans (List.suffix_cons ..))
      · exact (admitFound_grown d req claims user List.mem_cons_self).mono
          fun _ _ => hgrown ((hcreate _).trans (List.suffix_cons ..))
    | _ => exact hfailed _ (hcreate _)
  · exact hfailed _ (hcreate _)
  · have hresolved : ResolvedAs d req claims (⟨.createUser ⟨claims.subject, req.provider,
        claims.email, claims.name⟩, .ok created⟩ :: past) created :=
      ⟨.inr ⟨_, List.mem_cons_self, rfl, rfl⟩, hpermitted⟩
    have hrecord : ∀ past, (inFlow (emitSecurityEvent d .principalCreated .success
        (some created.id) (some req.provider) req.clientAddr req.userAgent)).Obeys (Grounds d req)
        (Grown past fun _ _ => True) past := fun past =>
      grown_of_only (emitMandatoryAuditEvent_only_of d (P := Op.Unfounding) trivial).mapError
        (fun _ h => h) past
    refine (hrecord _).bind ?_ (fun _ _ h => hfailed _ ((hcreate _).trans h.1))
    rintro past₁ - ⟨h₁, -⟩
    refine ⟨trivial, ?_⟩
    have hnotified := fun ans => ((hcreate (.ok created)).trans h₁).trans
      (List.suffix_cons (⟨.notify (.created created), ans⟩ : Performed Ans) past₁)
    have hstill : ∀ ans, ResolvedAs d req claims (⟨.notify (.created created), ans⟩ :: past₁)
        created := fun ans =>
      ⟨hresolved.1.of_suffix (h₁.trans (List.suffix_cons ..)), hresolved.2⟩
    rintro ((error | _) | _)
    · exact ⟨hnotified _, by rintro _ ⟨⟩; exact hstill _⟩
    · exact hfailed _ (hnotified _)
    · exact ⟨hnotified _, by rintro _ ⟨⟩; exact hstill _⟩

/-- **The user that is resolved holds the identity of the claims.** -/
theorem resolveUser_grown (req : ExchangeRequest) {claims : IdentityClaims} {past : Past}
    (hvouched : Vouched d req past claims) :
    (resolveUser d req claims).Obeys (Grounds d req) (Grown past (ResolvedAs d req claims))
      past := by
  refine ⟨trivial, ?_⟩
  have hlookup := fun ans => List.suffix_cons (⟨.getUserByExternalId claims.subject req.provider,
    ans⟩ : Performed Ans) past
  rintro (e | _ | user)
  · exact grown_failed (hlookup _) _
  · exact (registerUser_grown d req (hvouched.of_suffix (hlookup _))).mono
      fun _ _ h => ⟨(hlookup _).trans h.1, h.2⟩
  · exact (admitFound_grown d req claims user List.mem_cons_self).mono
      fun _ _ h => ⟨(hlookup _).trans h.1, h.2⟩

end User

/-! ## The tokens -/

variable (d)

/-- The tokens name the session `s` of the user `sub`. -/
structure Names (tokens : TokenResponse) (sub : String) (s : Session) : Prop where
  subject : tokens.accessToken.claims.sub = sub
  family : tokens.accessToken.claims.sid = s.familyId
  issuer : tokens.accessToken.claims.iss = d.issuer
  audience : tokens.accessToken.claims.aud = d.audience
  refresh : ∀ raw, tokens.refreshToken = some raw → s.refreshTokenHash = d.digest raw

/-- An access token names the user and the family it was built for. -/
theorem buildAccessToken_grown {ready : Past → Op → Prop} (user : User) (familyId : String)
    (hnow : ∀ past, ready past .now) (hsign : ∀ past a t k c, ready past (.sign a t k c))
    (past : Past) :
    (buildAccessToken d user familyId).Obeys ready
      (Grown past fun _ r => r.1.claims.sub = user.id ∧ r.1.claims.sid = familyId ∧
        r.1.claims.iss = d.issuer ∧ r.1.claims.aud = d.audience) past := by
  unfold buildAccessToken
  refine obeys_assert (fun _ => ?_) (fun _ => Program.grown_error _)
  refine obeys_assert (fun _ => ?_) (fun _ => Program.grown_error _)
  refine ⟨hnow _, fun now => ?_⟩
  refine obeys_addU64 d (fun _ => ⟨hsign _ _ _ _ _, ?_⟩) (fun _ => grown_failed (List.suffix_cons ..) _)
  rintro (e | signature)
  · exact grown_failed ((List.suffix_cons ..).trans (List.suffix_cons ..)) _
  · refine ⟨(List.suffix_cons ..).trans (List.suffix_cons ..), ?_⟩
    rintro _ ⟨⟩
    exact ⟨rfl, rfl, rfl, rfl⟩

/-- The tokens name a session that the call has stored. -/
def ExchangeNames (past : Past) (tokens : TokenResponse) : Prop :=
  ∃ s, ⟨.storeRefreshToken s, .ok ()⟩ ∈ past ∧ Names d tokens s.userId s

/-- The tokens name a session that the call has put in the place of another, or has found live,
and a user that was read for it. -/
def RefreshNames (past : Past) (tokens : TokenResponse) : Prop :=
  ∃ s user, ⟨.getUserById s.userId, .ok (some user)⟩ ∈ past ∧ Names d tokens user.id s ∧
    ((∃ h, ⟨.rotateRefreshToken h s, .ok true⟩ ∈ past) ∨
      ∃ h, ⟨.resolveRefreshToken h, .ok (.live s)⟩ ∈ past)

/-- The call does not return. -/
def Fails {ε α : Type} (_past : Past) (result : Except ε α) : Prop := ∀ a, result ≠ .ok a

theorem fails_error {ε α : Type} (past : Past) (e : ε) : Fails past (.error e : Except ε α) :=
  promised_error e

/-- What ends with an error does not return. -/
theorem fails_after {α β : Type} {P : Op → Prop} {ready : Past → Op → Prop} {past : Past}
    {p : Service Error β} (hp : p.Only P) (hready : ∀ past o, P o → ready past o) (e : Error) :
    (p >>= fun _ => (fail e : Service Error α)).Obeys ready Fails past :=
  (hp.obeys hready).bind (fun past' _ _ => fails_error past' _) (fun past' e _ => fails_error past' e)

/-! ## The exchange -/

section Exchange

variable {d}

/-- The session that is stored rests on claims that were vouched for. -/
theorem storeNewSession_grown {past : Past} (hvouched : Vouched d req past claims)
    (hresolved : ResolvedAs d req claims past user) :
    (storeNewSession d req user).Obeys (Grounds d req)
      (Grown past fun past' r => ⟨.storeRefreshToken r.2, .ok ()⟩ ∈ past' ∧ r.2.userId = user.id ∧
        r.2.refreshTokenHash = d.digest r.1) past := by
  refine ⟨trivial, fun raw => ?_⟩
  have hraw := List.suffix_cons (⟨.randomToken, raw⟩ : Performed Ans) past
  have hexpiry : (sessionExpiry d).Only Op.Unfounding :=
    Program.Only.bind ⟨trivial, fun _ => trivial⟩
      fun _ => (expect_only _).bind fun _ => expect_only _
  refine (grown_of_only hexpiry (fun _ h => h) _).bind ?_ (fun _ e h => grown_failed (hraw.trans h.1) e)
  rintro past₁ expiresAt ⟨h₁, -⟩
  refine ⟨trivial, fun familyId => ?_⟩
  have hdrawn := (hraw.trans h₁).trans
    (List.suffix_cons (⟨.newFamilyId, familyId⟩ : Performed Ans) past₁)
  refine obeys_assert (fun _ => ?_) (fun _ => grown_failed hdrawn _)
  refine ⟨trivial, fun createdAt => ?_⟩
  have hsuffix := hdrawn.trans (List.suffix_cons (⟨.now, createdAt⟩ : Performed Ans) _)
  refine ⟨⟨claims, user, raw, familyId, expiresAt, createdAt, rfl, hvouched.of_suffix hsuffix,
    hresolved.2, hresolved.1.of_suffix hsuffix, by simp⟩, ?_⟩
  rintro (e | ⟨⟩)
  · exact grown_failed (hsuffix.trans (List.suffix_cons ..)) _
  · refine ⟨hsuffix.trans (List.suffix_cons ..), ?_⟩
    rintro _ ⟨⟩
    exact ⟨List.mem_cons_self, rfl, rfl⟩

/-- The response names the session that was stored. -/
theorem respondToExchange_names_session {past : Past} {raw : String} {s : Session}
    (hstored : ⟨.storeRefreshToken s, .ok ()⟩ ∈ past) (huser : s.userId = user.id)
    (hhash : s.refreshTokenHash = d.digest raw) :
    (respondToExchange d user raw s).Obeys (Grounds d req)
      (fun past' result => ∀ success, result = .ok success →
        ExchangeNames d past' success.response) past := by
  refine (buildAccessToken_grown d user s.familyId (fun _ => trivial) (fun _ _ _ _ _ => trivial)
    past).bind ?_ (fun _ _ _ => promised_error _)
  rintro past₁ ⟨token, ttl⟩ ⟨h₁, hnames⟩
  obtain ⟨hsub, hsid, hiss, haud⟩ := hnames _ rfl
  refine obeys_assert (fun _ => ?_) (fun _ => promised_error _)
  rintro _ ⟨⟩
  refine ⟨s, h₁.subset hstored, ⟨hsub.trans huser.symm, hsid, hiss, haud, ?_⟩⟩
  rintro _ ⟨⟩
  exact hhash

/-- The flow creates and stores only on grounds, and its response names what it stored. -/
theorem exchangeInner_grounds (req : ExchangeRequest) :
    (exchangeInner d req).Obeys (Grounds d req)
      (fun past' result => ∀ success, result = .ok success →
        ExchangeNames d past' success.response) [] := by
  refine (authenticate_grown req []).bind ?_ (fun _ _ _ => promised_error _)
  rintro past₁ claims ⟨-, hvouched⟩
  have hvouched := hvouched claims rfl
  refine (resolveUser_grown d req hvouched).bind ?_ (fun _ _ _ => promised_error _)
  rintro past₂ user ⟨h₂, hresolved⟩
  have hstore := grown_inFlow (storeNewSession_grown (hvouched.of_suffix h₂) (hresolved user rfl))
  refine hstore.bind ?_ (fun _ _ _ => promised_error _)
  rintro past₃ ⟨raw, s⟩ ⟨-, hstored⟩
  obtain ⟨hmem, huser, hhash⟩ := hstored _ rfl
  refine (respondToExchange_names_session hmem huser hhash).mapError ?_ (fun _ _ _ => promised_error _)
  rintro past' success h _ ⟨⟩
  exact h success rfl

/-- A flow that failed does not return. -/
theorem concludeFailure_fails (req : ExchangeRequest) (failure : ExchangeFlowError)
    (past : Past) : (concludeFailure d req failure).Obeys (Grounds d req) Fails past := by
  have hrecord : ∀ (event : AuditEvent) (error : Error),
      (emitMandatoryAuditEvent d event >>= fun _ =>
        (fail error : Service Error TokenResponse)).Obeys (Grounds d req) Fails past :=
    fun event error => fails_after (P := Op.Unfounding)
      (emitMandatoryAuditEvent_only_of d trivial) (fun _ _ => grounds_of_unfounding _) error
  unfold concludeFailure
  split
  · exact hrecord _ _
  · rename_i detail
    have hemit : (emitAudit d (storeFaultEvent req detail)).Only Op.Unfounding :=
      emitAudit_only_of d trivial
    refine (hemit.obeys fun _ _ => grounds_of_unfounding _).attempt_bind ?_
    rintro past' ((error | _) | _) - <;> exact fails_error _ _
  · exact hrecord _ _
  · exact hrecord _ _

/-- **Every exchange creates and stores only on grounds.** -/
theorem exchange_grounds (req : ExchangeRequest) :
    (exchange d req).Obeys (Grounds d req)
      (fun past' result => ∀ tokens, result = .ok tokens → ExchangeNames d past' tokens) [] := by
  refine (exchangeInner_grounds req).attempt_bind ?_
  rintro past₁ ((failure | _) | success) hnames
  · exact (concludeFailure_fails req failure past₁).mono fun _ _ h tokens heq => absurd heq (h tokens)
  · exact promised_error _
  · have hrecord : (emitSecurityEvent d (.authenticationSucceeded .exchange) .success success.userId
        (some req.provider) req.clientAddr req.userAgent).Only Op.Unfounding :=
      emitMandatoryAuditEvent_only_of d trivial
    refine (hrecord.obeys fun _ _ => grounds_of_unfounding _).attempt_bind ?_
    rintro past₂ ((error | _) | _) h₂
    · show (if d.durability.isEnforce = true then _ else _ :
        Service Error TokenResponse).Obeys _ _ _
      split
      · exact ⟨trivial, by rintro (e | _) <;> exact promised_error _⟩
      · exact promised_error _
    · exact promised_error _
    · rintro _ ⟨⟩
      obtain ⟨s, hmem, hs⟩ := hnames success rfl
      exact ⟨s, h₂.mem hmem, hs⟩

end Exchange

/-! ## The refresh -/

section Refresh

variable {d} {past : Past} {live : Session} {request : RefreshRequest}

/-- The discipline of a call that founds nothing. -/
abbrev unfounding : Past → Op → Prop := fun _ o => o.Unfounding

theorem refuseWithValidationFailed_fails {α : Type} (reason : String) (actor : Option String)
    (request : RefreshRequest) (past : Past) :
    (refuseWithValidationFailed (α := α) d reason actor request).Obeys unfounding Fails past :=
  obeys_assert (fun _ => fails_after (P := Op.Unfounding) (emitAudit_only_of d trivial)
    (fun _ _ h => h) _) (fun _ => fails_error _ _)

theorem refuseSuspended_fails {α : Type} (user : User) (request : RefreshRequest) (past : Past) :
    (refuseSuspended (α := α) d user request).Obeys unfounding Fails past :=
  fails_after (P := Op.Unfounding) (emitMandatoryAuditEvent_only_of d trivial) (fun _ _ h => h) _

theorem revokeFamilyForReuse_fails {α : Type} (familyId userId : String)
    (request : RefreshRequest) (past : Past) :
    (revokeFamilyForReuse (α := α) d familyId userId request).Obeys unfounding Fails past := by
  refine obeys_assert (fun _ => ?_) (fun _ => fails_error _ _)
  refine obeys_assert (fun _ => ⟨trivial, ?_⟩) (fun _ => fails_error _ _)
  rintro (e | count)
  · exact fails_error _ _
  · exact obeys_assert (fun _ => fails_after (P := Op.Unfounding)
      (emitMandatoryAuditEvent_only_of d trivial) (fun _ _ h => h) _) (fun _ => fails_error _ _)

/-- Minting draws texts and reads the clock. -/
theorem mintReplacement_only_of {P : Op → Prop} (htoken : P .randomToken) (hid : P .newFamilyId)
    (hnow : P .now) (live : Session) : (mintReplacement d live).Only P := by
  have hfamily : (replacementFamily live).Only P := by
    unfold replacementFamily
    split
    · exact ⟨hid, fun _ => trivial⟩
    · trivial
  have hnumber : (succU32 d live.generation : Service Error UInt32).Only P := by
    unfold succU32
    split <;> trivial
  refine (assert_only _).bind fun _ => ⟨htoken, fun raw => ?_⟩
  refine (assert_only _).bind fun _ => (assert_only _).bind fun _ => ?_
  refine hfamily.bind fun _ => (assert_only _).bind fun _ => hnumber.bind fun _ => ?_
  exact ⟨hnow, fun _ => (assert_only _).bind fun _ => (assert_only _).bind fun _ => trivial⟩

/-- Minting founds nothing, and yields the next generation with the hash of its token. -/
theorem mintReplacement_grown (live : Session) (past : Past) :
    (mintReplacement d live).Obeys unfounding
      (Grown past fun _ r => r.2.userId = live.userId ∧ r.2.refreshTokenHash = d.digest r.1)
      past := by
  have hminted : (mintReplacement d live).Obeys (fun _ _ => True) (fun past' r =>
      Since Op.Quiet past past' ∧ ∀ raw s, r = .ok (raw, s) → Minted d past' live raw s) past :=
    mintReplacement_obeys d live fun _ _ _ => trivial
  have honly : (mintReplacement d live).Obeys unfounding
      (fun past' _ => Since Op.Unfounding past past') past :=
    (mintReplacement_only_of trivial trivial trivial live).obeys fun _ _ h => h
  refine ((honly.and hminted).mono ?_).mono_ready fun _ _ h => h.1
  rintro past' r ⟨hsince, -, hr⟩
  refine ⟨hsince.suffix, ?_⟩
  rintro ⟨raw, s⟩ hok
  obtain ⟨familyId, rotatedAt, rfl, -⟩ := hr raw s hok
  exact ⟨rfl, rfl⟩

theorem auditSuccessfulRefresh_unfounding (userId familyId : String) (generation : UInt32)
    (viaGrace : Bool) (request : RefreshRequest) :
    (auditSuccessfulRefresh d userId familyId generation viaGrace request).Only Op.Unfounding :=
  (assert_only _).bind fun _ => (assert_only _).bind fun _ =>
    emitMandatoryAuditEvent_only_of d trivial

/-- What returned names the session; what failed promises nothing. -/
abbrev NamesWhenOk (d : Deployment) (past : Past)
    (result : Except (Fault Error) TokenResponse) : Prop :=
  ∀ tokens, result = .ok tokens → RefreshNames d past tokens

theorem namesWhenOk_of_fails {past : Past} {result : Except (Fault Error) TokenResponse}
    (h : Fails past result) : NamesWhenOk d past result :=
  fun tokens heq => absurd heq (h tokens)

/-- The tokens for a session whose user was read, once it is built, recorded and returned. -/
theorem respond_names {user : User} (s : Session) (raw : Option String) (generation : UInt32)
    (viaGrace : Bool) (hread : ⟨.getUserById s.userId, .ok (some user)⟩ ∈ past)
    (hheld : (∃ h, ⟨.rotateRefreshToken h s, .ok true⟩ ∈ past) ∨
      ∃ h, ⟨.resolveRefreshToken h, .ok (.live s)⟩ ∈ past)
    (hhash : ∀ token, raw = some token → s.refreshTokenHash = d.digest token) :
    (buildAccessToken d user s.familyId >>= fun r =>
      auditSuccessfulRefresh d user.id s.familyId generation viaGrace request >>= fun _ =>
        (.done { accessToken := r.1, refreshToken := raw, tokenType := "Bearer",
                 expiresIn := r.2 } : Service Error TokenResponse)).Obeys unfounding
      (NamesWhenOk d) past := by
  refine (buildAccessToken_grown d user s.familyId (fun _ => trivial) (fun _ _ _ _ _ => trivial)
    past).bind ?_ (fun _ _ _ => promised_error _)
  rintro past₁ ⟨token, ttl⟩ ⟨h₁, hnames⟩
  obtain ⟨hsub, hsid, hiss, haud⟩ := hnames _ rfl
  have haudit : (auditSuccessfulRefresh d user.id s.familyId generation viaGrace request).Obeys
      unfounding (fun past' _ => Since Op.Unfounding past₁ past') past₁ :=
    (auditSuccessfulRefresh_unfounding ..).obeys fun _ _ h => h
  refine haudit.bind ?_ (fun _ _ _ => promised_error _)
  rintro past₂ - h₂
  have hsuffix := h₁.trans h₂.suffix
  rintro _ ⟨⟩
  exact ⟨s, user, hsuffix.subset hread, ⟨hsub, hsid, hiss, haud, hhash⟩,
    hheld.imp (fun ⟨h, hmem⟩ => ⟨h, hsuffix.subset hmem⟩) fun ⟨h, hmem⟩ => ⟨h, hsuffix.subset hmem⟩⟩

theorem rotateAndRespond_names (viaGrace : Bool) (past : Past) :
    (rotateAndRespond d live viaGrace request).Obeys unfounding (NamesWhenOk d) past := by
  have hrefused : ∀ reason actor past, (refuseWithValidationFailed (α := TokenResponse) d reason
      actor request).Obeys unfounding (NamesWhenOk d) past := fun reason actor past =>
    (refuseWithValidationFailed_fails reason actor request past).mono
      fun _ _ => namesWhenOk_of_fails
  unfold rotateAndRespond
  refine obeys_assert (fun _ => ⟨trivial, fun now => ?_⟩) (fun _ => promised_error _)
  show (if live.expiresAt < now then _ else _ : Service Error TokenResponse).Obeys _ _ _
  split
  · exact hrefused _ _ _
  refine ⟨trivial, ?_⟩
  rintro (e | _ | user)
  · exact promised_error _
  · exact hrefused _ _ _
  show (if user.status ≠ .active then refuseSuspended d user request else _ :
    Service Error TokenResponse).Obeys _ _ _
  split
  · exact (refuseSuspended_fails user request _).mono fun _ _ => namesWhenOk_of_fails
  refine (mintReplacement_grown live _).bind ?_ (fun _ _ _ => promised_error _)
  rintro past₁ ⟨raw, r⟩ ⟨h₁, hminted⟩
  obtain ⟨huser, hhash⟩ := hminted _ rfl
  refine ⟨trivial, ?_⟩
  rintro (e | _ | _)
  · exact promised_error _
  · exact hrefused _ _ _
  · refine respond_names r (some raw) r.generation viaGrace ?_
      (.inl ⟨_, List.mem_cons_self⟩) (by rintro _ ⟨⟩; exact hhash)
    rw [huser]
    exact List.mem_cons_of_mem _ (h₁.subset List.mem_cons_self)

theorem refreshWithoutRotation_names {h : String} {resolution : RefreshResolution}
    (hresolved : ⟨.resolveRefreshToken h, .ok resolution⟩ ∈ past) :
    (refreshWithoutRotation d resolution request).Obeys unfounding (NamesWhenOk d) past := by
  have hrefused : ∀ reason actor past, (refuseWithValidationFailed (α := TokenResponse) d reason
      actor request).Obeys unfounding (NamesWhenOk d) past := fun reason actor past =>
    (refuseWithValidationFailed_fails reason actor request past).mono
      fun _ _ => namesWhenOk_of_fails
  cases resolution with
  | superseded live retiredAt => exact hrefused _ _ _
  | retired familyId userId retiredAt => exact hrefused _ _ _
  | unknown => exact hrefused _ _ _
  | live s =>
    refine obeys_assert (fun _ => ⟨trivial, fun now => ?_⟩) (fun _ => promised_error _)
    show (if s.expiresAt < now then _ else _ : Service Error TokenResponse).Obeys _ _ _
    split
    · exact hrefused _ _ _
    refine ⟨trivial, ?_⟩
    rintro (e | _ | user)
    · exact promised_error _
    · exact hrefused _ _ _
    show (if user.status ≠ .active then refuseSuspended d user request else _ :
      Service Error TokenResponse).Obeys _ _ _
    split
    · exact (refuseSuspended_fails user request _).mono fun _ _ => namesWhenOk_of_fails
    exact respond_names s none s.generation false List.mem_cons_self
      (.inr ⟨h, List.mem_cons_of_mem _ (List.mem_cons_of_mem _ hresolved)⟩) (fun _ h => by cases h)

/-- **Every refresh founds nothing, and its response names the session it holds.** -/
theorem refresh_names (request : RefreshRequest) :
    (refresh d request).Obeys unfounding (NamesWhenOk d) [] := by
  unfold refresh
  refine obeys_assert (fun _ => ?_) (fun _ => promised_error _)
  refine obeys_assert (fun _ => ⟨trivial, ?_⟩) (fun _ => promised_error _)
  rintro (e | resolution)
  · exact promised_error _
  show (if d.refreshRotation = true then _ else _ : Service Error TokenResponse).Obeys _ _ _
  split
  · cases resolution with
    | unknown =>
      exact (refuseWithValidationFailed_fails _ _ request _).mono fun _ _ => namesWhenOk_of_fails
    | live s => exact rotateAndRespond_names false _
    | superseded s retiredAt =>
      refine obeys_assert (fun _ => ⟨trivial, fun now => ?_⟩) (fun _ => promised_error _)
      show (if withinGrace now retiredAt d.refreshRotationGrace = true then _ else _ :
        Service Error TokenResponse).Obeys _ _ _
      split
      · exact rotateAndRespond_names true _
      · exact (revokeFamilyForReuse_fails _ _ request _).mono fun _ _ => namesWhenOk_of_fails
    | retired familyId userId retiredAt =>
      exact (revokeFamilyForReuse_fails _ _ request _).mono fun _ _ => namesWhenOk_of_fails
  · exact refreshWithoutRotation_names List.mem_cons_self

end Refresh

end OidcExchange
