import OidcExchange.Analysis.CallFacts

/-!
# The exchange flow complies

Authenticating a credential and resolving the user are quiet, and the user they yield
was seen active by this very call; the one session an exchange stores is a first
generation under a hash and a family that the call drew; and the only session it
takes back is its own.
-/

set_option autoImplicit false

namespace OidcExchange

open Storage Interleaving Service Past
open Program (Since)

variable (d : Deployment) {past : Past}

/-! ## Authentication -/

/-- The operation takes part in authenticating a credential. -/
def Op.Authenticates : Op → Prop
  | .checkAndConsume _ => True
  | .exchangeCode _ _ _ => True
  | .validateIdToken _ _ => True
  | .bindAssertion _ _ => True
  | _ => False

theorem Op.Authenticates.quiet {o : Op} (h : o.Authenticates) : o.Quiet := by
  cases o <;> trivial

theorem consumeLimit_only (key : Option RateLimitKey) :
    (consumeLimit key).Only Op.Authenticates := by
  cases key with
  | none => trivial
  | some key =>
    refine ⟨trivial, ?_⟩
    rintro ((error | _) | (_ | secs)) <;> trivial

theorem authenticateCredential_only (req : ExchangeRequest) :
    (authenticateCredential req).Only Op.Authenticates := by
  unfold authenticateCredential
  split
  · refine ⟨trivial, ?_⟩
    rintro (e | tokens)
    · trivial
    · refine (assert_only _).bind fun _ => ⟨trivial, ?_⟩
      rintro (e | claims) <;> trivial
  · refine ⟨trivial, ?_⟩
    rintro (e | claims) <;> trivial

theorem enforceAssertionBinding_only (claims : IdentityClaims) (ctx : AssertionContext) :
    (enforceAssertionBinding claims ctx).Only Op.Authenticates := by
  refine ⟨trivial, ?_⟩
  rintro (e | (_ | rejection)) <;> trivial

theorem authenticate_only_asks (req : ExchangeRequest) :
    (authenticate d req).Only Op.Authenticates := by
  unfold authenticate
  split
  · trivial
  · refine (consumeLimit_only _).mapError.bind fun _ => ?_
    refine (authenticateCredential_only req).mapError.bind fun ⟨claims, jwt, token⟩ => ?_
    refine (assert_only _).bind fun _ => ?_
    refine (consumeLimit_only _).mapError.bind fun _ => ?_
    exact (enforceAssertionBinding_only _ _).bind fun _ => trivial

theorem authenticate_only (req : ExchangeRequest) : (authenticate d req).Only Op.Quiet :=
  (authenticate_only_asks d req).mono fun _ => Op.Authenticates.quiet

/-! ## The user -/

/-- A user that was seen active stays seen active. -/
theorem Admitted.since {P : Op → Prop} {past' : Past} {user : User} (h : Admitted past user)
    (hsince : Since P past past') : Admitted past' user := by
  obtain ⟨externalId, provider, hmem, hactive⟩ | ⟨newUser, hmem⟩ := h
  · exact .inl ⟨externalId, provider, hsince.mem hmem, hactive⟩
  · exact .inr ⟨newUser, hsince.mem hmem⟩

section User

variable {ready : Past → Op → Prop}

/-- What a call that resolves a user has done: nothing but quiet operations, and a user
it yields was seen active. -/
def Resolves (past past' : Past) (result : Except (Fault ExchangeFlowError) User) : Prop :=
  Since Op.Quiet past past' ∧ ∀ user, result = .ok user → Admitted past' user

theorem admitExisting_obeys (claims : IdentityClaims) {user : User} {externalId provider : String}
    {base : Past} (hbase : Since Op.Quiet base past)
    (hfound : ⟨.getUserByExternalId externalId provider, .ok (some user)⟩ ∈ past) :
    (admitExisting d claims user).Obeys ready (Resolves base) past := by
  unfold admitExisting
  split
  · exact ⟨hbase, by simp⟩
  · rename_i hactive
    split
    · exact ⟨hbase, by simp⟩
    · refine ⟨hbase, ?_⟩
      rintro _ ⟨⟩
      exact .inl ⟨externalId, provider, hfound, by simpa using hactive⟩

theorem registerUser_obeys (req : ExchangeRequest) (claims : IdentityClaims) {base : Past}
    (hready : ∀ past o, Op.Quiet o → ready past o) (hbase : Since Op.Quiet base past) :
    (registerUser d req claims).Obeys ready (Resolves base) past := by
  unfold registerUser
  split
  · exact ⟨hbase, by simp⟩
  split
  · exact ⟨hbase, by simp⟩
  refine ⟨hready _ _ trivial, ?_⟩
  have hcreate := fun ans => hbase.cons (P := Op.Quiet)
    (e := ⟨.createUser ⟨claims.subject, req.provider, claims.email, claims.name⟩, ans⟩) trivial
  rintro ((error | _) | created)
  · cases error with
    | conflict detail =>
      -- a concurrent first login was faster: look the user up again
      refine ⟨hready _ _ trivial, ?_⟩
      have hagain := fun ans => (hcreate (.error (.error (.conflict detail)))).cons (P := Op.Quiet)
        (e := ⟨.getUserByExternalId claims.subject req.provider, ans⟩) trivial
      rintro (e | (_ | user))
      · exact ⟨hagain _, by simp⟩
      · exact ⟨hagain _, by simp⟩
      · exact admitExisting_obeys d claims (hagain _) (List.mem_cons_self ..)
    | _ => exact ⟨hcreate _, by simp⟩
  · exact ⟨hcreate _, by simp⟩
  · have hcreated := hcreate (.ok created)
    refine (((emitMandatoryAuditEvent_only d _).mapError).obeys hready).bind ?_
      (fun past' e h => ⟨hcreated.trans h, by simp⟩)
    intro past₁ _ h₁
    refine ⟨hready _ _ trivial, ?_⟩
    have hnotified := fun ans => (hcreated.trans h₁).cons (P := Op.Quiet)
      (e := ⟨.notify (.created created), ans⟩) trivial
    have hadmitted : ∀ ans, Admitted (⟨.notify (.created created), ans⟩ :: past₁) created :=
      fun ans => .inr ⟨_, List.mem_cons_of_mem _ (h₁.mem (List.mem_cons_self ..))⟩
    rintro ((error | _) | _)
    · exact ⟨hnotified _, by rintro _ ⟨⟩; exact hadmitted _⟩
    · exact ⟨hnotified _, by simp⟩
    · exact ⟨hnotified _, by rintro _ ⟨⟩; exact hadmitted _⟩

theorem resolveUser_obeys (req : ExchangeRequest) (claims : IdentityClaims)
    (hready : ∀ past o, Op.Quiet o → ready past o) :
    (resolveUser d req claims).Obeys ready (Resolves past) past := by
  refine ⟨hready _ _ trivial, ?_⟩
  have hlookup := fun ans => (Since.refl past).cons (P := Op.Quiet)
    (e := ⟨.getUserByExternalId claims.subject req.provider, ans⟩) trivial
  rintro (e | (_ | user))
  · exact ⟨hlookup _, by simp⟩
  · exact registerUser_obeys d req claims hready (hlookup _)
  · exact admitExisting_obeys d claims (hlookup _) (List.mem_cons_self ..)

end User

/-! ## The session -/

theorem sessionExpiry_only : (sessionExpiry d).Only Op.Quiet :=
  Program.Only.bind ⟨trivial, fun _ => trivial⟩ fun _ => (expect_only _).bind fun _ => expect_only _

/-- Storing a new session draws its hash and its family first. -/
theorem storeNewSession_obeys (req : ExchangeRequest) {user : User} (hadmitted : Admitted past user)
    (halone : NoInstall past) :
    (storeNewSession d req user).Obeys (Ready d (.exchange req))
      (fun past' result => ∀ raw s, result = .ok (raw, s) →
        ⟨.storeRefreshToken s, .ok ()⟩ ∈ past') past := by
  have hready := ready_of_quiet d (.exchange req)
  refine ⟨hready _ _ trivial, fun raw => ?_⟩
  have hraw : Since Op.Quiet past (⟨.randomToken, raw⟩ :: past) := (Since.refl past).cons trivial
  refine ((sessionExpiry_only d).obeys hready).bind ?_ (by simp)
  intro past₁ expiresAt h₁
  refine ⟨hready _ _ trivial, fun familyId => ?_⟩
  refine obeys_assert (fun hvalid => ?_) (fun _ => by simp)
  refine ⟨hready _ _ trivial, fun createdAt => ?_⟩
  have hsince : Since Op.Quiet past (⟨.now, createdAt⟩ :: ⟨.newFamilyId, familyId⟩ :: past₁) :=
    ((hraw.trans h₁).cons trivial).cons trivial
  have hdrawn : ⟨.randomToken, raw⟩ ∈ past₁ := h₁.mem (List.mem_cons_self ..)
  refine ⟨⟨req, rfl, ⟨user, raw, familyId, expiresAt, createdAt, rfl, hadmitted.since hsince,
    by simp [hdrawn], by simp, hvalid⟩, halone.since hsince⟩, ?_⟩
  rintro (e | ⟨⟩)
  · rintro _ _ ⟨⟩
  · rintro raw' s hs
    obtain ⟨-, rfl⟩ : raw = raw' ∧ _ = s := by simpa using hs
    exact List.mem_cons_self ..

/-- The response names the session that was stored. -/
theorem respondToExchange_obeys {ready : Past → Op → Prop} (user : User) (raw : String)
    {s : Session} (hready : ∀ past o, Op.Quiet o → ready past o)
    (hstored : ⟨.storeRefreshToken s, .ok ()⟩ ∈ past) :
    (respondToExchange d user raw s).Obeys ready
      (fun past' result => ∀ success, result = .ok success →
        StoredHere past' success.refreshTokenHash) past := by
  refine ((buildAccessToken_only d user s.familyId).obeys hready).bind ?_ (by simp)
  rintro past₁ ⟨token, ttl⟩ h₁
  refine obeys_assert (fun _ => ?_) (fun _ => by simp)
  rintro _ ⟨⟩
  exact ⟨s, h₁.mem hstored, rfl⟩

/-- The flow stores at most its own session, and knows it when it succeeds. -/
theorem exchangeInner_obeys (req : ExchangeRequest) :
    (exchangeInner d req).Obeys (Ready d (.exchange req))
      (fun past result => ∀ success, result = .ok success →
        StoredHere past success.refreshTokenHash) [] := by
  have hready := ready_of_quiet d (.exchange req)
  refine ((authenticate_only d req).obeys hready).bind ?_ (by simp)
  intro past₁ claims h₁
  refine (resolveUser_obeys d req claims hready).bind ?_ (by simp)
  rintro past₂ user ⟨h₂, hadmitted⟩
  have halone : NoInstall past₂ := noInstall_nil.since (h₁.trans h₂)
  have hstore : (inFlow (storeNewSession d req user)).Obeys (Ready d (.exchange req))
      (fun past' result => ∀ raw s, result = .ok (raw, s) →
        ⟨.storeRefreshToken s, .ok ()⟩ ∈ past') past₂ := by
    refine (storeNewSession_obeys d req (hadmitted user rfl) halone).mapError ?_ (by simp)
    rintro past' ⟨raw', s'⟩ h raw s hs
    exact h raw s (by simpa using hs)
  refine hstore.bind ?_ (by simp)
  rintro past₃ ⟨raw, s⟩ hstored
  refine (respondToExchange_obeys d user raw hready (hstored raw s rfl)).mapError ?_ (by simp)
  intro past' success h success' hs
  exact h success' (by simpa using hs)

/-! ## The wrapper -/

/-- A failed flow is recorded, and nothing else is done about it. -/
theorem concludeFailure_only_of {P : Op → Prop} (hemit : ∀ event, P (.emit event))
    (req : ExchangeRequest) (failure : ExchangeFlowError) :
    (concludeFailure d req failure).Only P := by
  have hrecord : ∀ (event : AuditEvent) (error : Error),
      (emitMandatoryAuditEvent d event >>= fun _ =>
        (fail error : Service Error TokenResponse)).Only P :=
    fun event error => (emitMandatoryAuditEvent_only_of d (hemit event)).bind fun _ => fail_only _
  unfold concludeFailure
  split
  · exact hrecord _ _
  · refine ((emitAudit_only_of d (hemit _)).attempt).bind ?_
    rintro ((error | _) | _) <;> trivial
  · exact hrecord _ _
  · exact hrecord _ _

theorem concludeFailure_only (req : ExchangeRequest) (failure : ExchangeFlowError) :
    (concludeFailure d req failure).Only Op.Quiet :=
  concludeFailure_only_of d (fun _ => trivial) req failure

/-- **Every exchange complies.** -/
theorem exchange_obeys (req : ExchangeRequest) :
    (exchange d req).Obeys (Ready d (.exchange req)) (fun _ _ => True) [] := by
  have hready := ready_of_quiet d (.exchange req)
  refine (exchangeInner_obeys d req).attempt_bind ?_
  rintro past₁ ((failure | _) | success) hstored
  · exact ((concludeFailure_only d req failure).obeys hready).mono fun _ _ _ => trivial
  · trivial
  · -- the mandatory record, and the session taken back when it failed
    refine Program.Obeys.bind (((emitMandatoryAuditEvent_only d _).attempt).obeys hready) ?_
      (fun _ _ _ => trivial)
    rintro past₂ ((error | _) | _) h₂
    · show (if d.durability.isEnforce = true then _ else _ :
        Service Error TokenResponse).Obeys _ _ _
      split
      · obtain ⟨s, hmem, hhash⟩ := hstored success rfl
        refine ⟨⟨req, rfl, s, h₂.mem hmem, hhash⟩, ?_⟩
        rintro (e | _) <;> trivial
      · trivial
    · trivial
    · trivial

end OidcExchange
