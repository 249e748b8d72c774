import OidcExchange.Analysis.ExchangeFlow
import OidcExchange.Analysis.Undisturbed

/-!
# What an exchange hands the audit sink

Behind a sink that accepts everything an exchange hands it one record at its end, after the
record of the user it created, if it created one. The record says how the exchange ended,
unless the store failed it: then it is the operational record of the fault.
-/

set_option autoImplicit false

namespace OidcExchange

open Storage Interleaving Service Past
open Program (Since)

/-! ## What is recorded -/

/-- The event an operation hands the sink. -/
def Op.event? : Op → Option AuditEvent
  | .emit event => some event
  | _ => none

/-- The events a call has handed the sink, oldest first. -/
def emitted (past : Past) : List AuditEvent := (past.filterMap fun e => e.1.event?).reverse

/-- The sink has accepted whatever the call handed it. -/
def SinkAccepts (past : Past) : Prop :=
  ∀ event ans, ⟨.emit event, ans⟩ ∈ past → ans = .ok ()

/-- The call has created the user. -/
def CreatedBy (past : Past) (user : User) : Prop := ∃ new, ⟨.createUser new, .ok user⟩ ∈ past

/-- The call has created the user or found it. -/
def Met (past : Past) (user : User) : Prop :=
  CreatedBy past user ∨
    ∃ externalId provider, ⟨.getUserByExternalId externalId provider, .ok (some user)⟩ ∈ past

/-- The record of a user that was created. -/
def principalRecord (request : ExchangeRequest) (user : User) : AuditEvent :=
  SecurityEvent.principalCreated.intoAuditEvent .success (some user.id) (some request.provider)
    request.clientAddr request.userAgent

/-- What type and outcome the terminal record of a result has. -/
def terminalClass : Except (Fault Error) TokenResponse → Option (AuditEventType × AuditOutcome)
  | .ok _ => some ((SecurityEvent.authenticationSucceeded .exchange).eventType, .success)
  | .error (.error e) =>
    some ((exchangeTerminalEvent e).1.eventType, (exchangeTerminalEvent e).2.1)
  | .error .panic => none

/-- The record is the terminal one of an exchange that ended in the result. -/
structure TerminalRecord (request : ExchangeRequest) (past : Past)
    (result : Except (Fault Error) TokenResponse) (record : AuditEvent) : Prop where
  ofResult : terminalClass result = some (record.eventType, record.outcome)
  agrees : record.outcome = .success ↔ ∃ response, result = .ok response
  provider : record.provider = some request.provider
  /-- The actor was found or created by the call, or is the user the error refuses. -/
  actor : ∀ id, record.actor = some id →
    (∃ user, Met past user ∧ user.id = id) ∨ result = .error (.error (.userSuspended id))

/-- The last record of an exchange: of the fault when the store failed it, else the terminal
one. -/
def LastRecord (request : ExchangeRequest) (past : Past) (record : AuditEvent) :
    Except (Fault Error) TokenResponse → Prop
  | .error (.error (.storeError detail)) => record = storeFaultEvent request detail
  | result => TerminalRecord request past result record

/-- The call has handed the sink the record of the user it created, if it created one, and
nothing else. -/
def OnlyCreation (request : ExchangeRequest) (past : Past) : Prop :=
  ∃ created : Option User, (∀ user, CreatedBy past user ↔ created = some user) ∧
    emitted past = (created.map (principalRecord request)).toList

/-- The call has handed the sink the record of the user it created, if it created one, and
one last record. -/
def Recorded (request : ExchangeRequest) (past : Past)
    (result : Except (Fault Error) TokenResponse) : Prop :=
  ∃ created : Option User, (∀ user, CreatedBy past user ↔ created = some user) ∧
    ∃ record, emitted past = (created.map (principalRecord request)).toList ++ [record] ∧
      LastRecord request past record result

/-! ## Operations that leave no record -/

/-- The operation hands the sink nothing and creates no user. -/
def Op.Unrecorded : Op → Prop
  | .emit _ => False
  | .createUser _ => False
  | _ => True

theorem Op.Authenticates.unrecorded {o : Op} (h : o.Authenticates) : o.Unrecorded := by
  cases o <;> trivial

variable (d : Deployment) {past past' : Past} {request : ExchangeRequest} {user : User}

@[simp] theorem emitted_nil : emitted [] = [] := rfl

theorem emitted_cons (e : Performed Ans) (past : Past) :
    emitted (e :: past) = emitted past ++ e.1.event?.toList := by
  unfold emitted
  rw [List.filterMap_cons]
  cases e.1.event? <;> simp

theorem SinkAccepts.of_suffix (h : SinkAccepts past') (hsuffix : past <:+ past') :
    SinkAccepts past :=
  fun event ans hmem => h event ans (hsuffix.mem hmem)

theorem Met.of_suffix (h : Met past user) (hsuffix : past <:+ past') : Met past' user := by
  obtain ⟨new, hmem⟩ | ⟨externalId, provider, hmem⟩ := h
  · exact Or.inl ⟨new, hsuffix.mem hmem⟩
  · exact Or.inr ⟨externalId, provider, hsuffix.mem hmem⟩

/-- A creation shows as one operation. -/
theorem createdBy_cons {e : Performed Ans} :
    CreatedBy (e :: past) user ↔
      (∃ new, e = ⟨.createUser new, .ok user⟩) ∨ CreatedBy past user := by
  simp only [CreatedBy, List.mem_cons, exists_or, eq_comm]

theorem createdBy_cons_of_unrecorded {e : Performed Ans} (he : e.1.Unrecorded) :
    CreatedBy (e :: past) user ↔ CreatedBy past user := by
  rw [createdBy_cons, or_iff_right]
  rintro ⟨new, rfl⟩
  exact he

theorem OnlyCreation.cons (h : OnlyCreation request past) {e : Performed Ans}
    (he : e.1.Unrecorded) : OnlyCreation request (e :: past) := by
  obtain ⟨created, hcreated, hemitted⟩ := h
  refine ⟨created, fun user => (createdBy_cons_of_unrecorded he).trans (hcreated user), ?_⟩
  have hnone : e.1.event? = none := by
    cases ho : e.1 with
    | emit event =>
      rw [ho] at he
      exact he.elim
    | _ => rfl
  rw [emitted_cons, hnone, Option.toList_none, List.append_nil, hemitted]

/-- Operations that leave no record leave the records as they are. -/
theorem OnlyCreation.since (h : OnlyCreation request past)
    (hsince : Since Op.Unrecorded past past') : OnlyCreation request past' := by
  obtain ⟨more, rfl, hall⟩ := hsince
  induction more with
  | nil => exact h
  | cons e more ih =>
    exact (ih fun x hx => hall x (List.mem_cons_of_mem _ hx)).cons (hall e List.mem_cons_self)

/-- The last record, after the one of a user that was created. -/
theorem OnlyCreation.recorded (h : OnlyCreation request past) {record : AuditEvent}
    {result : Except (Fault Error) TokenResponse}
    (hlast : LastRecord request (⟨.emit record, .ok ()⟩ :: past) record result) :
    Recorded request (⟨.emit record, .ok ()⟩ :: past) result := by
  obtain ⟨created, hcreated, hemitted⟩ := h
  refine ⟨created, fun user => ?_, record, ?_, hlast⟩
  · rw [createdBy_cons, or_iff_right (by simp), hcreated]
  · rw [emitted_cons, hemitted]
    rfl

/-! ## The flow before the last record -/

/-- Every operation is admitted. -/
def anything : Past → Op → Prop := fun _ _ => True

/-- The call has handed the sink the event, unless the sink did not accept it. -/
def HandedOver {ε : Type} (event : AuditEvent) (past past' : Past)
    (result : Except (Fault ε) Unit) : Prop :=
  past <:+ past' ∧
    (SinkAccepts past' → past' = ⟨.emit event, .ok ()⟩ :: past ∧ result = .ok ())

theorem handedOver_rejected {ε : Type} (event : AuditEvent) (fault : Fault Error) (past : Past)
    (result : Except (Fault ε) Unit) :
    HandedOver event past (⟨.emit event, .error fault⟩ :: past) result :=
  ⟨List.suffix_cons .., fun haccepts => nomatch haccepts event _ List.mem_cons_self⟩

/-- The mandatory channel. -/
theorem emitMandatory_handsOver (event : AuditEvent) (past : Past) :
    (emitMandatoryAuditEvent d event).Obeys anything (HandedOver event past) past := by
  refine ⟨trivial, ?_⟩
  rintro ((error | _) | _)
  · show (if d.durability.isEnforce = true then _ else _ : Service Error Unit).Obeys _ _ _
    split
    · exact handedOver_rejected ..
    · exact handedOver_rejected ..
  · exact handedOver_rejected ..
  · exact ⟨List.suffix_cons .., fun _ => ⟨rfl, rfl⟩⟩

theorem emitInFlow_handsOver (event : AuditEvent) (past : Past) :
    (inFlow (emitMandatoryAuditEvent d event)).Obeys anything (HandedOver event past) past := by
  refine (emitMandatory_handsOver d event past).mapError ?_ ?_
  · exact fun past' _ h => ⟨h.1, fun haccepts => ⟨(h.2 haccepts).1, rfl⟩⟩
  · exact fun past' e h => ⟨h.1, fun haccepts => nomatch (h.2 haccepts).2⟩

/-- What the flow knows of the user when it goes on, or of the user it turns away. -/
def UserKnown (past : Past) : Except (Fault ExchangeFlowError) User → Prop
  | .ok user => Met past user
  | .error (.error (.attributed error actor)) =>
    (∃ reason, error = .accessDenied reason) ∧ ∃ user, Met past user ∧ user.id = actor
  | .error _ => True

/-- Nothing but a creation was recorded, and the user is known. -/
def Resolving (request : ExchangeRequest) (past : Past)
    (result : Except (Fault ExchangeFlowError) User) : Prop :=
  SinkAccepts past → OnlyCreation request past ∧ UserKnown past result

theorem admitExisting_resolving (claims : IdentityClaims) (honly : OnlyCreation request past)
    (hmet : Met past user) :
    (admitExisting d claims user).Obeys anything (Resolving request) past := by
  unfold admitExisting
  split
  · exact fun _ => ⟨honly, trivial⟩
  · split
    · exact fun _ => ⟨honly, ⟨_, rfl⟩, user, hmet, rfl⟩
    · exact fun _ => ⟨honly, hmet⟩

/-- A user that is created is recorded at once. -/
theorem registerUser_resolving (claims : IdentityClaims) (honly : OnlyCreation request past)
    (hnobody : ∀ user, ¬ CreatedBy past user) :
    (registerUser d request claims).Obeys anything (Resolving request) past := by
  unfold registerUser
  split
  · exact fun _ => ⟨honly, trivial⟩
  split
  · exact fun _ => ⟨honly, trivial⟩
  -- nothing was recorded so far
  obtain ⟨created, hcreated, hemitted⟩ := honly
  obtain rfl : created = none := by
    cases created with
    | none => rfl
    | some user => exact absurd ((hcreated user).mpr rfl) (hnobody user)
  have hfailed : ∀ new fault, OnlyCreation request (⟨.createUser new, .error fault⟩ :: past) := by
    intro new fault
    refine ⟨none, fun user => ?_, ?_⟩
    · rw [createdBy_cons, or_iff_right (by simp), hcreated]
    · rw [emitted_cons, hemitted]
      rfl
  refine ⟨trivial, ?_⟩
  rintro ((error | _) | created)
  · cases error with
    | conflict detail =>
      refine ⟨trivial, ?_⟩
      have hagain := fun ans => (hfailed ⟨claims.subject, request.provider, claims.email,
        claims.name⟩ (.error (.conflict detail))).cons
          (e := ⟨.getUserByExternalId claims.subject request.provider, ans⟩) trivial
      rintro (e | (_ | user))
      · cases e with
        | error cause => exact fun _ => ⟨hagain _, trivial⟩
        | panic => exact fun _ => ⟨hagain _, trivial⟩
      · exact fun _ => ⟨hagain _, trivial⟩
      · exact admitExisting_resolving d claims (hagain _) (Or.inr ⟨_, _, List.mem_cons_self⟩)
    | _ => exact fun _ => ⟨hfailed _ _, trivial⟩
  · exact fun _ => ⟨hfailed _ _, trivial⟩
  · have hnew : ∀ user, CreatedBy (⟨.createUser ⟨claims.subject, request.provider, claims.email,
        claims.name⟩, .ok created⟩ :: past) user ↔ some created = some user := by
      intro user
      rw [createdBy_cons, hcreated]
      simp
    show (inFlow (emitMandatoryAuditEvent d (principalRecord request created)) >>= fun _ => _ :
      Service ExchangeFlowError User).Obeys _ _ _
    refine (emitInFlow_handsOver d _ _).bind ?_ ?_
    · rintro past₁ _ ⟨hsuffix, hhanded⟩
      refine ⟨trivial, ?_⟩
      have hresolving : ∀ ans result, UserKnown (⟨.notify (.created created), ans⟩ :: past₁) result →
          Resolving request (⟨.notify (.created created), ans⟩ :: past₁) result := by
        intro ans result hknown haccepts
        obtain ⟨rfl, -⟩ := hhanded (haccepts.of_suffix (List.suffix_cons ..))
        refine ⟨OnlyCreation.cons ⟨some created, fun user => ?_, ?_⟩ trivial, hknown⟩
        · rw [createdBy_cons, or_iff_right (by simp), hnew]
        · rw [emitted_cons, emitted_cons, hemitted]
          rfl
      have hmet : ∀ ans, Met (⟨.notify (.created created), ans⟩ :: past₁) created := by
        intro ans
        have hmem := (hsuffix.trans (List.suffix_cons ⟨.notify (.created created), ans⟩ past₁)).mem
          List.mem_cons_self
        exact Or.inl ⟨_, hmem⟩
      rintro ((error | _) | _)
      · exact hresolving _ _ (hmet _)
      · exact hresolving _ _ trivial
      · exact hresolving _ _ (hmet _)
    · rintro past₁ fault ⟨-, hhanded⟩ haccepts
      exact nomatch (hhanded haccepts).2

theorem resolveUser_resolving (claims : IdentityClaims) (honly : OnlyCreation request past)
    (hnobody : ∀ user, ¬ CreatedBy past user) :
    (resolveUser d request claims).Obeys anything (Resolving request) past := by
  refine ⟨trivial, ?_⟩
  have hlookup := fun ans => honly.cons
    (e := ⟨.getUserByExternalId claims.subject request.provider, ans⟩) trivial
  rintro (e | (_ | user))
  · cases e with
    | error cause => exact fun _ => ⟨hlookup _, trivial⟩
    | panic => exact fun _ => ⟨hlookup _, trivial⟩
  · refine registerUser_resolving d claims (hlookup _) ?_
    intro user hcreated
    obtain ⟨new, heq⟩ | hcreated := createdBy_cons.mp hcreated
    · cases heq
    · exact hnobody user hcreated
  · exact admitExisting_resolving d claims (hlookup _) (Or.inr ⟨_, _, List.mem_cons_self⟩)

theorem sessionExpiry_unrecorded : (sessionExpiry d).Only Op.Unrecorded :=
  Program.Only.bind ⟨trivial, fun _ => trivial⟩ fun _ => (expect_only _).bind fun _ => expect_only _

theorem storeNewSession_only (user : User) :
    (storeNewSession d request user).Only Op.Unrecorded := by
  refine ⟨trivial, fun raw => (sessionExpiry_unrecorded d).bind fun expiresAt => ?_⟩
  refine ⟨trivial, fun familyId => (assert_only _).bind fun _ => ?_⟩
  refine ⟨trivial, fun createdAt => ⟨trivial, ?_⟩⟩
  rintro (e | _) <;> trivial

/-- The response is for the user. -/
theorem respondToExchange_names (user : User) (raw : String) (s : Session) (past : Past) :
    (respondToExchange d user raw s).Obeys anything (fun past' result =>
      Since Op.Unrecorded past past' ∧
        ∀ success, result = .ok success → success.userId = some user.id) past := by
  have hbuild := buildAccessToken_only_of d (P := Op.Unrecorded) trivial (fun _ _ _ _ => trivial)
    user s.familyId
  refine (hbuild.obeys (fun _ _ _ => trivial)).bind ?_ (fun past' e h => ⟨h, nofun⟩)
  rintro past₁ ⟨token, ttl⟩ hsince
  refine obeys_assert (fun _ => ⟨hsince, ?_⟩) (fun _ => ⟨hsince, nofun⟩)
  rintro _ ⟨⟩
  rfl

/-- What the wrapper knows of the user of a flow that ended. -/
def FlowKnown (past : Past) : Except (Fault ExchangeFlowError) ExchangeSuccess → Prop
  | .ok success => ∃ user, Met past user ∧ success.userId = some user.id
  | .error fault => UserKnown past (.error fault)

/-- The failure names no user. -/
def Unattributed : Fault ExchangeFlowError → Prop
  | .error (.attributed _ _) => False
  | _ => True

/-- The part leaves no record, and a failure of it names no user. -/
def Unnoticed {α : Type} (past past' : Past) (result : Except (Fault ExchangeFlowError) α) : Prop :=
  Since Op.Unrecorded past past' ∧ ∀ fault, result = .error fault → Unattributed fault

theorem Unattributed.known {fault : Fault ExchangeFlowError} (h : Unattributed fault)
    (past : Past) : FlowKnown past (.error fault) := by
  cases fault with
  | panic => trivial
  | error failure =>
    cases failure with
    | attributed error actor => exact h.elim
    | binding rejection => trivial
    | other error => trivial

theorem unnoticed_bind {α β : Type} {p : Service ExchangeFlowError α}
    {f : α → Service ExchangeFlowError β} (hp : p.Obeys anything (Unnoticed past) past)
    (hf : ∀ past' a, (f a).Obeys anything (Unnoticed past') past') :
    (p >>= f).Obeys anything (Unnoticed past) past := by
  refine hp.bind ?_ ?_
  · rintro past₁ a ⟨hsince, -⟩
    exact (hf past₁ a).mono fun past₂ result h => ⟨hsince.trans h.1, h.2⟩
  · rintro past₁ fault ⟨hsince, hfault⟩
    refine ⟨hsince, ?_⟩
    rintro _ ⟨⟩
    exact hfault fault rfl

/-- A service call that leaves no record, inside the flow. -/
theorem inFlow_unnoticed {α : Type} {p : Service Error α} (hp : p.Only Op.Unrecorded)
    (past : Past) : (inFlow p).Obeys anything (Unnoticed past) past := by
  refine (hp.obeys (fun _ _ _ => trivial)).mapError ?_ ?_
  · exact fun past' a hsince => ⟨hsince, nofun⟩
  · rintro past' cause hsince
    refine ⟨hsince, ?_⟩
    rintro _ ⟨⟩
    cases cause <;> trivial

theorem assert_unnoticed (b : Bool) (past : Past) :
    (Service.assert b : Service ExchangeFlowError Unit).Obeys anything (Unnoticed past) past := by
  cases b with
  | true => exact ⟨.refl past, nofun⟩
  | false =>
    refine ⟨.refl past, ?_⟩
    rintro _ ⟨⟩
    trivial

theorem enforceAssertionBinding_unnoticed (claims : IdentityClaims) (ctx : AssertionContext)
    (past : Past) :
    (enforceAssertionBinding claims ctx).Obeys anything (Unnoticed past) past := by
  have hbind : (Port.bindAssertion claims ctx).Only Op.Unrecorded := by
    refine ⟨trivial, ?_⟩
    rintro (e | _) <;> trivial
  refine unnoticed_bind (inFlow_unnoticed hbind past) ?_
  rintro past' (_ | rejection)
  · exact ⟨.refl past', nofun⟩
  · refine ⟨.refl past', ?_⟩
    rintro _ ⟨⟩
    trivial

theorem authenticate_unnoticed (request : ExchangeRequest) (past : Past) :
    (authenticate d request).Obeys anything (Unnoticed past) past := by
  have hasks : ∀ {α : Type} {p : Service Error α}, p.Only Op.Authenticates →
      p.Only Op.Unrecorded := fun hp => hp.mono fun _ => Op.Authenticates.unrecorded
  unfold authenticate
  split
  · refine ⟨.refl past, ?_⟩
    rintro _ ⟨⟩
    trivial
  · refine unnoticed_bind (inFlow_unnoticed (hasks (consumeLimit_only _)) past) fun past₁ _ => ?_
    refine unnoticed_bind (inFlow_unnoticed (hasks (authenticateCredential_only request)) past₁) ?_
    rintro past₂ ⟨claims, jwt, token⟩
    refine unnoticed_bind (assert_unnoticed _ past₂) fun past₃ _ => ?_
    refine unnoticed_bind (inFlow_unnoticed (hasks (consumeLimit_only _)) past₃) fun past₄ _ => ?_
    refine unnoticed_bind (enforceAssertionBinding_unnoticed claims _ past₄) fun past₅ _ => ?_
    exact ⟨.refl past₅, nofun⟩

/-- Before the last record nothing but a creation was recorded. -/
theorem exchangeInner_records (request : ExchangeRequest) :
    (exchangeInner d request).Obeys anything (fun past result =>
      SinkAccepts past → OnlyCreation request past ∧ FlowKnown past result) [] := by
  have hnothing : OnlyCreation request [] := ⟨none, fun user => by simp [CreatedBy], rfl⟩
  refine (authenticate_unnoticed d request []).bind ?_ ?_
  · rintro past₁ claims ⟨hsince₁, -⟩
    have honly₁ := hnothing.since hsince₁
    have hnobody : ∀ user, ¬ CreatedBy past₁ user := by
      rintro user ⟨new, hmem⟩
      obtain ⟨more, rfl, hall⟩ := hsince₁
      exact hall _ (by simpa using hmem)
    refine (resolveUser_resolving d claims honly₁ hnobody).bind ?_ ?_
    · rintro past₂ user hresolving
      refine (inFlow_unnoticed (storeNewSession_only d user) past₂).bind ?_ ?_
      · rintro past₃ ⟨raw, session⟩ ⟨hsince₃, -⟩
        have hknown : ∀ past₄, Since Op.Unrecorded past₃ past₄ → SinkAccepts past₄ →
            OnlyCreation request past₄ ∧ Met past₄ user := by
          intro past₄ hsince₄ haccepts
          have hsince := hsince₃.trans hsince₄
          obtain ⟨honly, hmet⟩ := hresolving (haccepts.of_suffix hsince.suffix)
          exact ⟨honly.since hsince, hmet.of_suffix hsince.suffix⟩
        refine (respondToExchange_names d user raw session past₃).mapError ?_ ?_
        · rintro past₄ success ⟨hsince₄, hname⟩ haccepts
          obtain ⟨honly, hmet⟩ := hknown past₄ hsince₄ haccepts
          exact ⟨honly, user, hmet, hname success rfl⟩
        · rintro past₄ fault ⟨hsince₄, -⟩ haccepts
          refine ⟨(hknown past₄ hsince₄ haccepts).1, ?_⟩
          cases fault <;> trivial
      · rintro past₃ fault ⟨hsince₃, hfault⟩ haccepts
        obtain ⟨honly, -⟩ := hresolving (haccepts.of_suffix hsince₃.suffix)
        exact ⟨honly.since hsince₃, (hfault fault rfl).known past₃⟩
    · rintro past₂ fault hresolving haccepts
      exact hresolving haccepts
  · rintro past₁ fault ⟨hsince₁, hfault⟩ -
    exact ⟨hnothing.since hsince₁, (hfault fault rfl).known past₁⟩

/-! ## The last record -/

/-- Every failure has a failure outcome. -/
theorem exchangeTerminalEvent_failure (e : Error) :
    ∃ reason, (exchangeTerminalEvent e).2.1 = .failure reason := by
  cases e <;> exact ⟨_, rfl⟩

/-- A failure with its record. -/
theorem terminalRecord_of_error {e : Error} {actor : Option String}
    (hactor : ∀ id, actor = some id →
      (∃ user, Met past user ∧ user.id = id) ∨ e = .userSuspended id) :
    TerminalRecord request past (.error (.error e))
      ((exchangeTerminalEvent e).1.intoAuditEvent (exchangeTerminalEvent e).2.1 actor
        (some request.provider) request.clientAddr request.userAgent) where
  ofResult := rfl
  agrees := by
    obtain ⟨reason, hreason⟩ := exchangeTerminalEvent_failure e
    constructor
    · intro hsuccess
      have hsuccess : (exchangeTerminalEvent e).2.1 = .success := hsuccess
      rw [hreason] at hsuccess
      exact nomatch hsuccess
    · rintro ⟨response, habsurd⟩
      exact nomatch habsurd
  provider := rfl
  actor id hid := by
    obtain hmet | rfl := hactor id hid
    · exact Or.inl hmet
    · exact Or.inr rfl

/-- A record and the failure it precedes. -/
theorem record_then_fail {record : AuditEvent} {e : Error}
    {post : Past → Except (Fault Error) TokenResponse → Prop}
    (hok : post (⟨.emit record, .ok ()⟩ :: past) (.error (.error e)))
    (hrejected : ∀ past' fault, ¬ SinkAccepts past' → post past' (.error fault)) :
    (emitMandatoryAuditEvent d record >>= fun _ => (fail e : Service Error TokenResponse)).Obeys
      anything post past := by
  refine (emitMandatory_handsOver d record past).bind ?_ ?_
  · rintro past' _ ⟨-, hhanded⟩
    by_cases haccepts : SinkAccepts past'
    · obtain ⟨rfl, -⟩ := hhanded haccepts
      exact hok
    · exact hrejected past' _ haccepts
  · rintro past' fault ⟨-, hhanded⟩
    exact hrejected past' fault fun haccepts => nomatch (hhanded haccepts).2

/-- What is known of an exchange that returned. -/
def RecordedWhenAccepted (request : ExchangeRequest) (past : Past)
    (result : Except (Fault Error) TokenResponse) : Prop :=
  SinkAccepts past → result ≠ .error .panic → Recorded request past result

theorem recordedWhenAccepted_rejected (past : Past) (result : Except (Fault Error) TokenResponse)
    (hnot : ¬ SinkAccepts past) : RecordedWhenAccepted request past result :=
  fun haccepts => absurd haccepts hnot

theorem TerminalRecord.of_suffix {result : Except (Fault Error) TokenResponse}
    {record : AuditEvent} (h : TerminalRecord request past result record)
    (hsuffix : past <:+ past') : TerminalRecord request past' result record where
  ofResult := h.ofResult
  agrees := h.agrees
  provider := h.provider
  actor id hid := by
    obtain ⟨user, hmet, huser⟩ | hname := h.actor id hid
    · exact Or.inl ⟨user, hmet.of_suffix hsuffix, huser⟩
    · exact Or.inr hname

theorem LastRecord.of_suffix {result : Except (Fault Error) TokenResponse} {record : AuditEvent}
    (h : LastRecord request past record result) (hsuffix : past <:+ past') :
    LastRecord request past' record result := by
  unfold LastRecord at h ⊢
  split
  · exact h
  · rename_i hother
    split at h
    · exact absurd rfl (hother _)
    · exact h.of_suffix hsuffix

/-- A last record on the mandatory channel, and the failure. -/
theorem failed_records {e : Error} {record : AuditEvent}
    (hflow : SinkAccepts past → OnlyCreation request past ∧
      LastRecord request past record (.error (.error e))) :
    (emitMandatoryAuditEvent d record >>= fun _ => (fail e : Service Error TokenResponse)).Obeys
      anything (RecordedWhenAccepted request) past := by
  refine record_then_fail d ?_ (fun past' fault => recordedWhenAccepted_rejected past' _)
  intro haccepts _
  obtain ⟨honly, hlast⟩ := hflow (haccepts.of_suffix (List.suffix_cons ..))
  exact honly.recorded (hlast.of_suffix (List.suffix_cons ..))

/-- The operational record of a store fault. -/
theorem storeFault_records {detail : String}
    (hthreshold : AuditSeverity.error.level ≤ d.emitThreshold.level)
    (hflow : SinkAccepts past → OnlyCreation request past) :
    (concludeFailure d request (.other (.storeError detail))).Obeys anything
      (RecordedWhenAccepted request) past := by
  have hadmitted : ¬ d.emitThreshold.level < (storeFaultEvent request detail).severity.level :=
    Nat.not_lt.mpr hthreshold
  show ((emitAudit d (storeFaultEvent request detail)).attempt >>= fun _ => _ :
    Service Error TokenResponse).Obeys _ _ _
  unfold emitAudit
  rw [if_neg hadmitted]
  have hrejected : ∀ fault result, RecordedWhenAccepted request
      (⟨.emit (storeFaultEvent request detail), .error fault⟩ :: past) result :=
    fun fault result haccepts => nomatch haccepts _ _ List.mem_cons_self
  refine ⟨trivial, ?_⟩
  rintro ((error | _) | _)
  · show (((if _ ≤ d.blockingThreshold.level then fail error else .done () : Service Error Unit)
      ).attempt >>= fun _ => _ : Service Error TokenResponse).Obeys _ _ _
    split
    · exact hrejected _ _
    · exact hrejected _ _
  · exact hrejected _ _
  · intro haccepts _
    exact (hflow (haccepts.of_suffix (List.suffix_cons ..))).recorded rfl

theorem concludeFailure_records {failure : ExchangeFlowError}
    (hthreshold : AuditSeverity.error.level ≤ d.emitThreshold.level)
    (hflow : SinkAccepts past → OnlyCreation request past ∧
      UserKnown past (.error (.error failure))) :
    (concludeFailure d request failure).Obeys anything (RecordedWhenAccepted request) past := by
  cases failure with
  | binding rejection =>
    refine failed_records d fun haccepts => ⟨(hflow haccepts).1, ?_⟩
    have hplain : TerminalRecord request past (.error (.error (.invalidGrant rejection.reason)))
        (SecurityEvent.authenticationFailed.intoAuditEvent (.failure .authenticationFailed) none
          (some request.provider) request.clientAddr request.userAgent) :=
      terminalRecord_of_error nofun
    exact ⟨hplain.ofResult, hplain.agrees, hplain.provider, nofun⟩
  | attributed error actor =>
    refine failed_records d fun haccepts => ?_
    obtain ⟨honly, ⟨reason, rfl⟩, user, hmet, huser⟩ := hflow haccepts
    refine ⟨honly, terminalRecord_of_error ?_⟩
    rintro _ ⟨⟩
    exact Or.inl ⟨user, hmet, huser⟩
  | other error =>
    cases error with
    | storeError detail => exact storeFault_records d hthreshold fun haccepts => (hflow haccepts).1
    | userSuspended id =>
      refine failed_records d fun haccepts => ⟨(hflow haccepts).1, terminalRecord_of_error ?_⟩
      rintro _ ⟨⟩
      exact Or.inr rfl
    | _ => exact failed_records d fun haccepts => ⟨(hflow haccepts).1, terminalRecord_of_error nofun⟩

theorem concludeSuccess_records {success : ExchangeSuccess}
    (hflow : SinkAccepts past → OnlyCreation request past ∧
      ∃ user, Met past user ∧ success.userId = some user.id) :
    (concludeSuccess d request success).Obeys anything (RecordedWhenAccepted request) past := by
  have hrejected : ∀ {past' past''} {fault : Fault Error} {record : AuditEvent},
      past' <:+ past'' → HandedOver record past past' (.error fault : Except (Fault Error) Unit) →
        ∀ result, RecordedWhenAccepted request past'' result := by
    intro past' past'' fault record hsuffix hhanded result haccepts
    exact nomatch (hhanded.2 (haccepts.of_suffix hsuffix)).2
  refine (emitMandatory_handsOver d ((SecurityEvent.authenticationSucceeded
    .exchange).intoAuditEvent .success success.userId (some request.provider) request.clientAddr
      request.userAgent) past).attempt_bind ?_
  intro past₁ inner hhanded
  obtain (error | _) | _ := inner
  · show (if d.durability.isEnforce = true then _ else _ : Service Error TokenResponse).Obeys _ _ _
    split
    · refine ⟨trivial, ?_⟩
      rintro (e | _)
      · exact hrejected (List.suffix_cons ..) hhanded _
      · exact hrejected (List.suffix_cons ..) hhanded _
    · exact hrejected List.suffix_rfl hhanded _
  · exact hrejected List.suffix_rfl hhanded _
  · intro haccepts _
    obtain ⟨hsuffix, hrecord⟩ := hhanded
    obtain ⟨rfl, -⟩ := hrecord haccepts
    obtain ⟨honly, user, hmet, huser⟩ := hflow (haccepts.of_suffix hsuffix)
    refine honly.recorded ⟨rfl, ?_, rfl, ?_⟩
    · exact ⟨fun _ => ⟨success.response, rfl⟩, fun _ => rfl⟩
    · intro id hid
      have hid : success.userId = some id := hid
      exact Or.inl ⟨user, hmet.of_suffix hsuffix, Option.some.inj (huser.symm.trans hid)⟩

/-- Every exchange leaves its records. -/
theorem exchange_records (request : ExchangeRequest)
    (hthreshold : AuditSeverity.error.level ≤ d.emitThreshold.level) :
    (exchange d request).Obeys anything (RecordedWhenAccepted request) [] := by
  refine (exchangeInner_records d request).attempt_bind ?_
  intro past₁ inner hflow
  obtain (failure | _) | success := inner
  · exact concludeFailure_records d hthreshold hflow
  · exact fun _ hpanic => absurd rfl hpanic
  · exact concludeSuccess_records d hflow

/-! ## Exchanges of a running service -/

/-- Call `c` was asked for the exchange and has ended with the result. -/
def ExchangeEnded (p : ServicePool) (c : ℕ) (request : ExchangeRequest) :
    Except (Fault Error) TokenResponse → Prop
  | .ok response => p.Returned c (.exchange request) (.tokens response)
  | .error fault => p.Failed c (.exchange request) fault

/-- What is known of a call of the service that has ended, when it is an exchange. -/
def ServedExchange (post : ExchangeRequest → Past → Except (Fault Error) TokenResponse → Prop)
    (request : Request) (past : Past) (result : Except (Fault Error) Response) : Prop :=
  ∀ req tokens, request = .exchange req → result = tokens.map Response.tokens →
    post req past tokens

section Served

variable {d} {post : ExchangeRequest → Past → Except (Fault Error) TokenResponse → Prop}

theorem serve_exchange_obeys
    (hexchange : ∀ req, (exchange d req).Obeys anything (post req) []) (request : Request) :
    (serve d request).Obeys anything (ServedExchange post request) [] := by
  cases request with
  | exchange req =>
    show (exchange d req >>= fun response => .done (.tokens response) :
      Service Error Response).Obeys _ _ _
    refine (hexchange req).bind ?_ ?_
    · rintro past response hpost _ (fault | response') ⟨⟩ heq
      · exact nomatch heq
      · cases heq
        exact hpost
    · rintro past fault hpost _ (fault' | response') ⟨⟩ heq
      · cases heq
        exact hpost
      · exact nomatch heq
  | _ => exact Program.obeys_of_forall (fun _ _ => trivial) (fun _ _ _ _ h => nomatch h) _

/-- What every exchange ends with, an exchange of a running service has ended with. -/
theorem admits_of_exchangeEnded {meets : ServicePool → ServiceAct → Prop} {clock : Instant}
    {p : ServicePool} {as : List ServiceAct} {c : ℕ} {request : ExchangeRequest}
    {result : Except (Fault Error) TokenResponse}
    (hexchange : ∀ req, (exchange d req).Obeys anything (post req) [])
    (hrun : (service d).Run meets (ServicePool.start clock) as p)
    (hended : ExchangeEnded p c request result) : post request (p.toMoment.past c) result := by
  have hdisciplined : Disciplined (fun _ => anything) (ServedExchange post) p :=
    (Disciplined.initial _).run (serve_exchange_obeys hexchange) hrun
  cases result with
  | ok response => exact hdisciplined.returned hended _ (.ok response) rfl rfl
  | error fault => exact hdisciplined.failed hended _ (.error fault) rfl rfl

end Served

/-- Every exchange that has returned behind a sink that accepts everything has left exactly
the record of the user it created, if it created one, and one last record: the terminal one,
or the operational record of a store fault. -/
theorem exchange_recorded {d : Deployment} {clock : Instant} {p : ServicePool}
    {as : List ServiceAct} {c : ℕ} {request : ExchangeRequest}
    {result : Except (Fault Error) TokenResponse}
    (hthreshold : AuditSeverity.error.level ≤ d.emitThreshold.level)
    (hrun : (service d).Run System.anyStep (ServicePool.start clock) as p)
    (hended : ExchangeEnded p c request result) (hreturned : result ≠ .error .panic)
    (haccepts : SinkAccepts (p.toMoment.past c)) :
    Recorded request (p.toMoment.past c) result :=
  admits_of_exchangeEnded (fun req => exchange_records d req hthreshold) hrun hended haccepts hreturned

namespace Sample

/-- Call 0 is an exchange that has returned tokens. -/
def exchangeReturned (p : ServicePool) : Bool :=
  (p.calls 0).any fun call => match call.request, call.rest with
    | .exchange _, .done (.tokens _) => true
    | _, _ => false

/-- The sink has accepted whatever call 0 handed it. -/
def sinkAccepted (p : ServicePool) : Bool :=
  (p.toMoment.past 0).all fun e => match e with
    | ⟨.emit _, .error _⟩ => false
    | _ => true

theorem sinkAccepts_of_test {p : ServicePool} (htest : sinkAccepted p = true) :
    SinkAccepts (p.toMoment.past 0) := by
  intro event ans hmem
  have hone := List.all_eq_true.mp htest _ hmem
  cases ans with
  | ok _ => rfl
  | error fault => exact absurd hone (by simp)

end Sample

/-- A first sign-in leaves the record of the user and the one of its success. -/
theorem exchange_recorded_signIn : ∃ p request response,
    (service (Sample.deployment true)).Run System.anyStep (ServicePool.start 0) (Sample.signIn "a") p ∧
    ExchangeEnded p 0 request (.ok response) ∧
    Recorded request (p.toMoment.past 0) (.ok response) := by
  have hrun : ((service (Sample.deployment true)).follow (ServicePool.start 0)
      (Sample.signIn "a")).any (fun p => Sample.exchangeReturned p && Sample.sinkAccepted p) =
        true := by
    decide +kernel
  obtain ⟨p, hrun, htest⟩ := System.Run.of_follow_any hrun
  obtain ⟨hreturned, haccepted⟩ := Bool.and_eq_true _ _ ▸ htest
  obtain ⟨⟨asked, rest⟩, hc, hcall⟩ := (Option.any_eq_true _ _).mp hreturned
  cases asked with
  | exchange request =>
    cases rest with
    | done answer =>
      cases answer with
      | tokens response =>
        exact ⟨p, request, response, hrun, hc, exchange_recorded (by decide) hrun hc nofun
          (Sample.sinkAccepts_of_test haccepted)⟩
      | _ => exact absurd hcall (by simp)
    | _ => exact absurd hcall (by simp)
  | _ => exact absurd hcall (by simp)

end OidcExchange
