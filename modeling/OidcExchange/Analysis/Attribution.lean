import OidcExchange.Analysis.Provenance
import OidcExchange.Analysis.ExchangeRecords

/-!
# Operators answer for what they change

An event is recorded with an operator only by a call of that operator, and only after the store
has confirmed what the event tells; the event names the user it is about. What the clients do is
recorded without an operator. A change that was acknowledged has its record.
-/

set_option autoImplicit false

namespace OidcExchange

open Storage Interleaving Service Past
open Program (Grown)

/-! ## What an operator asks for -/

/-- The operator behind a request that changes something, and the kind of the change. -/
def AppRequest.mutation? : AppRequest → Option (OperatorPrincipal × AdminMutationKind)
  | .admin (.token (.served (.adminUpdateUser operator _ patch))) =>
    some (operator, if patch.status = some .suspended then .suspended else .updated)
  | .admin (.token (.served (.adminDeleteUser operator _))) => some (operator, .deleted)
  | .admin (.revokeUserSession operator _ _) => some (operator, .sessionRevoked)
  | .admin (.revokeUserSessions operator _) => some (operator, .sessionsRevoked)
  | .createUser operator _ => some (operator, .created)
  | .setClaims operator _ _ => some (operator, .updated)
  | .mergeClaims operator _ _ => some (operator, .updated)
  | .clearClaims operator _ => some (operator, .updated)
  | _ => none

/-- The user that a request names. -/
def AppRequest.target? : AppRequest → Option String
  | .admin (.token (.served (.adminUpdateUser _ userId _))) => some userId
  | .admin (.token (.served (.adminDeleteUser _ userId))) => some userId
  | .admin (.revokeUserSession _ userId _) => some userId
  | .admin (.revokeUserSessions _ userId) => some userId
  | .setClaims _ userId _ => some userId
  | .mergeClaims _ userId _ => some userId
  | .clearClaims _ userId => some userId
  | _ => none

/-! ## What the store has confirmed -/

/-- The call has read the user under the identifier. -/
def ReadUser (userId : String) (past : Past) (user : User) : Prop :=
  ⟨.getUserById userId, .ok (some user)⟩ ∈ past

/-- The call has read the user, and has written what the patch makes of it. -/
def Updated (userId : String) (patch : UserPatch) (past : Past) (user : User) : Prop :=
  ∃ read now, ReadUser userId past read ∧ user = applyPatch patch now read ∧
    ⟨.writeUser userId read.version user, .ok true⟩ ∈ past

/-- The call has written the patch, which was legal for the status it read first, and has ended
the sessions of a user that entered a status that ends them. -/
def Patched (userId : String) (patch : UserPatch) (past : Past) (user : User) : Prop :=
  ∃ current, ReadUser userId past current ∧
    (∀ target, patch.status = some target → current.status.canTransitionTo target = true) ∧
    Updated userId patch past user ∧
    (enteredSuspendedOrDeleted current.status patch = true →
      ∃ count, ⟨.revokeAllUserSessions userId, .ok count⟩ ∈ past)

/-- The call has read the user, and has replaced its claims. -/
def Reclaimed (userId : String) (next : User → Table String Value) (past : Past) (user : User) :
    Prop :=
  ReadUser userId past user ∧ ∃ written, Updated userId (claimsPatch (next user)) past written

/-- What a request asks for has been done to the user with the identifier. -/
def AppRequest.Effected (request : AppRequest) (past : Past) (id : String) : Prop :=
  match request with
  | .admin (.token (.served (.adminUpdateUser _ userId patch))) =>
    ∃ user, Patched userId patch past user ∧ user.id = id
  | .admin (.token (.served (.adminDeleteUser _ userId))) =>
    ∃ user, Patched userId deletePatch past user ∧ user.id = id
  | .admin (.revokeUserSession _ userId _) => ∃ user, ReadUser userId past user ∧ user.id = id ∧
    ∃ familyId count, ⟨.revokeFamily familyId, .ok count⟩ ∈ past ∧ 0 < count
  | .admin (.revokeUserSessions _ userId) => ∃ user, ReadUser userId past user ∧ user.id = id ∧
    ∃ count, ⟨.revokeAllUserSessions userId, .ok count⟩ ∈ past
  | .createUser _ new => ∃ user, ⟨.createUser new, .ok user⟩ ∈ past ∧ user.id = id
  | .setClaims _ userId claims =>
    ∃ user, Reclaimed userId (fun _ => claims) past user ∧ user.id = id
  | .mergeClaims _ userId claims =>
    ∃ user, Reclaimed userId (fun user => mergedClaims user.claims claims) past user ∧ user.id = id
  | .clearClaims _ userId => ∃ user, Reclaimed userId (fun _ => ∅) past user ∧ user.id = id
  | _ => False

/-- An event that records a change of this kind, by this operator. -/
structure Attests (operator : OperatorPrincipal) (kind : AdminMutationKind) (id : String)
    (event : AuditEvent) : Prop where
  operator : event.operator = some operator
  eventType : event.eventType = (SecurityEvent.adminMutation kind).eventType
  outcome : event.outcome = .success
  actor : event.actor = some id

/-- An event that a request may record: without an operator, or after the change. -/
def AppRequest.Attributes (request : AppRequest) (past : Past) (event : AuditEvent) : Prop :=
  match request.mutation? with
  | some (operator, kind) => ∃ id, Attests operator kind id event ∧ request.Effected past id
  | none => event.operator = none

/-- The change that a request asks for has its record, which the sink has accepted where that is
enforced. -/
def AppRequest.Recorded (d : Deployment) (request : AppRequest) (past : Past) : Prop :=
  ∃ event ans, ⟨.emit event, ans⟩ ∈ past ∧ request.Attributes past event ∧
    (d.durability.isEnforce = true → ans = .ok ())

section Later

variable {past past' : Past} {userId : String} {user : User}

theorem ReadUser.of_suffix (h : ReadUser userId past user) (hsuffix : past <:+ past') :
    ReadUser userId past' user :=
  hsuffix.subset h

theorem Updated.of_suffix {patch : UserPatch} (h : Updated userId patch past user)
    (hsuffix : past <:+ past') : Updated userId patch past' user := by
  obtain ⟨read, now, hread, huser, hwritten⟩ := h
  exact ⟨read, now, hread.of_suffix hsuffix, huser, hsuffix.subset hwritten⟩

theorem Patched.of_suffix {patch : UserPatch} (h : Patched userId patch past user)
    (hsuffix : past <:+ past') : Patched userId patch past' user := by
  obtain ⟨current, hread, hlegal, hupdated, hends⟩ := h
  refine ⟨current, hread.of_suffix hsuffix, hlegal, hupdated.of_suffix hsuffix, fun hentered => ?_⟩
  obtain ⟨count, hmem⟩ := hends hentered
  exact ⟨count, hsuffix.subset hmem⟩

theorem Reclaimed.of_suffix {next : User → Table String Value}
    (h : Reclaimed userId next past user) (hsuffix : past <:+ past') :
    Reclaimed userId next past' user := by
  obtain ⟨hread, written, hwritten⟩ := h
  exact ⟨hread.of_suffix hsuffix, written, hwritten.of_suffix hsuffix⟩

/-- What was done stays done. -/
theorem AppRequest.Effected.of_suffix {request : AppRequest} {id : String}
    (h : request.Effected past id) (hsuffix : past <:+ past') : request.Effected past' id := by
  unfold AppRequest.Effected at h ⊢
  split at h
  · exact h.imp fun user h => ⟨h.1.of_suffix hsuffix, h.2⟩
  · exact h.imp fun user h => ⟨h.1.of_suffix hsuffix, h.2⟩
  · obtain ⟨user, hread, hid, familyId, count, hmem, hcount⟩ := h
    exact ⟨user, hread.of_suffix hsuffix, hid, familyId, count, hsuffix.subset hmem, hcount⟩
  · obtain ⟨user, hread, hid, count, hmem⟩ := h
    exact ⟨user, hread.of_suffix hsuffix, hid, count, hsuffix.subset hmem⟩
  · exact h.imp fun user h => ⟨hsuffix.subset h.1, h.2⟩
  · exact h.imp fun user h => ⟨h.1.of_suffix hsuffix, h.2⟩
  · exact h.imp fun user h => ⟨h.1.of_suffix hsuffix, h.2⟩
  · exact h.imp fun user h => ⟨h.1.of_suffix hsuffix, h.2⟩
  · exact h.elim

theorem AppRequest.Attributes.of_suffix {request : AppRequest} {event : AuditEvent}
    (h : request.Attributes past event) (hsuffix : past <:+ past') :
    request.Attributes past' event := by
  unfold AppRequest.Attributes at h ⊢
  split at h
  · exact h.imp fun id h => ⟨h.1, h.2.of_suffix hsuffix⟩
  · exact h

end Later

/-! ## The discipline -/

/-- The events that a call records are as stated. -/
def Attributing (good : Past → AuditEvent → Prop) (past : Past) (o : Op) : Prop :=
  ∀ event, o = .emit event → good past event

/-- The operation records nothing. -/
def Op.Silent : Op → Prop
  | .emit _ => False
  | _ => True

/-- The operation records nothing, or records without an operator. -/
def Op.Anonymous : Op → Prop
  | .emit event => event.operator = none
  | _ => True

section Discipline

variable (d : Deployment) {good : Past → AuditEvent → Prop} {past : Past}

theorem attributing_of_silent (past : Past) {o : Op} (h : o.Silent) : Attributing good past o := by
  rintro event rfl
  exact h.elim

/-- A part of a call that records nothing goes on from where it began. -/
theorem silent_grown {ε α : Type} {p : Service ε α} (hp : p.Only Op.Silent) (past : Past) :
    p.Obeys (Attributing good) (Grown past fun _ _ => True) past :=
  (hp.obeys fun past' _ => attributing_of_silent past').mono
    fun _ _ h => ⟨h.suffix, fun _ _ => trivial⟩

/-- A part of a call that goes on after a first operation. -/
theorem grown_cons {ε α : Type} {ready : Past → Op → Prop} {P : Past → α → Prop}
    {p : Service ε α} {e : Performed Ans} (h : p.Obeys ready (Grown (e :: past) P) (e :: past)) :
    p.Obeys ready (Grown past P) (e :: past) :=
  h.mono fun _ _ h => ⟨(List.suffix_cons ..).trans h.1, h.2⟩

/-- The mandatory channel: the sink is given the event, and has accepted it where that is
enforced. -/
theorem emitMandatory_grown {event : AuditEvent} (hgood : good past event) :
    (emitMandatoryAuditEvent d event).Obeys (Attributing good)
      (Grown past fun past' _ => ∃ ans, ⟨.emit event, ans⟩ ∈ past' ∧
        (d.durability.isEnforce = true → ans = .ok ())) past := by
  refine ⟨by rintro _ ⟨⟩; exact hgood, ?_⟩
  rintro ((error | _) | _)
  · show (if d.durability.isEnforce = true then _ else _ : Service Error Unit).Obeys _ _ _
    split
    · exact grown_failed (List.suffix_cons ..) _
    · rename_i hobserve
      exact ⟨List.suffix_cons .., fun _ _ => ⟨_, List.mem_cons_self, fun h => absurd h hobserve⟩⟩
  · exact grown_failed (List.suffix_cons ..) _
  · exact ⟨List.suffix_cons .., fun _ _ => ⟨_, List.mem_cons_self, fun _ => rfl⟩⟩

/-- What is attributed bears the operator, and is otherwise as it was. -/
theorem attributed_grown (event : AuditEvent) (operator : OperatorPrincipal) :
    (attributed event operator).Obeys (Attributing good)
      (Grown past fun past' e => past' = past ∧ e = { event with operator := some operator })
      past := by
  unfold attributed Service.assert
  split
  · split
    · exact ⟨List.suffix_rfl, by rintro _ ⟨⟩; exact ⟨rfl, rfl⟩⟩
    · exact Program.grown_error _
  · exact Program.grown_error _

/-! ## Changes of users -/

/-- What is on the way is not yet written, or was. -/
theorem updateAttempt_grown (userId : String) (patch : UserPatch) :
    (updateAttempt userId patch).Obeys (Attributing good)
      (Grown past fun past' r => ∀ user, r = some user → Updated userId patch past' user) past := by
  refine ⟨attributing_of_silent past trivial, ?_⟩
  rintro (e | _ | read)
  · exact grown_failed (List.suffix_cons ..) e
  · exact grown_failed (List.suffix_cons ..) _
  · refine ⟨attributing_of_silent _ trivial, fun now => ⟨attributing_of_silent _ trivial, ?_⟩⟩
    have hsuffix : ∀ ans : Answer Bool, past <:+ (⟨.writeUser userId read.version
        (applyPatch patch now read), ans⟩ :: ⟨.now, now⟩ ::
          ⟨.getUserById userId, .ok (some read)⟩ :: past : Past) := fun _ =>
      ⟨[_, _, _], rfl⟩
    rintro (e | _ | _)
    · exact grown_failed (hsuffix _) e
    · exact ⟨hsuffix _, by rintro _ ⟨⟩ user h; cases h⟩
    · refine ⟨hsuffix _, ?_⟩
      rintro _ ⟨⟩ user ⟨⟩
      exact ⟨read, now, by simp [ReadUser], rfl, List.mem_cons_self⟩

/-- An update that yields a user has written it. -/
theorem updateUser_grown (userId : String) (patch : UserPatch) :
    (updateUser userId patch).Obeys (Attributing good) (Grown past (Updated userId patch))
      past := by
  suffices h : ∀ budget past, (retryOnVersionConflict userId (updateAttempt userId patch)
      budget).Obeys (Attributing good) (Grown past (Updated userId patch)) past from
    h updateMaxAttempts past
  intro budget
  induction budget with
  | zero => exact fun past => Program.grown_error _
  | succ budget ih =>
    intro past
    refine (updateAttempt_grown userId patch).grown_bind ?_
    rintro past' (_ | user) - hwritten
    · exact ih past'
    · exact Program.grown_ok (hwritten user rfl)

/-- A validated patch that yields a user has been applied. -/
theorem applyValidatedPatch_grown (userId : String) (patch : UserPatch) :
    (applyValidatedPatch userId patch).Obeys (Attributing good) (Grown past (Patched userId patch))
      past := by
  have hchecked : (ensurePatchClaims patch).Obeys (Attributing good)
      (Grown past fun past' _ => past' = past) past :=
    (ensurePatchClaims_obeys patch).mono fun past' _ (h : past' = past) =>
      ⟨h ▸ List.suffix_rfl, fun _ _ => h⟩
  refine hchecked.grown_bind ?_
  rintro past _ - rfl
  refine ⟨attributing_of_silent _ trivial, ?_⟩
  rintro (e | _ | current)
  · exact grown_failed (List.suffix_cons ..) e
  · exact grown_failed (List.suffix_cons ..) _
  · have hread : ReadUser userId (⟨.getUserById userId, .ok (some current)⟩ :: past) current :=
      List.mem_cons_self
    refine grown_cons ((ensureTransition_obeys current.status patch).bind ?_ ?_)
    · rintro _ _ ⟨rfl, hlegal⟩
      refine (updateUser_grown userId patch).grown_bind fun past₁ user hsuffix hupdated => ?_
      show (if enteredSuspendedOrDeleted current.status patch = true then _ else _ :
        Service Error User).Obeys _ _ _
      split
      · refine ⟨attributing_of_silent _ trivial, ?_⟩
        rintro (e | count)
        · exact grown_failed (List.suffix_cons ..) e
        · refine ⟨List.suffix_cons .., ?_⟩
          rintro _ ⟨⟩
          have hlater := hsuffix.trans (List.suffix_cons
            (⟨.revokeAllUserSessions userId, .ok count⟩ : Performed Ans) past₁)
          exact ⟨current, hread.of_suffix hlater, hlegal rfl,
            hupdated.of_suffix (List.suffix_cons ..), fun _ => ⟨count, List.mem_cons_self⟩⟩
      · rename_i hstays
        exact Program.grown_ok ⟨current, hread.of_suffix hsuffix, hlegal rfl, hupdated,
          fun h => absurd h hstays⟩
    · rintro _ e ⟨rfl, -⟩
      exact Program.grown_error e

/-! ## Records of changes -/

variable {request : AppRequest}

theorem AppRequest.Recorded.of_suffix {past' : Past} (h : request.Recorded d past)
    (hsuffix : past <:+ past') : request.Recorded d past' := by
  obtain ⟨event, ans, hmem, hattributes, haccepted⟩ := h
  exact ⟨event, ans, hsuffix.subset hmem, hattributes.of_suffix hsuffix, haccepted⟩

/-- What follows a record and records nothing. -/
theorem silent_recorded {α : Type} {p : Service Error α} (hp : p.Only Op.Silent)
    (h : request.Recorded d past) : p.Obeys (Attributing request.Attributes)
      (Grown past fun past' _ => request.Recorded d past') past :=
  (silent_grown hp past).mono fun _ _ hgrown => ⟨hgrown.1, fun _ _ => h.of_suffix d hgrown.1⟩

/-- The record of a change that was made. -/
theorem record_grown {operator : OperatorPrincipal} {kind : AdminMutationKind} {id : String}
    (provider : Option String) (f : AuditEvent → AuditEvent)
    (hf : ∀ event, ∃ detail, f event = { event with detail := detail })
    (hmutation : request.mutation? = some (operator, kind)) (heffected : request.Effected past id) :
    (attributed ((SecurityEvent.adminMutation kind).intoAuditEvent .success (some id) provider
        .unknown none) operator >>= fun event => emitMandatoryAuditEvent d (f event)).Obeys
      (Attributing request.Attributes) (Grown past fun past' _ => request.Recorded d past')
      past := by
  refine (attributed_grown _ operator).grown_bind ?_
  rintro past _ - ⟨rfl, rfl⟩
  have hgood : ∀ past', past <:+ past' → request.Attributes past' (f { (SecurityEvent.adminMutation
      kind).intoAuditEvent .success (some id) provider .unknown none with
        operator := some operator }) := by
    intro past' hsuffix
    obtain ⟨detail, hdetail⟩ := hf { (SecurityEvent.adminMutation kind).intoAuditEvent .success
      (some id) provider .unknown none with operator := some operator }
    unfold AppRequest.Attributes
    rw [hmutation, hdetail]
    exact ⟨id, ⟨rfl, rfl, rfl, rfl⟩, heffected.of_suffix hsuffix⟩
  refine (emitMandatory_grown d (hgood _ List.suffix_rfl)).mono fun past' r h => ⟨h.1, fun a ha => ?_⟩
  obtain ⟨ans, hmem, haccepted⟩ := h.2 a ha
  exact ⟨_, ans, hmem, hgood past' h.1, haccepted⟩

theorem emitAdminMutationAuditEvent_grown {operator : OperatorPrincipal} {kind : AdminMutationKind}
    (user : User) (hmutation : request.mutation? = some (operator, kind))
    (heffected : request.Effected past user.id) :
    (emitAdminMutationAuditEvent d kind user .success operator).Obeys
      (Attributing request.Attributes) (Grown past fun past' _ => request.Recorded d past') past :=
  record_grown d _ id (fun event => ⟨event.detail, rfl⟩) hmutation heffected

theorem emitAdminMutationWithDetail_grown {operator : OperatorPrincipal} {kind : AdminMutationKind}
    {user : User} (detail : Table String Value)
    (hmutation : request.mutation? = some (operator, kind))
    (heffected : request.Effected past user.id) :
    (emitAdminMutationWithDetail d kind user operator detail).Obeys
      (Attributing request.Attributes) (Grown past fun past' _ => request.Recorded d past') past :=
  record_grown d _ (fun event => { event with detail := detail }) (fun _ => ⟨detail, rfl⟩) hmutation
    heffected

theorem emitClaimsAuditEvent_grown {operator : OperatorPrincipal} {user : User} (operation : String)
    (hmutation : request.mutation? = some (operator, .updated))
    (heffected : request.Effected past user.id) :
    (emitClaimsAuditEvent d operator user operation).Obeys
      (Attributing request.Attributes) (Grown past fun past' _ => request.Recorded d past') past :=
  record_grown d _ (fun event => { event with detail := event.detail.insert "operation" (.string operation) })
    (fun _ => ⟨_, rfl⟩) hmutation heffected

theorem notifyQuietly_silent (notice : UserSyncNotice) : (notifyQuietly notice).Only Op.Silent :=
  notifyQuietly_only_of _ trivial

theorem adminUpdateUser_records (operator : OperatorPrincipal) (userId : String)
    (patch : UserPatch) :
    (adminUpdateUser d operator userId patch).Obeys (Attributing (AppRequest.Attributes
        (.admin (.token (.served (.adminUpdateUser operator userId patch))))))
      (Grown [] fun past' _ => AppRequest.Recorded d
        (.admin (.token (.served (.adminUpdateUser operator userId patch)))) past') [] := by
  refine (applyValidatedPatch_grown userId patch).grown_bind fun past₁ user _ hpatched => ?_
  have heffected : AppRequest.Effected (.admin (.token (.served
      (.adminUpdateUser operator userId patch)))) past₁ user.id := ⟨user, hpatched, rfl⟩
  refine (emitAdminMutationAuditEvent_grown d user rfl heffected).grown_bind
    fun past₂ _ _ hrecorded => ?_
  exact silent_recorded d ((notifyQuietly_silent _).bind (f := fun _ => .done user) fun _ => trivial)
    hrecorded

theorem adminDeleteUser_records (operator : OperatorPrincipal) (userId : String) :
    (adminDeleteUser d operator userId).Obeys (Attributing (AppRequest.Attributes
        (.admin (.token (.served (.adminDeleteUser operator userId))))))
      (Grown [] fun past' _ => AppRequest.Recorded d
        (.admin (.token (.served (.adminDeleteUser operator userId)))) past') [] := by
  refine (applyValidatedPatch_grown userId deletePatch).grown_bind fun past₁ user _ hpatched => ?_
  have heffected : AppRequest.Effected (.admin (.token (.served
      (.adminDeleteUser operator userId)))) past₁ user.id := ⟨user, hpatched, rfl⟩
  refine (emitAdminMutationAuditEvent_grown d user rfl heffected).grown_bind
    fun past₂ _ _ hrecorded => ?_
  exact silent_recorded d (notifyQuietly_silent _) hrecorded

theorem adminCreateUser_records (operator : OperatorPrincipal) (new : NewUser) :
    (adminCreateUser d operator new).Obeys
      (Attributing (AppRequest.Attributes (.createUser operator new)))
      (Grown [] fun past' _ => AppRequest.Recorded d (.createUser operator new) past') [] := by
  refine ⟨attributing_of_silent _ trivial, ?_⟩
  rintro (e | user)
  · exact grown_failed (List.suffix_cons ..) e
  · have heffected : AppRequest.Effected (.createUser operator new) [⟨.createUser new, .ok user⟩]
        user.id := ⟨user, List.mem_cons_self, rfl⟩
    refine grown_cons ((emitAdminMutationAuditEvent_grown d user rfl heffected).grown_bind
      fun past₂ _ _ hrecorded => ?_)
    exact silent_recorded d ((notifyQuietly_silent _).bind (f := fun _ => .done user)
      fun _ => trivial) hrecorded

theorem replaceClaims_records (operator : OperatorPrincipal) (userId : String)
    (next : User → Table String Value) (operation : String)
    (hmutation : request.mutation? = some (operator, .updated))
    (heffected : ∀ past' user, Reclaimed userId next past' user →
      request.Effected past' user.id) :
    (replaceClaims d operator userId next operation).Obeys (Attributing request.Attributes)
      (Grown past fun past' _ => request.Recorded d past') past := by
  refine ⟨attributing_of_silent _ trivial, ?_⟩
  rintro (e | _ | user)
  · exact grown_failed (List.suffix_cons ..) e
  · exact grown_failed (List.suffix_cons ..) _
  · refine grown_cons ((updateUser_grown userId _).grown_bind fun past₁ written hsuffix hwritten => ?_)
    exact emitClaimsAuditEvent_grown d operation hmutation (heffected past₁ user
      ⟨ReadUser.of_suffix List.mem_cons_self hsuffix, written, hwritten⟩)

/-! ## What the clients do -/

theorem Op.Authenticates.anonymous {o : Op} (h : o.Authenticates) : o.Anonymous := by
  cases o <;> trivial

theorem Op.Unrecorded.anonymous {o : Op} (h : o.Unrecorded) : o.Anonymous := by
  cases o <;> trivial

/-- The operations that finding or creating a user performs have the property, its records without
an operator. -/
structure Op.Registers (P : Op → Prop) : Prop where
  find : ∀ externalId provider, P (.getUserByExternalId externalId provider)
  create : ∀ new, P (.createUser new)
  record : ∀ event, event.operator = none → P (.emit event)
  notify : ∀ notice, P (.notify notice)

theorem admitExisting_only_of {P : Op → Prop} (claims : IdentityClaims) (user : User) :
    (admitExisting d claims user).Only P := by
  unfold admitExisting
  split
  · trivial
  · split <;> trivial

theorem registerUser_only_of {P : Op → Prop} (hP : Op.Registers P) (req : ExchangeRequest)
    (claims : IdentityClaims) : (registerUser d req claims).Only P := by
  unfold registerUser
  split
  · trivial
  split
  · trivial
  refine ⟨hP.create _, ?_⟩
  rintro ((error | _) | created)
  · cases error with
    | conflict detail =>
      refine ⟨hP.find _ _, ?_⟩
      rintro (e | _ | user)
      · trivial
      · trivial
      · exact admitExisting_only_of d claims user
    | _ => trivial
  · trivial
  · have hrecord : (emitSecurityEvent d .principalCreated .success (some created.id)
        (some req.provider) req.clientAddr req.userAgent).Only P :=
      emitMandatoryAuditEvent_only_of d (hP.record _ rfl)
    refine hrecord.mapError.bind fun _ => ⟨hP.notify _, ?_⟩
    rintro ((error | _) | _) <;> trivial

theorem resolveUser_only_of {P : Op → Prop} (hP : Op.Registers P) (req : ExchangeRequest)
    (claims : IdentityClaims) : (resolveUser d req claims).Only P := by
  refine ⟨hP.find _ _, ?_⟩
  rintro (e | _ | user)
  · trivial
  · exact registerUser_only_of d hP req claims
  · exact admitExisting_only_of d claims user

/-- A flow that succeeded is recorded, or its session is taken back. -/
theorem concludeSuccess_only_of {P : Op → Prop} (hrecord : ∀ event, event.operator = none →
    P (.emit event)) (hrevoke : ∀ h, P (.revokeSession h)) (req : ExchangeRequest)
    (success : ExchangeSuccess) : (concludeSuccess d req success).Only P := by
  have hevent : (emitSecurityEvent d (.authenticationSucceeded .exchange) .success
      success.userId (some req.provider) req.clientAddr req.userAgent).Only P :=
    emitMandatoryAuditEvent_only_of d (hrecord _ rfl)
  refine hevent.attempt.bind ?_
  rintro ((error | _) | _)
  · show (if d.durability.isEnforce = true then _ else _ :
      Service Error TokenResponse).Only P
    split
    · exact ⟨hrevoke _, by rintro (e | _) <;> trivial⟩
    · trivial
  · trivial
  · trivial

/-- A failed flow is recorded without an operator. -/
theorem concludeFailure_anonymous (req : ExchangeRequest) (failure : ExchangeFlowError) :
    (concludeFailure d req failure).Only Op.Anonymous := by
  have hrecord : ∀ (event : AuditEvent) (error : Error), event.operator = none →
      (emitMandatoryAuditEvent d event >>= fun _ =>
        (fail error : Service Error TokenResponse)).Only Op.Anonymous :=
    fun event error h => (emitMandatoryAuditEvent_only_of d h).bind fun _ => fail_only _
  unfold concludeFailure
  split
  · exact hrecord _ _ rfl
  · rename_i detail
    have hfault : (emitAudit d (storeFaultEvent req detail)).Only Op.Anonymous :=
      emitAudit_only_of d rfl
    refine hfault.attempt.bind ?_
    rintro ((error | _) | _) <;> trivial
  · exact hrecord _ _ rfl
  · exact hrecord _ _ rfl

/-- An exchange records without an operator. -/
theorem exchange_anonymous (req : ExchangeRequest) : (exchange d req).Only Op.Anonymous := by
  have hregisters : Op.Registers Op.Anonymous :=
    ⟨fun _ _ => trivial, fun _ => trivial, fun _ h => h, fun _ => trivial⟩
  have hrespond : ∀ user raw s, (respondToExchange d user raw s).Only Op.Anonymous :=
    fun user raw s => (buildAccessToken_only_of d trivial (fun _ _ _ _ => trivial) user _).bind
      fun _ => (assert_only _).bind fun _ => trivial
  have hinner : (exchangeInner d req).Only Op.Anonymous := by
    refine ((authenticate_only_asks d req).mono fun _ => Op.Authenticates.anonymous).bind
      fun claims => (resolveUser_only_of d hregisters req claims).bind fun user => ?_
    refine ((storeNewSession_only d user).mono fun _ => Op.Unrecorded.anonymous).mapError.bind ?_
    rintro ⟨raw, s⟩
    exact (hrespond user raw s).mapError
  refine hinner.attempt.bind ?_
  rintro ((failure | _) | success)
  · exact concludeFailure_anonymous d req failure
  · trivial
  · exact concludeSuccess_only_of d (fun _ h => h) (fun _ => trivial) req success

/-- The operations that a refresh performs have the property, its records without an operator. -/
structure Op.Refreshes (P : Op → Prop) : Prop where
  now : P .now
  token : P .randomToken
  family : P .newFamilyId
  resolve : ∀ h, P (.resolveRefreshToken h)
  rotate : ∀ h r, P (.rotateRefreshToken h r)
  revoke : ∀ familyId, P (.revokeFamily familyId)
  read : ∀ u, P (.getUserById u)
  sign : ∀ algorithm type keyId claims, P (.sign algorithm type keyId claims)
  record : ∀ event, event.operator = none → P (.emit event)

section Refresh

variable {P : Op → Prop} (hP : Op.Refreshes P) (req : RefreshRequest)

include hP

theorem refuseWithValidationFailed_only_of {α : Type} (reason : String) (actor : Option String) :
    (refuseWithValidationFailed d reason actor req : Service Error α).Only P := by
  have hrecord : (emitAudit d (createAuditEvent .validationFailed .debug
      (.failure .authenticationFailed) actor none req.clientAddr req.userAgent)).Only P :=
    emitAudit_only_of d (hP.record _ rfl)
  exact (assert_only _).bind fun _ => hrecord.bind fun _ => fail_only _

theorem refuseSuspended_only_of {α : Type} (user : User) :
    (refuseSuspended d user req : Service Error α).Only P := by
  have hrecord : (emitSecurityEvent d .principalSuspended (.failure .principalSuspended)
      (some user.id) none req.clientAddr req.userAgent).Only P :=
    emitMandatoryAuditEvent_only_of d (hP.record _ rfl)
  exact hrecord.bind fun _ => fail_only _

theorem revokeFamilyForReuse_only_of {α : Type} (familyId userId : String) :
    (revokeFamilyForReuse d familyId userId req : Service Error α).Only P := by
  refine (assert_only _).bind fun _ => (assert_only _).bind fun _ => ⟨hP.revoke _, ?_⟩
  rintro (e | count)
  · trivial
  · have hrecord : (emitSecurityEventWithDetail d .refreshTokenReuse .success (some userId) none
        req.clientAddr req.userAgent (reuseDetail familyId count)).Only P :=
      emitMandatoryAuditEvent_only_of d (hP.record _ rfl)
    exact (assert_only _).bind fun _ => hrecord.bind fun _ => fail_only _

/-- A response to a refresh is built and recorded. -/
theorem respond_only_of (user : User) (familyId : String) (generation : UInt32)
    (viaGrace : Bool) (respond : AccessToken × UInt64 → TokenResponse) :
    (buildAccessToken d user familyId >>= fun r =>
      auditSuccessfulRefresh d user.id familyId generation viaGrace req >>= fun _ =>
        (.done (respond r) : Service Error TokenResponse)).Only P := by
  have hrecord : (emitSecurityEventWithDetail d (.authenticationSucceeded .refresh) .success
      (some user.id) none req.clientAddr req.userAgent
        (refreshDetail familyId generation viaGrace)).Only P :=
    emitMandatoryAuditEvent_only_of d (hP.record _ rfl)
  have haudit : (auditSuccessfulRefresh d user.id familyId generation viaGrace req).Only P :=
    (assert_only _).bind fun _ => (assert_only _).bind fun _ => hrecord
  exact (buildAccessToken_only_of d hP.now hP.sign user _).bind fun _ =>
    haudit.bind fun _ => trivial

theorem rotateAndRespond_only_of (live : Session) (viaGrace : Bool) :
    (rotateAndRespond d live viaGrace req).Only P := by
  refine (assert_only _).bind fun _ => ⟨hP.now, fun now => ?_⟩
  show (if live.expiresAt < now then _ else _ : Service Error TokenResponse).Only _
  split
  · exact refuseWithValidationFailed_only_of d hP req _ _
  refine ⟨hP.read _, ?_⟩
  rintro (e | _ | user)
  · trivial
  · exact refuseWithValidationFailed_only_of d hP req _ _
  show (if user.status ≠ .active then refuseSuspended d user req else _ :
    Service Error TokenResponse).Only _
  split
  · exact refuseSuspended_only_of d hP req user
  refine (mintReplacement_only_of hP.token hP.family hP.now live).bind ?_
  rintro ⟨raw, r⟩
  refine ⟨hP.rotate _ _, ?_⟩
  rintro (e | _ | _)
  · trivial
  · exact refuseWithValidationFailed_only_of d hP req _ _
  · exact respond_only_of d hP req user r.familyId r.generation viaGrace _

theorem refreshWithoutRotation_only_of (resolution : RefreshResolution) :
    (refreshWithoutRotation d resolution req).Only P := by
  cases resolution with
  | live session =>
    refine (assert_only _).bind fun _ => ⟨hP.now, fun now => ?_⟩
    show (if session.expiresAt < now then _ else _ : Service Error TokenResponse).Only _
    split
    · exact refuseWithValidationFailed_only_of d hP req _ _
    refine ⟨hP.read _, ?_⟩
    rintro (e | _ | user)
    · trivial
    · exact refuseWithValidationFailed_only_of d hP req _ _
    show (if user.status ≠ .active then refuseSuspended d user req else _ :
      Service Error TokenResponse).Only _
    split
    · exact refuseSuspended_only_of d hP req user
    · exact respond_only_of d hP req user session.familyId session.generation false _
  | _ => exact refuseWithValidationFailed_only_of d hP req _ _

/-- Whatever it is answered, a refresh performs only operations of a refresh. -/
theorem refresh_only_of : (refresh d req).Only P := by
  refine (assert_only _).bind fun _ => (assert_only _).bind fun _ => ⟨hP.resolve _, ?_⟩
  rintro (e | resolution)
  · trivial
  show (if d.refreshRotation = true then redeem d resolution req else _ :
    Service Error TokenResponse).Only _
  split
  · cases resolution with
    | unknown => exact refuseWithValidationFailed_only_of d hP req _ _
    | live session => exact rotateAndRespond_only_of d hP req session false
    | superseded live retiredAt =>
      refine (assert_only _).bind fun _ => ⟨hP.now, fun now => ?_⟩
      show (if withinGrace now retiredAt d.refreshRotationGrace then _ else _ :
        Service Error TokenResponse).Only _
      split
      · exact rotateAndRespond_only_of d hP req live true
      · exact revokeFamilyForReuse_only_of d hP req _ _
    | retired familyId userId retiredAt => exact revokeFamilyForReuse_only_of d hP req _ _
  · exact refreshWithoutRotation_only_of d hP req resolution

end Refresh

/-! ## Revocations -/

/-- The operation is not one of the core, or records nothing that names an operator. -/
def RevokeOp.Anonymous : RevokeOp → Prop
  | .port o => o.Anonymous
  | .getSessionByRefreshToken _ => True

/-- The operation is not one of the core, or records nothing that names an operator. -/
def AdminOp.Anonymous : AdminOp → Prop
  | .token o => o.Anonymous
  | .listLiveSessions _ _ _ => True

/-- A client's revocation records without an operator. -/
theorem revoke_anonymous {Bytes : Type} (W : Wire Bytes) (K : KeyManager Bytes)
    (req : RevokeRequest) : (revoke W K d req).Only RevokeOp.Anonymous := by
  have hported : ∀ {α : Type} {p : Service Error α}, p.Only Op.Anonymous →
      (ported p).Only RevokeOp.Anonymous := fun hp => ported_only hp fun _ h => h
  have hreject : (emitRevokeRejection d req).Only Op.Anonymous := emitMandatoryAuditEvent_only_of d rfl
  have haccess : (revokeAccessToken W K d req).Only Op.Anonymous := by
    refine ⟨trivial, fun now => ?_⟩
    dsimp only [Program.bind]
    split
    · trivial
    · exact hreject
    · refine (assert_only _).bind fun _ => ?_
      split
      · exact hreject
      · refine (assert_only _).bind fun _ => ⟨trivial, ?_⟩
        rintro (e | count)
        · trivial
        · exact emitMandatoryAuditEvent_only_of d rfl
  have hfound : ∀ session, (revokeFound d req (d.digest req.token) session).Only Op.Anonymous := by
    refine fun session => (assert_only _).bind fun _ => (assert_only _).bind fun _ => ⟨trivial, ?_⟩
    rintro (e | _)
    · trivial
    · exact emitMandatoryAuditEvent_only_of d rfl
  refine (hported (assert_only _)).bind fun _ => ?_
  show (if req.tokenTypeHint = some "access_token" then _ else _ : RevokeService Error Unit).Only _
  split
  · exact hported haccess
  · refine (hported (assert_only _)).bind fun _ => ⟨trivial, ?_⟩
    rintro (e | _ | session)
    · trivial
    · exact hported hreject
    · exact hported (hfound session)

/-- A user that is there was read. -/
theorem loadLiveUser_grown (userId : String) :
    (loadLiveUser userId).Obeys (Attributing good) (Grown past (ReadUser userId)) past := by
  refine ⟨attributing_of_silent _ trivial, ?_⟩
  rintro (e | _ | user)
  · exact grown_failed (List.suffix_cons ..) e
  · exact grown_failed (List.suffix_cons ..) _
  · show (if user.status = .deleted then _ else _ : Service Error User).Obeys _ _ _
    split
    · exact grown_failed (List.suffix_cons ..) _
    · refine ⟨List.suffix_cons .., ?_⟩
      rintro _ ⟨⟩
      exact List.mem_cons_self

theorem revokeListedFamily_records (operator : OperatorPrincipal) {user : User} {userId : String}
    (sessionId familyId : String) (hread : ReadUser userId past user) :
    (revokeListedFamily d operator user sessionId familyId).Obeys
      (Attributing (AppRequest.Attributes (.admin (.revokeUserSession operator userId sessionId))))
      (Grown past fun past' _ => AppRequest.Recorded d
        (.admin (.revokeUserSession operator userId sessionId)) past') past := by
  refine ⟨attributing_of_silent _ trivial, ?_⟩
  rintro (e | count)
  · exact grown_failed (List.suffix_cons ..) e
  · show (if count = 0 then _ else _ : Service Error Unit).Obeys _ _ _
    split
    · exact grown_failed (List.suffix_cons ..) _
    · rename_i hcount
      exact grown_cons (emitAdminMutationWithDetail_grown d _ rfl ⟨user,
        hread.of_suffix (List.suffix_cons ..), rfl, familyId, count, List.mem_cons_self,
        Nat.pos_of_ne_zero hcount⟩)

theorem adminRevokeUserSessions_records (operator : OperatorPrincipal) (userId : String) :
    (adminRevokeUserSessions d operator userId).Obeys
      (Attributing (AppRequest.Attributes (.admin (.revokeUserSessions operator userId))))
      (Grown [] fun past' _ => AppRequest.Recorded d
        (.admin (.revokeUserSessions operator userId)) past') [] := by
  refine (loadLiveUser_grown userId).grown_bind fun past₁ user _ hread => ?_
  refine ⟨attributing_of_silent _ trivial, ?_⟩
  rintro (e | count)
  · exact grown_failed (List.suffix_cons ..) e
  · have heffected : AppRequest.Effected (.admin (.revokeUserSessions operator userId))
        (⟨.revokeAllUserSessions userId, .ok count⟩ :: past₁) user.id :=
      ⟨user, hread.of_suffix (List.suffix_cons ..), rfl, count, List.mem_cons_self⟩
    exact grown_cons ((emitAdminMutationWithDetail_grown d _ rfl heffected).grown_bind
      fun _ _ _ hrecorded => Program.grown_ok hrecorded)

/-! ## Every request -/

/-- The events that a call records are as its request may record them. -/
def AppAttributing (request : AppRequest) (past : AdminPast) (o : AdminOp) : Prop :=
  ∀ event, o = .token (.port (.emit event)) → request.Attributes (AdminPast.core past) event

/-- A change that was acknowledged has its record. -/
def AppRecorded (request : AppRequest) (past : AdminPast)
    (result : Except (Fault Error) AppReply) : Prop :=
  ∀ reply, result = .ok reply → request.mutation?.isSome = true →
    request.Recorded d (AdminPast.core past)

theorem appAttributing_of_core {past : AdminPast} {o : Op}
    (h : Attributing request.Attributes (AdminPast.core past) o) :
    AppAttributing request past (.token (.port o)) := by
  rintro event ⟨⟩
  exact h event rfl

/-- A request that changes nothing, and records without an operator. -/
theorem anonymous_attributes {p : AdminService Error AppReply}
    (hmutation : request.mutation? = none) (hp : p.Only AdminOp.Anonymous) :
    p.Obeys (AppAttributing request) (AppRecorded d request) [] := by
  refine (hp.obeys ?_).mono fun _ _ _ _ _ hsome => ?_
  · rintro past o ho event rfl
    unfold AppRequest.Attributes
    rw [hmutation]
    exact ho
  · rw [hmutation] at hsome
    cases hsome

/-- A request whose change is a call of the core that records it. -/
theorem recorded_attributes {α : Type} {p : Service Error α} {f : α → AppReply}
    (hp : p.Obeys (Attributing request.Attributes)
      (Grown [] fun past' _ => request.Recorded d past') []) :
    (f <$> administered p).Obeys (AppAttributing request) (AppRecorded d request) [] := by
  refine Program.Obeys.bind (administered_start hp fun _ _ => appAttributing_of_core) ?_ ?_
  · rintro past a ⟨-, hrecorded⟩ _ _ _
    exact hrecorded a rfl
  · rintro past e - reply ⟨⟩

/-- A request that a call of the core serves, when the core answers in another form. -/
theorem served_attributes {α : Type} {p : Service Error α} {f : α → Response}
    {g : Response → AppReply} (hp : p.Obeys (Attributing request.Attributes)
      (Grown [] fun past' _ => request.Recorded d past') []) :
    (g <$> administered (f <$> p)).Obeys (AppAttributing request) (AppRecorded d request) [] :=
  recorded_attributes d (hp.grown_bind fun _ _ _ hrecorded => Program.grown_ok hrecorded)

theorem adminRevokeUserSession_records (sessionIdForFamily : String → String)
    (operator : OperatorPrincipal) (userId sessionId : String) (f : Unit → AppReply) :
    (f <$> adminRevokeUserSession d sessionIdForFamily operator userId sessionId).Obeys
      (AppAttributing (.admin (.revokeUserSession operator userId sessionId)))
      (AppRecorded d (.admin (.revokeUserSession operator userId sessionId))) [] := by
  have hsilent : ∀ {past : AdminPast} {o : AdminOp}, (∀ event, o ≠ .token (.port (.emit event))) →
      AppAttributing (.admin (.revokeUserSession operator userId sessionId)) past o :=
    fun hne event heq => absurd heq (hne event)
  suffices h : (adminRevokeUserSession d sessionIdForFamily operator userId sessionId).Obeys
      (AppAttributing (.admin (.revokeUserSession operator userId sessionId)))
      (fun past r => ∀ u, r = .ok u → AppRequest.Recorded d
        (.admin (.revokeUserSession operator userId sessionId)) (AdminPast.core past)) [] by
    refine h.bind ?_ ?_
    · rintro past u hrecorded _ _ _
      exact hrecorded u rfl
    · rintro past e - reply ⟨⟩
  refine Program.Obeys.bind (administered_start (loadLiveUser_grown userId) fun _ _ =>
    appAttributing_of_core) ?_ (fun _ _ _ => promised_error _)
  rintro past user ⟨-, hread⟩
  have hread := hread user rfl
  refine ⟨hsilent (fun _ h => by cases h), fun now => ⟨hsilent (fun _ h => by cases h), ?_⟩⟩
  rintro (e | sessions)
  · exact promised_error _
  · dsimp only [Program.bind, Program.ofExcept]
    split
    · rename_i familyId _
      have hread : ReadUser userId (AdminPast.core (⟨.listLiveSessions userId now maxListedSessions,
          .ok sessions⟩ :: ⟨.token (.port .now), now⟩ :: past)) user :=
        ReadUser.of_suffix hread (List.suffix_cons ..)
      have hrevoked := revokeListedFamily_records d operator sessionId familyId hread
      exact Program.Obeys.mono (fun _ _ h => h.2)
        (administered_obeys hrevoked fun _ _ => appAttributing_of_core)
    · exact promised_error _

/-- **Every request records what its operator has done.** -/
theorem answerApp_attributes (sessionIdForFamily : String → String) {Bytes : Type} (W : Wire Bytes)
    (K : KeyManager Bytes) (request : AppRequest) :
    (answerApp d sessionIdForFamily W K request).Obeys (AppAttributing request)
      (AppRecorded d request) [] := by
  have hcore : ∀ {α : Type} {p : Service Error α} {f : α → AppReply}, p.Only Op.Anonymous →
      (f <$> administered p).Only AdminOp.Anonymous := fun hp =>
    (administered_only (Q := AdminOp.Anonymous) hp fun _ h => h).bind fun _ => trivial
  have hserved : ∀ {α : Type} {p : Service Error α} {f : α → Response} {g : Response → AppReply},
      p.Only Op.Anonymous → (g <$> administered (f <$> p)).Only AdminOp.Anonymous := fun hp =>
    hcore (hp.bind fun _ => trivial)
  cases request with
  | admin request =>
    cases request with
    | token request =>
      cases request with
      | served request =>
        rw [answerApp_served]
        cases request with
        | refresh req =>
          have hrefreshes : Op.Refreshes Op.Anonymous :=
            ⟨trivial, trivial, trivial, fun _ => trivial, fun _ _ => trivial, fun _ => trivial,
              fun _ => trivial, fun _ _ _ _ => trivial, fun _ h => h⟩
          exact anonymous_attributes d rfl (hserved (refresh_only_of d hrefreshes req))
        | exchange req => exact anonymous_attributes d rfl (hserved (exchange_anonymous d req))
        | adminUpdateUser operator userId patch =>
          exact served_attributes d (adminUpdateUser_records d operator userId patch)
        | adminDeleteUser operator userId =>
          exact served_attributes d (adminDeleteUser_records d operator userId)
      | revoke request =>
        have htokened : (tokened (revoke W K d request)).Only AdminOp.Anonymous :=
          (revoke_anonymous d W K request).interp fun _ ho => ⟨ho, fun _ => trivial⟩
        rw [answerApp_revoke]
        exact anonymous_attributes d rfl (htokened.bind fun _ => trivial)
    | revokeUserSession operator userId sessionId =>
      rw [answerApp_revokeUserSession]
      exact adminRevokeUserSession_records d sessionIdForFamily operator userId sessionId _
    | revokeUserSessions operator userId =>
      rw [answerApp_revokeUserSessions]
      exact recorded_attributes d (adminRevokeUserSessions_records d operator userId)
  | createUser operator new =>
    exact recorded_attributes d (adminCreateUser_records d operator new)
  | getUser userId =>
    exact anonymous_attributes d rfl (hcore (p := adminGetUser userId)
      ⟨trivial, by rintro (e | user) <;> trivial⟩)
  | getClaims userId =>
    exact anonymous_attributes d rfl (hcore (p := adminGetClaims userId)
      ⟨trivial, by rintro (e | _ | user) <;> trivial⟩)
  | setClaims operator userId claims =>
    exact recorded_attributes d ((silent_grown (ensureNoReservedClaims_only claims) []).grown_bind
      fun _ _ _ _ => replaceClaims_records d operator userId _ _ rfl fun _ user h => ⟨user, h, rfl⟩)
  | mergeClaims operator userId claims =>
    exact recorded_attributes d ((silent_grown (ensureNoReservedClaims_only claims) []).grown_bind
      fun _ _ _ _ => replaceClaims_records d operator userId _ _ rfl fun _ user h => ⟨user, h, rfl⟩)
  | clearClaims operator userId =>
    exact recorded_attributes d (replaceClaims_records d operator userId _ _ rfl
      fun _ user h => ⟨user, h, rfl⟩)
  | listUserSessions userId =>
    refine anonymous_attributes d rfl (Program.Only.bind ?_ fun _ => trivial)
    refine ⟨trivial, ?_⟩
    rintro (e | _ | user)
    · trivial
    · trivial
    · show (if user.status = .deleted then _ else _ :
        AdminService Error (Option (List SessionSummary))).Only _
      split
      · trivial
      · exact ⟨trivial, fun now => ⟨trivial, by rintro (e | sessions) <;> trivial⟩⟩

end Discipline

/-! ## Runs -/

section Runs

variable {d : Deployment} {sessionIdForFamily : String → String} {Bytes : Type} {W : Wire Bytes}
  {K : KeyManager Bytes}

/-- What was done was done to the user that the request names. -/
theorem AppRequest.Effected.target {request : AppRequest} {past : Past} {id userId : String}
    (hread : ∀ id user, ReadUser id past user → user.id = id) (h : request.Effected past id)
    (htarget : request.target? = some userId) : id = userId := by
  have hupdated : ∀ {u patch user}, Updated u patch past user → user.id = u := by
    rintro u patch _ ⟨read, now, hmem, rfl, -⟩
    exact hread u read hmem
  unfold AppRequest.target? at htarget
  unfold AppRequest.Effected at h
  split at h <;> first | cases htarget | exact h.elim
  · obtain ⟨user, ⟨-, -, -, huser, -⟩, rfl⟩ := h
    exact hupdated huser
  · obtain ⟨user, ⟨-, -, -, huser, -⟩, rfl⟩ := h
    exact hupdated huser
  · obtain ⟨user, hmem, rfl, -⟩ := h
    exact hread _ _ hmem
  · obtain ⟨user, hmem, rfl, -⟩ := h
    exact hread _ _ hmem
  · obtain ⟨user, ⟨hmem, -⟩, rfl⟩ := h
    exact hread _ _ hmem
  · obtain ⟨user, ⟨hmem, -⟩, rfl⟩ := h
    exact hread _ _ hmem
  · obtain ⟨user, ⟨hmem, -⟩, rfl⟩ := h
    exact hread _ _ hmem

/-- **Operators answer for what they change**: in every run, every event that was handed to the
sink bears the operator of the request that its call serves, and none when that request is no
operator's; an event with an operator tells the kind of the request and the user it names, and
was emitted after the store had confirmed the change. Every change that was acknowledged has such
an event, which the sink has accepted where that is enforced. -/
theorem operators_accountable {clock : Instant} {p : AppPool} {as : List AppAct}
    (hrun : (appService d sessionIdForFamily W K).Run System.anyStep (AppPool.start clock) as p) :
    (∀ c event ans, .performed c (.token (.port (.emit event))) ans ∈ p.history →
      ∃ request past, .began c request ∈ p.history ∧
        (⟨.emit event, ans⟩ :: past) <:+ AdminPast.core (p.toMoment.past c) ∧
        event.operator = request.mutation?.map Prod.fst ∧
        ∀ operator kind, request.mutation? = some (operator, kind) → ∃ id,
          Attests operator kind id event ∧ request.Effected past id ∧
          ∀ userId, request.target? = some userId → id = userId) ∧
    ∀ c request reply, p.Returned c request reply → request.mutation?.isSome = true →
      request.Recorded d (AdminPast.core (p.toMoment.past c)) := by
  constructor
  · intro c event ans hmem
    have hread := (appInvariant_of_run hrun).provenance.read c
    obtain ⟨request, past, hbegan, hready, hsuffix⟩ :=
      admitted_of_run (answerApp_attributes d sessionIdForFamily W K) hrun c _ ans hmem
    have hattributes := hready event rfl
    have hcore : (⟨.emit event, ans⟩ :: AdminPast.core past) <:+
        AdminPast.core (p.toMoment.past c) := by
      rw [← core_cons_port]
      exact (hsuffix.filterMap tokenPerformed).filterMap corePerformed
    refine ⟨request, AdminPast.core past, hbegan, hcore, ?_⟩
    unfold AppRequest.Attributes at hattributes
    split at hattributes
    · rename_i operator kind hmutation
      obtain ⟨id, hattests, heffected⟩ := hattributes
      rw [hmutation]
      refine ⟨hattests.operator, ?_⟩
      rintro _ _ ⟨⟩
      refine ⟨id, hattests, heffected, fun userId htarget => heffected.target ?_ htarget⟩
      intro u user hmem'
      refine hread u user ((Moment.mem_past ..).mp ?_)
      rw [past_core_app]
      exact ((List.suffix_cons ..).trans hcore).subset hmem'
    · rename_i hnone
      rw [hnone]
      exact ⟨hattributes, by rintro _ _ ⟨⟩⟩
  · intro c request reply hreturned hsome
    have hdisciplined : Disciplined AppAttributing (fun request => AppRecorded d request) p :=
      (Disciplined.initial _).run (answerApp_attributes d sessionIdForFamily W K) hrun
    exact hdisciplined.returned hreturned reply rfl hsome

end Runs

/-! ## A run -/

namespace Sample

/-- The operator of call 2 was told that the user was created. -/
def toldCreated (p : AppPool) : Bool :=
  match p.calls 2 with
  | some ⟨.createUser o _, .done (.created _)⟩ => decide (o = operator)
  | _ => false

theorem run_created : ∃ p new user,
    app.Run System.anyStep (AppPool.start 0) signedInAndRefreshed p ∧
      p.Returned 2 (.createUser operator new) (.created user) := by
  have hruns : (app.follow (AppPool.start 0) signedInAndRefreshed).any toldCreated = true := by
    decide +kernel
  obtain ⟨p, hrun, htest⟩ := System.Run.of_follow_any hruns
  unfold toldCreated at htest
  split at htest
  · rename_i o new user hcall
    obtain rfl := of_decide_eq_true htest
    exact ⟨p, new, user, hrun, hcall⟩
  · cases htest

end Sample

/-- The creation of a user was recorded with its operator, by a call of that operator. -/
theorem operators_accountable_created : ∃ p new id event,
    Sample.app.Run System.anyStep (AppPool.start 0) Sample.signedInAndRefreshed p ∧
      Attests Sample.operator .created id event ∧
      AppRequest.Effected (.createUser Sample.operator new)
        (AdminPast.core (p.toMoment.past 2)) id := by
  obtain ⟨p, new, user, hrun, hreturned⟩ := Sample.run_created
  obtain ⟨event, ans, -, ⟨id, hattests, heffected⟩, -⟩ :=
    (operators_accountable hrun).2 2 _ _ hreturned rfl
  exact ⟨p, new, id, event, hrun, hattests, heffected⟩

end OidcExchange
