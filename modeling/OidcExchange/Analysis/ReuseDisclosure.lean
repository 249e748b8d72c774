import OidcExchange.Analysis.Undisturbed
import OidcExchange.Program.ErrorResponse

/-!
# Whether a refusal tells that the reuse detector fired

Two refreshes against one environment, one with a retired token outside its grace window and
one with a token the store does not know. Each refusal ends in the same error unless the
record it leaves fails it: the unknown token leaves a best-effort record, the retired one
revokes its family and leaves a mandatory record.
-/

set_option autoImplicit false

namespace OidcExchange

open Interleaving Service

variable (d : Deployment) (answers : (o : Op) → Ans o)

/-! ## The two audit channels -/

/-- The best-effort channel lets the call go on. -/
def AuditPasses (event : AuditEvent) : Prop :=
  d.emitThreshold.level < event.severity.level ∨ answers (.emit event) = .ok () ∨
    ∃ e, answers (.emit event) = .error (.error e) ∧
      d.blockingThreshold.level < event.severity.level

/-- The best-effort channel fails the call. -/
def AuditFails (event : AuditEvent) (e : Error) : Prop :=
  event.severity.level ≤ d.emitThreshold.level ∧ answers (.emit event) = .error (.error e) ∧
    event.severity.level ≤ d.blockingThreshold.level

/-- The mandatory channel lets the call go on. -/
def MandatoryPasses (event : AuditEvent) : Prop :=
  answers (.emit event) = .ok () ∨
    ∃ e, answers (.emit event) = .error (.error e) ∧ d.durability.isEnforce = false

/-- The mandatory channel fails the call. -/
def MandatoryFails (event : AuditEvent) (e : Error) : Prop :=
  d.durability.isEnforce = true ∧
    ∃ cause, answers (.emit event) = .error (.error cause) ∧
      e = .securityAuditDurability cause.display

theorem emitAudit_ok_iff {event : AuditEvent} :
    (emitAudit d event).run answers = .ok () ↔ AuditPasses d answers event := by
  unfold emitAudit AuditPasses
  by_cases hbelow : d.emitThreshold.level < event.severity.level
  · simp [hbelow]
  · cases hemit : answers (.emit event) with
    | ok _ => simp [hbelow, hemit]
    | error fault =>
      cases fault with
      | panic => simp [hbelow, hemit]
      | error e =>
        by_cases hblocking : event.severity.level ≤ d.blockingThreshold.level
        · simp [hbelow, hemit, hblocking, fail]
        · simp [hbelow, hemit, hblocking, Nat.lt_of_not_le hblocking]

theorem emitAudit_error_iff {event : AuditEvent} {e : Error} :
    (emitAudit d event).run answers = .error (.error e) ↔ AuditFails d answers event e := by
  unfold emitAudit AuditFails
  by_cases hbelow : d.emitThreshold.level < event.severity.level
  · have hnot : ¬ event.severity.level ≤ d.emitThreshold.level := by omega
    simp [hbelow, hnot]
  · have hle : event.severity.level ≤ d.emitThreshold.level := by omega
    cases hemit : answers (.emit event) with
    | ok _ => simp [hbelow, hemit]
    | error fault =>
      cases fault with
      | panic => simp [hbelow, hemit]
      | error cause =>
        by_cases hblocking : event.severity.level ≤ d.blockingThreshold.level
        · simp [hbelow, hle, hemit, hblocking, fail]
        · simp [hbelow, hemit, hblocking]

theorem emitMandatory_ok_iff {event : AuditEvent} :
    (emitMandatoryAuditEvent d event).run answers = .ok () ↔ MandatoryPasses d answers event := by
  unfold emitMandatoryAuditEvent MandatoryPasses
  cases hemit : answers (.emit event) with
  | ok _ => simp [hemit]
  | error fault =>
    cases fault with
    | panic => simp [hemit]
    | error e => cases henforce : d.durability.isEnforce <;> simp [hemit, fail]

theorem emitMandatory_error_iff {event : AuditEvent} {e : Error} :
    (emitMandatoryAuditEvent d event).run answers = .error (.error e) ↔
      MandatoryFails d answers event e := by
  unfold emitMandatoryAuditEvent MandatoryFails
  cases hemit : answers (.emit event) with
  | ok _ => simp [hemit]
  | error fault =>
    cases fault with
    | panic => simp [hemit]
    | error cause =>
      cases henforce : d.durability.isEnforce
      · simp [hemit]
      · simp [hemit, fail, eq_comm]

/-! ## The two refusals -/

/-- The record of a token the store does not know. -/
def unknownEvent (actor : Option String) (request : RefreshRequest) : AuditEvent :=
  createAuditEvent .validationFailed .debug (.failure .authenticationFailed) actor none
    request.clientAddr request.userAgent

/-- The record of a reuse that revoked `n` sessions. -/
def reuseEvent (familyId userId : String) (n : ℕ) (request : RefreshRequest) : AuditEvent :=
  { SecurityEvent.refreshTokenReuse.intoAuditEvent .success (some userId) none
      request.clientAddr request.userAgent with
    detail := reuseDetail familyId n }

/-- The family is revoked and its record does not stop the call. -/
def ReusePasses (familyId userId : String) (request : RefreshRequest) : Prop :=
  ∃ n, answers (.revokeFamily familyId) = .ok n ∧
    MandatoryPasses d answers (reuseEvent familyId userId n request)

/-- The revocation fails the call, or the record of it does. -/
def ReuseFails (familyId userId : String) (request : RefreshRequest) (e : Error) : Prop :=
  answers (.revokeFamily familyId) = .error (.error e) ∨
    ∃ n, answers (.revokeFamily familyId) = .ok n ∧
      MandatoryFails d answers (reuseEvent familyId userId n request) e

/-- The refusal of a token the store does not know. -/
def unknownRefusal : Error := .invalidToken unknownRefreshTokenReason

/-- A call that leaves a record and then refuses. -/
theorem refusal_after {α : Type} (record : Service Error Unit) (refusal e : Error) :
    (record >>= fun _ => (fail refusal : Service Error α)).run answers = .error (.error e) ↔
      record.run answers = .error (.error e) ∨ (record.run answers = .ok () ∧ e = refusal) := by
  rw [Program.run_bind]
  cases hrecord : record.run answers with
  | ok _ =>
    constructor
    · intro heq
      have heq : Except.error (Fault.error refusal) = (Except.error (Fault.error e) : Answer α) := heq
      simp only [Except.error.injEq, Fault.error.injEq] at heq
      exact Or.inr ⟨rfl, heq.symm⟩
    · rintro (habsurd | ⟨-, rfl⟩)
      · exact nomatch habsurd
      · rfl
  | error fault =>
    constructor
    · intro heq
      have heq : Except.error fault = (Except.error (Fault.error e) : Answer α) := heq
      simp only [Except.error.injEq] at heq
      exact Or.inl (by rw [heq])
    · rintro (heq | ⟨habsurd, -⟩)
      · simp only [Except.error.injEq] at heq
        rw [heq]
        rfl
      · exact nomatch habsurd

/-- How the refusal with one best-effort record ends. -/
theorem refuse_error_iff {α : Type} {reason : String} (hreason : reason ≠ "")
    (actor : Option String) (request : RefreshRequest) (e : Error) :
    (refuseWithValidationFailed (α := α) d reason actor request).run answers =
        .error (.error e) ↔
      AuditFails d answers (unknownEvent actor request) e ∨
        (AuditPasses d answers (unknownEvent actor request) ∧ e = .invalidToken reason) := by
  have hassert : (!reason.isEmpty) = true := by simpa using hreason
  unfold refuseWithValidationFailed
  simp only [Service.assert, hassert, if_true, Program.done_bind]
  rw [refusal_after, emitAudit_error_iff, emitAudit_ok_iff]
  exact Iff.rfl

/-- How the refusal of a reuse ends. -/
theorem reuse_error_iff {α : Type} (familyId userId : String) (request : RefreshRequest)
    (e : Error) :
    (revokeFamilyForReuse (α := α) d familyId userId request).run answers =
        .error (.error e) ↔
      isValidFamilyId familyId = true ∧ userId ≠ "" ∧
        (ReuseFails d answers familyId userId request e ∨
          (ReusePasses d answers familyId userId request ∧ e = unknownRefusal)) := by
  unfold revokeFamilyForReuse
  by_cases hfamily : isValidFamilyId familyId = true
  · by_cases huser : userId = ""
    · simp [Service.assert, hfamily, huser]
    · have hassert : (!userId.isEmpty) = true := by simpa using huser
      simp only [Service.assert, hfamily, hassert, if_true, Program.done_bind,
        not_carriesHashShape hfamily, Bool.not_false, true_and, ne_eq, huser, not_false_eq_true]
      unfold ReuseFails ReusePasses
      rw [Program.run_bind]
      cases hrevoke : answers (.revokeFamily familyId) with
      | error fault =>
        have hrun : (Port.revokeFamily familyId).run answers = .error fault := by
          simp [Service.await, hrevoke]
        rw [hrun]
        simp [bind, Except.bind]
      | ok n =>
        have hrun : (Port.revokeFamily familyId).run answers = .ok n := by
          simp [Service.await, hrevoke]
        rw [hrun]
        change (emitMandatoryAuditEvent d (reuseEvent familyId userId n request) >>= fun _ =>
          (fail unknownRefusal : Service Error α)).run answers = .error (.error e) ↔ _
        rw [refusal_after, emitMandatory_error_iff, emitMandatory_ok_iff]
        simp
  · simp [Service.assert, hfamily]

/-! ## The same refusal -/

/-- The family and the user that the reuse branch acts on: those of a retired token, or of a
token superseded longer ago than the grace window. -/
def reuseTarget : RefreshResolution → Option (String × String)
  | .unknown => none
  | .live _ => none
  | .superseded live retiredAt =>
    if withinGrace (answers .now) retiredAt d.refreshRotationGrace then none
    else some (live.familyId, live.userId)
  | .retired familyId userId _ => some (familyId, userId)

/-- Both calls return an error, and the client sees the same of it. -/
def SameRefusal (first second : Answer TokenResponse) : Prop :=
  ∃ e e', first = .error (.error e) ∧ second = .error (.error e') ∧ SameForClient e e'

/-- Some step of one refusal or of both fails, and the client sees the same all the same. -/
def FailAlike (familyId userId : String) (request : RefreshRequest) : Prop :=
  (∃ e, ReuseFails d answers familyId userId request e ∧
    AuditPasses d answers (unknownEvent none request) ∧ SameForClient e unknownRefusal) ∨
  (∃ e, ReusePasses d answers familyId userId request ∧
    AuditFails d answers (unknownEvent none request) e ∧ SameForClient unknownRefusal e) ∨
  ∃ e e', ReuseFails d answers familyId userId request e ∧
    AuditFails d answers (unknownEvent none request) e' ∧ SameForClient e e'

/-- What keeps the detector quiet. With rotation off both tokens leave the same record, which
must not panic; with rotation on neither the revocation nor a record may fail a call, unless
the failures look alike. -/
def DetectorQuiet (retired unknown familyId userId : String) (request : RefreshRequest) : Prop :=
  retired ≠ "" ∧ unknown ≠ "" ∧
    (d.refreshRotation = false → AuditPasses d answers (unknownEvent none request) ∨
      ∃ e, AuditFails d answers (unknownEvent none request) e) ∧
    (d.refreshRotation = true → isValidFamilyId familyId = true ∧ userId ≠ "" ∧
      (ReusePasses d answers familyId userId request ∧
          AuditPasses d answers (unknownEvent none request) ∨
        FailAlike d answers familyId userId request))

/-- What a refresh of a token comes to once the token is resolved. -/
theorem run_refresh {token : String} {resolution : RefreshResolution}
    (hresolve : answers (.resolveRefreshToken (d.digest token)) = .ok resolution)
    (htoken : token ≠ "") (request : RefreshRequest) :
    (refresh d { request with refreshToken := token }).run answers =
      if d.refreshRotation then (redeem d resolution { request with refreshToken := token }).run answers
      else (refreshWithoutRotation d resolution { request with refreshToken := token }).run
        answers := by
  have hassert : (!token.isEmpty) = true := by simpa using htoken
  unfold refresh
  simp only [Service.assert, hassert, d.digest_length, beq_self_eq_true, if_true,
    Program.done_bind]
  rw [Program.run_bind]
  have hrun : (Port.resolveRefreshToken (d.digest token)).run answers = .ok resolution := by
    simp [Service.await, hresolve]
  rw [hrun]
  change (if d.refreshRotation then _ else _ : Service Error TokenResponse).run answers = _
  split <;> rfl

/-- An empty token never gets to an answer. -/
theorem run_refresh_empty (request : RefreshRequest) :
    (refresh d { request with refreshToken := "" }).run answers = .error .panic := rfl

/-- The reuse branch, reached from either classification. -/
theorem run_redeem_reuse {resolution : RefreshResolution} {familyId userId : String}
    (htarget : reuseTarget d answers resolution = some (familyId, userId))
    (request : RefreshRequest) :
    (redeem d resolution request).run answers =
      (revokeFamilyForReuse d familyId userId request).run answers := by
  cases resolution with
  | unknown => exact nomatch htarget
  | live session => exact nomatch htarget
  | retired family user successor =>
    simp only [reuseTarget, Option.some.injEq, Prod.mk.injEq] at htarget
    obtain ⟨rfl, rfl⟩ := htarget
    rfl
  | superseded live retiredAt =>
    have hgrace : (decide (0 < d.refreshRotationGrace.toNat) &&
        decide (d.refreshRotationGrace.toNat ≤ maxRefreshRotationGraceSecs)) = true := by
      simpa using d.grace_bounded
    simp only [reuseTarget] at htarget
    split at htarget
    · exact nomatch htarget
    · rename_i houtside
      simp only [Option.some.injEq, Prod.mk.injEq] at htarget
      obtain ⟨rfl, rfl⟩ := htarget
      simp only [redeem, Service.assert, hgrace, if_true, Program.done_bind]
      change (if withinGrace (answers .now) retiredAt d.refreshRotationGrace = true then _
        else _ : Service Error TokenResponse).run answers = _
      rw [if_neg houtside]

/-- With rotation off every retired token is refused as an unknown one. -/
theorem run_refreshWithoutRotation {resolution : RefreshResolution} {familyId userId : String}
    (htarget : reuseTarget d answers resolution = some (familyId, userId))
    (request : RefreshRequest) :
    refreshWithoutRotation d resolution request =
      refuseWithValidationFailed d unknownRefreshTokenReason none request := by
  cases resolution with
  | unknown => rfl
  | live session => exact nomatch htarget
  | superseded live retiredAt => rfl
  | retired family user retiredAt => rfl

/-- How the refusal of an unknown token ends. -/
theorem unknown_error_iff (token : String) (request : RefreshRequest) (e : Error) :
    (refuseWithValidationFailed d unknownRefreshTokenReason none
        { request with refreshToken := token } : Service Error TokenResponse).run answers =
          .error (.error e) ↔
      AuditFails d answers (unknownEvent none request) e ∨
        (AuditPasses d answers (unknownEvent none request) ∧ e = unknownRefusal) :=
  refuse_error_iff d answers (by decide) none _ e

/-- With rotation on, the two refusals compared. -/
theorem sameRefusal_iff_of_rotation {familyId userId : String} (retired unknown : String)
    (request : RefreshRequest) :
    SameRefusal
        ((revokeFamilyForReuse d familyId userId { request with refreshToken := retired }).run
          answers)
        ((refuseWithValidationFailed d unknownRefreshTokenReason none
          { request with refreshToken := unknown }).run answers) ↔
      isValidFamilyId familyId = true ∧ userId ≠ "" ∧
        (ReusePasses d answers familyId userId request ∧
            AuditPasses d answers (unknownEvent none request) ∨
          FailAlike d answers familyId userId request) := by
  have hreuse : ∀ e, (revokeFamilyForReuse d familyId userId
      { request with refreshToken := retired } : Service Error TokenResponse).run answers =
        .error (.error e) ↔ isValidFamilyId familyId = true ∧ userId ≠ "" ∧
          (ReuseFails d answers familyId userId request e ∨
            (ReusePasses d answers familyId userId request ∧ e = unknownRefusal)) :=
    fun e => reuse_error_iff d answers familyId userId _ e
  simp only [SameRefusal, hreuse, unknown_error_iff, FailAlike]
  constructor
  · rintro ⟨e, e', ⟨hfamily, huser, hfails | ⟨hpasses, rfl⟩⟩, hfails' | ⟨hpasses', rfl⟩, hsame⟩
    · exact ⟨hfamily, huser, Or.inr (Or.inr (Or.inr ⟨e, e', hfails, hfails', hsame⟩))⟩
    · exact ⟨hfamily, huser, Or.inr (Or.inl ⟨e, hfails, hpasses', hsame⟩)⟩
    · exact ⟨hfamily, huser, Or.inr (Or.inr (Or.inl ⟨e', hpasses, hfails', hsame⟩))⟩
    · exact ⟨hfamily, huser, Or.inl ⟨hpasses, hpasses'⟩⟩
  · rintro ⟨hfamily, huser, ⟨hpasses, hpasses'⟩ | ⟨e, hfails, hpasses', hsame⟩ |
      ⟨e', hpasses, hfails', hsame⟩ | ⟨e, e', hfails, hfails', hsame⟩⟩
    · exact ⟨_, _, ⟨hfamily, huser, Or.inr ⟨hpasses, rfl⟩⟩, Or.inr ⟨hpasses', rfl⟩, .refl _⟩
    · exact ⟨e, _, ⟨hfamily, huser, Or.inl hfails⟩, Or.inr ⟨hpasses', rfl⟩, hsame⟩
    · exact ⟨_, e', ⟨hfamily, huser, Or.inr ⟨hpasses, rfl⟩⟩, Or.inl hfails', hsame⟩
    · exact ⟨e, e', ⟨hfamily, huser, Or.inl hfails⟩, Or.inl hfails', hsame⟩

/-- With rotation off, the two refusals leave the same record. -/
theorem sameRefusal_iff_of_not_rotation (retired unknown : String) (request : RefreshRequest) :
    SameRefusal
        ((refuseWithValidationFailed d unknownRefreshTokenReason none
          { request with refreshToken := retired }).run answers)
        ((refuseWithValidationFailed d unknownRefreshTokenReason none
          { request with refreshToken := unknown }).run answers) ↔
      AuditPasses d answers (unknownEvent none request) ∨
        ∃ e, AuditFails d answers (unknownEvent none request) e := by
  simp only [SameRefusal, unknown_error_iff]
  constructor
  · rintro ⟨e, -, hfails | ⟨hpasses, -⟩, -⟩
    · exact Or.inr ⟨e, hfails⟩
    · exact Or.inl hpasses
  · rintro (hpasses | ⟨e, hfails⟩)
    · exact ⟨_, _, Or.inr ⟨hpasses, rfl⟩, Or.inr ⟨hpasses, rfl⟩, .refl _⟩
    · exact ⟨e, e, Or.inl hfails, Or.inl hfails, .refl _⟩

/-- A retired token presented outside its grace window is refused as an unknown one is,
exactly where nothing gives the detector away. -/
theorem reuse_indistinguishable {retired unknown familyId userId : String}
    {resolution : RefreshResolution}
    (hretired : answers (.resolveRefreshToken (d.digest retired)) = .ok resolution)
    (htarget : reuseTarget d answers resolution = some (familyId, userId))
    (hunknown : answers (.resolveRefreshToken (d.digest unknown)) = .ok .unknown)
    (request : RefreshRequest) :
    SameRefusal ((refresh d { request with refreshToken := retired }).run answers)
        ((refresh d { request with refreshToken := unknown }).run answers) ↔
      DetectorQuiet d answers retired unknown familyId userId request := by
  unfold DetectorQuiet
  by_cases hempty : retired = ""
  · subst hempty
    refine iff_of_false ?_ (fun h => h.1 rfl)
    rintro ⟨e, e', hpanic, -⟩
    rw [run_refresh_empty] at hpanic
    exact nomatch hpanic
  by_cases hempty' : unknown = ""
  · subst hempty'
    refine iff_of_false ?_ (fun h => h.2.1 rfl)
    rintro ⟨e, e', -, hpanic, -⟩
    rw [run_refresh_empty] at hpanic
    exact nomatch hpanic
  rw [run_refresh d answers hretired hempty, run_refresh d answers hunknown hempty']
  cases hrotation : d.refreshRotation with
  | false =>
    simp only [Bool.false_eq_true, if_false]
    rw [run_refreshWithoutRotation d answers htarget]
    change SameRefusal _ ((refuseWithValidationFailed d unknownRefreshTokenReason none
      { request with refreshToken := unknown }).run answers) ↔ _
    rw [sameRefusal_iff_of_not_rotation]
    simp [hempty, hempty']
  | true =>
    simp only [if_true]
    rw [run_redeem_reuse d answers htarget]
    change SameRefusal _ ((refuseWithValidationFailed d unknownRefreshTokenReason none
      { request with refreshToken := unknown }).run answers) ↔ _
    rw [sameRefusal_iff_of_rotation]
    simp [hempty, hempty']

namespace Sample

/-- A store that has retired the token `old` and knows no other, behind a sink that answers
every record alike. -/
def reuseAnswers (record : Answer Unit) : (o : Op) → Ans o
  | .now => 0
  | .randomToken => ""
  | .newFamilyId => ""
  | .resolveRefreshToken tokenHash =>
    if tokenHash = digest "old" then .ok (.retired theFamily theUser 0) else .ok .unknown
  | .revokeFamily _ => .ok 1
  | .emit _ => record
  | .rotateRefreshToken _ _ => .ok false
  | .storeRefreshToken _ => .ok ()
  | .revokeSession _ => .ok ()
  | .revokeAllUserSessions _ => .ok 0
  | .getUserById _ => .ok none
  | .getUserByExternalId _ _ => .ok none
  | .createUser _ => .error .panic
  | .writeUser _ _ _ => .ok false
  | .sign _ _ _ _ => .ok ""
  | .notify _ => .ok ()
  | .checkAndConsume _ => .ok .allow
  | .exchangeCode _ _ _ => .error .panic
  | .validateIdToken _ _ => .error .panic
  | .bindAssertion _ _ => .ok none

/-- A deployment whose mandatory records must be persisted. -/
def enforcing : Deployment := { deployment true with durability := .enforce }

end Sample

open Sample in
/-- With a sink that accepts its records the reuse stays hidden. -/
theorem reuse_indistinguishable_accepted :
    SameRefusal ((refresh enforcing (present "old")).run (reuseAnswers (.ok ())))
      ((refresh enforcing (present "other")).run (reuseAnswers (.ok ()))) := by
  have hold : reuseAnswers (.ok ()) (.resolveRefreshToken (enforcing.digest "old")) =
      .ok (.retired theFamily theUser 0) := rfl
  have hother : reuseAnswers (.ok ()) (.resolveRefreshToken (enforcing.digest "other")) =
      .ok .unknown := rfl
  apply (reuse_indistinguishable enforcing _ hold rfl hother (present "")).mpr
  have hrotation : enforcing.refreshRotation ≠ false := by decide
  refine ⟨by decide, by decide, fun h => absurd h hrotation, fun _ => ?_⟩
  exact ⟨by decide, by decide, Or.inl ⟨⟨1, rfl, Or.inl rfl⟩, Or.inr (Or.inl rfl)⟩⟩

open Sample in
/-- With a sink that is down and durability enforced, a reuse answers with a server error
and an unknown token with an invalid token. -/
theorem reuse_disclosed :
    ¬ SameRefusal
      ((refresh enforcing (present "old")).run
        (reuseAnswers (.error (.error (.auditError "sink down")))))
      ((refresh enforcing (present "other")).run
        (reuseAnswers (.error (.error (.auditError "sink down"))))) := by
  rintro ⟨e, e', hreuse, hunknown, hsame, -⟩
  have hreuse' : (refresh enforcing (present "old")).run
      (reuseAnswers (.error (.error (.auditError "sink down")))) = .error (.error
        (.securityAuditDurability "audit error: sink down")) := by
    rfl
  have hunknown' : (refresh enforcing (present "other")).run
      (reuseAnswers (.error (.error (.auditError "sink down")))) =
        .error (.error unknownRefusal) := by
    rfl
  rw [hreuse] at hreuse'
  rw [hunknown] at hunknown'
  simp only [Except.error.injEq, Fault.error.injEq] at hreuse' hunknown'
  subst hreuse' hunknown'
  exact absurd hsame (by decide)

end OidcExchange
