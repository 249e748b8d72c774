import OidcExchange.Analysis.AdminFlow
import OidcExchange.Program.AppService

/-!
# What the core sees of the whole service

The operations of every call are operations of the core, of a revocation or of a listing of
sessions. The calls that maintain users and their claims touch no session; so every step of the
service is a step that the lineage of session families survives.
-/

set_option autoImplicit false

namespace OidcExchange

open Storage Interleaving Service

/-! ## What the core sees -/

/-- The operations of the core in a past. -/
def AdminPast.core (past : AdminPast) : Past := corePast (past.filterMap tokenPerformed)

/-- The moment with requests of the administrative service. -/
abbrev AppMoment.admin (m : AppMoment) : AdminMoment := m.through AdminRequest some

/-- The operations of the core. -/
abbrev AppMoment.core (m : AppMoment) : ServiceMoment := m.admin.core

@[simp] theorem core_nil : AdminPast.core [] = [] := rfl

@[simp] theorem core_cons_port (o : Op) (ans : Ans o) (past : AdminPast) :
    AdminPast.core (⟨.token (.port o), ans⟩ :: past) = ⟨o, ans⟩ :: AdminPast.core past := rfl

@[simp] theorem core_cons_get (h : String) (ans : Answer (Option Session)) (past : AdminPast) :
    AdminPast.core (⟨.token (.getSessionByRefreshToken h), ans⟩ :: past) =
      AdminPast.core past := rfl

@[simp] theorem core_cons_list (u : String) (t : Instant) (n : ℕ) (ans : Answer (List Session))
    (past : AdminPast) :
    AdminPast.core (⟨.listLiveSessions u t n, ans⟩ :: past) = AdminPast.core past := rfl

theorem mem_core {past : AdminPast} {o : Op} {ans : Ans o} :
    ⟨o, ans⟩ ∈ AdminPast.core past ↔ ⟨.token (.port o), ans⟩ ∈ past := by
  rw [AdminPast.core, mem_corePast, List.mem_filterMap]
  constructor
  · rintro ⟨⟨o' | _, ans'⟩, hmem, hview⟩
    · cases hview
      exact hmem
    · cases hview
  · exact fun hmem => ⟨_, hmem, rfl⟩

section Moments

variable {m : AppMoment} {c : ℕ} {w : World}

theorem past_admin : m.admin.past c = m.past c := by
  rw [Moment.past_through, List.filterMap_some]

theorem past_core_app : m.core.past c = AdminPast.core (m.past c) := by
  rw [AppMoment.core, AdminMoment.core, past_core, past_tokens, past_admin, AdminPast.core]

/-- A longer history shows the core a longer one. -/
theorem core_history_suffix {m' : AppMoment} (h : m.history <:+ m'.history) :
    (AppMoment.core m).history <:+ (AppMoment.core m').history :=
  ((h.filterMap _).filterMap _).filterMap _

theorem admin_performed (o : AdminOp) (ans : AdminAns o) :
    AppMoment.admin (m.performed c o ans w) = m.admin.performed c o ans w :=
  Moment.through_performed_some w rfl

theorem appCore_performed_port (o : Op) (ans : Ans o) :
    AppMoment.core (m.performed c (.token (.port o)) ans w) = m.core.performed c o ans w := by
  rw [AppMoment.core, admin_performed, adminCore_performed_token, core_performed_port]

theorem appCore_performed_get (h : String) (ans : Answer (Option Session)) :
    AppMoment.core (m.performed c (.token (.getSessionByRefreshToken h)) ans w) =
      m.core.drifted w := by
  rw [AppMoment.core, admin_performed, adminCore_performed_token, core_performed_get]

theorem appCore_performed_list (u : String) (t : Instant) (n : ℕ) (ans : Answer (List Session)) :
    AppMoment.core (m.performed c (.listLiveSessions u t n) ans w) = m.core.drifted w := by
  rw [AppMoment.core, admin_performed, adminCore_performed_list]

end Moments

/-! ## The discipline -/

/-- The operation reads, creates or writes a user, or tells of it. -/
def Op.Maintains : Op → Prop
  | .now => True
  | .getUserById _ => True
  | .createUser _ => True
  | .writeUser _ _ _ => True
  | .emit _ => True
  | .notify _ => True
  | _ => False

section Discipline

variable (d : Deployment) (sessionIdForFamily : String → String)

/-- What the past of a call contains when it performs an operation. -/
def AppReady (request : AppRequest) (past : AdminPast) (o : AdminOp) : Prop :=
  match request, o with
  | .admin request, o => AdminReady d sessionIdForFamily request past o
  | .listUserSessions _, .listLiveSessions _ _ _ => True
  | _, .token (.port o) => o.Maintains
  | _, _ => False

/-- A call of the core obeys as before. -/
theorem administered_obeys {ε α : Type} {ready : Past → Op → Prop}
    {post : Past → Except (Fault ε) α → Prop} {ready' : AdminPast → AdminOp → Prop}
    {past : AdminPast} {p : Service ε α} (hp : p.Obeys ready post (AdminPast.core past))
    (hready : ∀ past o, ready (AdminPast.core past) o → ready' past (.token (.port o))) :
    (administered p).Obeys ready' (fun past' r => post (AdminPast.core past') r) past := by
  have hported : (ported p).Obeys (fun past o => ∃ o', o = .port o' ∧ ready (corePast past) o')
      (fun past' r => ∃ past, corePast past' = past ∧ post past r)
      (past.filterMap tokenPerformed) := by
    refine hp.interp ?_ rfl
    rintro o _ past' rfl ho
    exact ⟨⟨o, rfl, ho⟩, fun ans => ⟨ans, rfl, rfl⟩⟩
  have htokened : (tokened (ported p)).Obeys ready' (fun past' r => ∃ past,
      past'.filterMap tokenPerformed = past ∧ ∃ past', corePast past = past' ∧ post past' r)
      past := by
    refine hported.interp ?_ rfl
    rintro _ _ past' rfl ⟨o, rfl, ho⟩
    exact ⟨hready past' o ho, fun ans => ⟨ans, rfl, rfl⟩⟩
  refine htokened.mono ?_
  rintro past' r ⟨_, rfl, _, rfl, hpost⟩
  exact hpost

/-- A call of the core that has just begun obeys as before. -/
theorem administered_start {ε α : Type} {ready : Past → Op → Prop}
    {post : Past → Except (Fault ε) α → Prop} {ready' : AdminPast → AdminOp → Prop}
    {p : Service ε α} (hp : p.Obeys ready post [])
    (hready : ∀ past o, ready (AdminPast.core past) o → ready' past (.token (.port o))) :
    (administered p).Obeys ready' (fun past' r => post (AdminPast.core past') r) [] :=
  administered_obeys hp hready

/-! ## Maintenance of users -/

variable {P : Op → Prop}

theorem ensureNoReservedClaims_only (claims : Table String Value) :
    (ensureNoReservedClaims claims).Only P := by
  unfold ensureNoReservedClaims
  split <;> trivial

theorem attributed_only (event : AuditEvent) (operator : OperatorPrincipal) :
    (attributed event operator).Only P :=
  (assert_only _).bind fun _ => (assert_only _).bind fun _ => trivial

theorem updateUser_only_of (hread : ∀ u, P (.getUserById u)) (hnow : P .now)
    (hwrite : ∀ u v x, P (.writeUser u v x)) (userId : String) (patch : UserPatch) :
    (updateUser userId patch).Only P := by
  have hattempt : (updateAttempt userId patch).Only P := by
    refine ⟨hread _, ?_⟩
    rintro (e | _ | read)
    · trivial
    · trivial
    · exact ⟨hnow, fun now => ⟨hwrite _ _ _, by rintro (e | written) <;> trivial⟩⟩
  suffices h : ∀ budget,
      (retryOnVersionConflict userId (updateAttempt userId patch) budget).Only P from
    h updateMaxAttempts
  intro budget
  induction budget with
  | zero => trivial
  | succ budget ih =>
    refine hattempt.bind ?_
    rintro (_ | user)
    · exact ih
    · trivial

theorem emitAdminMutationAuditEvent_only_of (hemit : ∀ event, P (.emit event))
    (kind : AdminMutationKind) (user : User) (outcome : AuditOutcome)
    (operator : OperatorPrincipal) :
    (emitAdminMutationAuditEvent d kind user outcome operator).Only P :=
  (attributed_only _ _).bind fun _ => emitMandatoryAuditEvent_only_of d (hemit _)

theorem notifyQuietly_only_of (notice : UserSyncNotice) (hnotify : P (.notify notice)) :
    (notifyQuietly notice).Only P :=
  ⟨hnotify, by rintro ((error | _) | _) <;> trivial⟩

/-- The operations that changing a user performs have the property. -/
structure Op.Changes (P : Op → Prop) : Prop where
  now : P .now
  read : ∀ u, P (.getUserById u)
  write : ∀ u v x, P (.writeUser u v x)
  leave : ∀ u, P (.revokeAllUserSessions u)
  emit : ∀ event, P (.emit event)
  notify : ∀ notice, P (.notify notice)

theorem applyValidatedPatch_only_of (hP : Op.Changes P) (userId : String) (patch : UserPatch) :
    (applyValidatedPatch userId patch).Only P := by
  refine ensurePatchClaims_only.bind fun _ => ⟨hP.read _, ?_⟩
  rintro (e | _ | current)
  · trivial
  · trivial
  · have htransition : (ensureTransition current.status patch).Only P := by
      unfold ensureTransition
      split
      · split <;> trivial
      · trivial
    refine htransition.bind fun _ =>
      (updateUser_only_of hP.read hP.now hP.write userId patch).bind fun user => ?_
    split
    · exact ⟨hP.leave _, by rintro (e | count) <;> trivial⟩
    · trivial

theorem adminUpdateUser_only_of (hP : Op.Changes P) (operator : OperatorPrincipal)
    (userId : String) (patch : UserPatch) : (adminUpdateUser d operator userId patch).Only P :=
  (applyValidatedPatch_only_of hP userId patch).bind fun _ =>
    (emitAdminMutationAuditEvent_only_of d hP.emit _ _ _ _).bind fun _ =>
      (notifyQuietly_only_of _ (hP.notify _)).bind fun _ => trivial

theorem adminDeleteUser_only_of (hP : Op.Changes P) (operator : OperatorPrincipal)
    (userId : String) : (adminDeleteUser d operator userId).Only P :=
  (applyValidatedPatch_only_of hP userId deletePatch).bind fun _ =>
    (emitAdminMutationAuditEvent_only_of d hP.emit _ _ _ _).bind fun _ =>
      notifyQuietly_only_of _ (hP.notify _)

theorem adminCreateUser_only (operator : OperatorPrincipal) (newUser : NewUser) :
    (adminCreateUser d operator newUser).Only Op.Maintains := by
  refine ⟨trivial, ?_⟩
  rintro (e | user)
  · trivial
  · have hrecord : (emitAdminMutationAuditEvent d .created user .success operator).Only
        Op.Maintains := emitAdminMutationAuditEvent_only_of d (fun _ => trivial) _ _ _ _
    have hnotify : (notifyQuietly (.created user)).Only Op.Maintains :=
      notifyQuietly_only_of _ trivial
    exact hrecord.bind fun _ => hnotify.bind fun _ => trivial

theorem replaceClaims_only_of (hread : ∀ u, P (.getUserById u)) (hnow : P .now)
    (hwrite : ∀ u v x, P (.writeUser u v x)) (hemit : ∀ event, P (.emit event))
    (operator : OperatorPrincipal) (userId : String) (next : User → Table String Value)
    (operation : String) : (replaceClaims d operator userId next operation).Only P := by
  refine ⟨hread _, ?_⟩
  rintro (e | _ | user)
  · trivial
  · trivial
  · exact (updateUser_only_of hread hnow hwrite userId _).bind fun _ =>
      (attributed_only _ _).bind fun _ => emitMandatoryAuditEvent_only_of d (hemit _)

theorem replaceClaims_only (operator : OperatorPrincipal) (userId : String)
    (next : User → Table String Value) (operation : String) :
    (replaceClaims d operator userId next operation).Only Op.Maintains :=
  replaceClaims_only_of d (fun _ => trivial) trivial (fun _ _ _ => trivial) (fun _ => trivial) ..

theorem adminGetClaims_only (userId : String) : (adminGetClaims userId).Only Op.Maintains := by
  refine ⟨trivial, ?_⟩
  rintro (e | _ | user) <;> trivial

theorem adminListUserSessions_obeys {ready : AdminPast → AdminOp → Prop} (userId : String)
    (hread : ∀ past o, (∃ u, o = .token (.port (.getUserById u))) ∨ o = .token (.port .now) ∨
      (∃ u t n, o = .listLiveSessions u t n) → ready past o) :
    (adminListUserSessions sessionIdForFamily userId).Obeys ready (fun _ _ => True) [] := by
  refine ⟨hread _ _ (.inl ⟨_, rfl⟩), ?_⟩
  rintro (e | _ | user)
  · trivial
  · trivial
  · show (if user.status = .deleted then _ else _ :
      AdminService Error (Option (List SessionSummary))).Obeys _ _ _
    split
    · trivial
    · refine ⟨hread _ _ (.inr (.inl rfl)), fun now => ⟨hread _ _ (.inr (.inr ⟨_, _, _, rfl⟩)), ?_⟩⟩
      rintro (e | sessions) <;> trivial

variable {Bytes : Type} (W : Wire Bytes) (K : KeyManager Bytes)

/-- The call of a request that the core serves. -/
theorem answerApp_served (request : Request) :
    answerApp d sessionIdForFamily W K (.admin (.token (.served request))) =
      (fun response => .admin (.token (.served response))) <$> administered (serve d request) := by
  simp only [answerApp, answerAdmin, answerToken, Program.map_eq_bind, Program.interp_bind,
    Program.interp_done, Program.bind_assoc, Program.done_bind]

/-- The call of a revocation by a client. -/
theorem answerApp_revoke (request : RevokeRequest) :
    answerApp d sessionIdForFamily W K (.admin (.token (.revoke request))) =
      (fun _ => .admin (.token .revoked)) <$> tokened (revoke W K d request) := by
  simp only [answerApp, answerAdmin, answerToken, Program.map_eq_bind, Program.interp_bind,
    Program.interp_done, Program.bind_assoc, Program.done_bind]

/-- The call of an operator's revocation of one session. -/
theorem answerApp_revokeUserSession (operator : OperatorPrincipal) (userId sessionId : String) :
    answerApp d sessionIdForFamily W K (.admin (.revokeUserSession operator userId sessionId)) =
      (fun _ => .admin .revoked) <$>
        adminRevokeUserSession d sessionIdForFamily operator userId sessionId := by
  simp only [answerApp, answerAdmin, Program.map_eq_bind, Program.bind_assoc, Program.done_bind]

/-- The call of an operator's revocation of all sessions. -/
theorem answerApp_revokeUserSessions (operator : OperatorPrincipal) (userId : String) :
    answerApp d sessionIdForFamily W K (.admin (.revokeUserSessions operator userId)) =
      (fun n => .admin (.allRevoked n)) <$>
        administered (adminRevokeUserSessions d operator userId) := by
  simp only [answerApp, answerAdmin, Program.map_eq_bind, Program.bind_assoc, Program.done_bind]

/-- **Every request complies.** -/
theorem answerApp_obeys (request : AppRequest) :
    (answerApp d sessionIdForFamily W K request).Obeys (AppReady d sessionIdForFamily request)
      (fun _ _ => True) [] := by
  have hmaintains : ∀ {α : Type} {p : Service Error α} {f : α → AppReply} (request : AppRequest),
      p.Only Op.Maintains → (∀ past o, o.Maintains →
        AppReady d sessionIdForFamily request past (.token (.port o))) →
      (f <$> administered p).Obeys (AppReady d sessionIdForFamily request) (fun _ _ => True) [] :=
    fun request hp hready => Program.Obeys.bind ((administered_only (Q := fun o => ∃ o' : Op,
      o = .token (.port o') ∧ o'.Maintains) hp fun o ho => ⟨o, rfl, ho⟩).obeys
        fun past o ho => by obtain ⟨o', rfl, ho'⟩ := ho; exact hready past o' ho')
      (fun _ _ _ => trivial) (fun _ _ _ => trivial)
  cases request with
  | admin request =>
    exact (answerAdmin_obeys d sessionIdForFamily W K request).bind (fun _ _ _ => trivial)
      (fun _ _ _ => trivial)
  | createUser operator newUser => exact hmaintains _ (adminCreateUser_only d _ _) fun _ _ h => h
  | getUser userId =>
    exact hmaintains _ (p := adminGetUser userId) ⟨trivial, by rintro (e | user) <;> trivial⟩
      fun _ _ h => h
  | getClaims userId => exact hmaintains _ (adminGetClaims_only userId) fun _ _ h => h
  | setClaims operator userId claims =>
    exact hmaintains _ (p := adminSetClaims d operator userId claims)
      ((ensureNoReservedClaims_only _).bind fun _ => replaceClaims_only d _ _ _ _) fun _ _ h => h
  | mergeClaims operator userId claims =>
    exact hmaintains _ (p := adminMergeClaims d operator userId claims)
      ((ensureNoReservedClaims_only _).bind fun _ => replaceClaims_only d _ _ _ _) fun _ _ h => h
  | clearClaims operator userId =>
    exact hmaintains _ (p := adminClearClaims d operator userId) (replaceClaims_only d _ _ _ _)
      fun _ _ h => h
  | listUserSessions userId =>
    refine (adminListUserSessions_obeys sessionIdForFamily userId ?_).bind (fun _ _ _ => trivial)
      (fun _ _ _ => trivial)
    rintro past _ (⟨u, rfl⟩ | rfl | ⟨u, t, n, rfl⟩) <;> trivial

end Discipline

/-! ## What the ports answer about users -/

section Answers

variable {d : Deployment} {x : Choice} {c : ℕ} {w w' : World}

/-- A user that is created bears the identity that was given, and no claims. -/
theorem identity_of_createUser {new : NewUser} {user : User}
    (hex : exec d x c (.createUser new) w = some (.ok user, w')) :
    user.externalId = new.externalId ∧ user.provider = new.provider ∧ user.claims = ∅ := by
  cases x with
  | draw id =>
    have hcreate : w.createUser id new = some (.ok user, w') := hex
    unfold World.createUser at hcreate
    split at hcreate
    · cases hcreate
    split at hcreate
    · exact absurd hcreate (by simp)
    · cases hcreate
      exact ⟨rfl, rfl, rfl⟩
  | fail e => exact absurd hex (by simp [exec])
  | _ => cases hex

end Answers

/-! ## The steps -/

variable {d : Deployment} {sessionIdForFamily : String → String}

/-- What maintains users installs nothing. -/
theorem Op.Maintains.unseen {o : Op} {ans : Ans o} (h : o.Maintains) : Unseen o ans := by
  cases o <;> first | exact ⟨rfl, rfl, rfl, rfl⟩ | exact h.elim

/-- Every operation of a compliant call is a step of the core. -/
theorem coreStep_of_appReady {m : AppMoment} {request : AppRequest} {c : ℕ} {x : Choice}
    {o : AdminOp} {ans : AdminAns o} {w : World}
    (hready : AppReady d sessionIdForFamily request (m.past c) o)
    (hex : adminExec d x c o m.world = some (ans, w)) :
    CoreStep d m.core (AppMoment.core (m.performed c o ans w)) := by
  have hmaintains : ∀ {o' : Op} {ans' : Ans o'}, o'.Maintains →
      exec d x c o' m.world = some (ans', w) →
      CoreStep d m.core (AppMoment.core (m.performed c (.token (.port o')) ans' w)) := by
    intro o' ans' ho hex
    rw [appCore_performed_port]
    exact .shrank ho.unseen (shrinks_of_unseen ho.unseen hex) hex
  have hlisted : ∀ {u : String} {t : Instant} {n : ℕ} {ans' : Answer (List Session)},
      fallible m.world x (.ok (m.world.listLiveSessions u t n), m.world) = some (ans', w) →
      CoreStep d m.core (AppMoment.core (m.performed c (.listLiveSessions u t n) ans' w)) := by
    intro u t n ans' hex
    have hsame : w = m.world := by
      obtain hdone | ⟨-, hw⟩ := fallible_eq_some hex
      · exact (Prod.mk.inj hdone).2.symm
      · exact hw
    subst hsame
    rw [appCore_performed_list]
    exact .drifted (.refl _)
  cases request with
  | admin request =>
    have hready : AdminReady d sessionIdForFamily request (m.admin.past c) o := by
      rw [past_admin]
      exact hready
    have hcore : AppMoment.core (m.performed c o ans w) =
        AdminMoment.core (m.admin.performed c o ans w) :=
      congrArg AdminMoment.core (admin_performed o ans)
    rw [hcore]
    exact coreStep_of_ready hready hex
  | listUserSessions userId =>
    cases o with
    | listLiveSessions u t n => exact hlisted hex
    | token o =>
      cases o with
      | port o => exact hmaintains hready hex
      | getSessionByRefreshToken h => exact hready.elim
  | _ =>
    cases o with
    | listLiveSessions u t n => exact hready.elim
    | token o =>
      cases o with
      | port o => exact hmaintains hready hex
      | getSessionByRefreshToken h => exact hready.elim

/-- An operation that is not one of the core changes nothing, and the core does not see it. -/
theorem same_of_not_port {m : AppMoment} {c : ℕ} {x : Choice} {o : AdminOp} {ans : AdminAns o}
    {w : World} (hother : ∀ o', o ≠ .token (.port o'))
    (hex : adminExec d x c o m.world = some (ans, w)) : w = m.world ∧
      (AppMoment.core (m.performed c o ans w)).history = (AppMoment.core m).history := by
  cases o with
  | listLiveSessions u t n =>
    rw [appCore_performed_list]
    obtain hdone | ⟨-, hw⟩ := fallible_eq_some hex
    · exact ⟨(Prod.mk.inj hdone).2.symm, rfl⟩
    · exact ⟨hw, rfl⟩
  | token o =>
    cases o with
    | port o => exact absurd rfl (hother o)
    | getSessionByRefreshToken h =>
      rw [appCore_performed_get]
      obtain hdone | ⟨-, hw⟩ := fallible_eq_some hex
      · exact ⟨(Prod.mk.inj hdone).2.symm, rfl⟩
      · exact ⟨hw, rfl⟩

/-- Only a request that the core serves installs a session. -/
theorem served_of_installs {m : AppMoment} {request : AppRequest} {c : ℕ} {o : Op}
    (hinstalls : o.Installs)
    (hready : AppReady d sessionIdForFamily request (m.past c) (.token (.port o))) :
    ∃ served, request = .admin (.token (.served served)) ∧ Ready d served (m.core.past c) o := by
  rw [past_core_app]
  cases request with
  | admin request =>
    cases request with
    | token request =>
      cases request with
      | served served => exact ⟨served, rfl, hready⟩
      | revoke request => cases o <;> first | exact hinstalls.elim | exact hready.elim
    | _ => cases o <;> first | exact hinstalls.elim | exact hready.elim
  | _ => cases o <;> first | exact hinstalls.elim | exact hready.elim

/-- What happens to the world by itself is a step of the core. -/
theorem coreStep_of_drift {m : AppMoment} {k : Drift} {w : World}
    (hdrift : drift k m.world = some w) : CoreStep d m.core (AppMoment.core (m.drifted w)) :=
  .drifted (shrinks_of_drift hdrift).1

/-! ## Runs on a small deployment -/

namespace Sample

/-- The whole service of the small deployment; a family is its own identifier. -/
abbrev app : System AppPool AppAct := appService (deployment true) id noWire noKeys

/-- A step of the service that revokes tokens, as a step of the whole. -/
def tokenStep : TokenAct → AppAct
  | .begin c request => .begin c (.admin (.token request))
  | .advance c x => .advance c x
  | .drift k => .drift k

/-- A call begins and goes on alone. -/
def appCall (c : ℕ) (request : AppRequest) (choices : List Choice) : List AppAct :=
  .begin c request :: choices.map (.advance c)

end Sample

end OidcExchange
