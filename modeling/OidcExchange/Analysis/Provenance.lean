import OidcExchange.Analysis.Accounts
import OidcExchange.Analysis.SignInFlow

/-!
# Where sessions, users and tokens come from

In every run of the service, with any number of calls and in any order: every session goes back to
one exchange, for which the provider validated claims that were bound to this client and that the
registration policy admits, and belongs to a user that bears the identity of these claims; every
user was registered by such an exchange or created by an operator, and keeps its identity; and
every token that is handed out names such a session.
-/

set_option autoImplicit false

namespace OidcExchange

open Storage Interleaving Service

/-! ## The statements -/

section Statements

variable (d : Deployment) (m : AppMoment)

/-- Call `c` is an exchange that has authenticated the holder of `claims`. -/
structure SignedIn (c : ℕ) (req : ExchangeRequest) (claims : IdentityClaims) : Prop where
  asked : .began c (.admin (.token (.served (.exchange req)))) ∈ m.history
  vouched : Vouched d req (m.core.past c) claims
  permitted : Permitted d claims

/-- The stored user `id` bears an external identity. -/
def Bears (id externalId provider : String) : Prop :=
  ∃ user, m.world.users.lookup id = some user ∧ user.externalId = externalId ∧
    user.provider = provider

/-- The session goes back to an exchange: its family was drawn by the exchange, its user bears the
identity that was authenticated, and it carries what the request said of the client. -/
def Grounded (s : Session) : Prop :=
  ∃ c req claims, SignedIn d m c req claims ∧ (c, s.familyId) ∈ familyDraws m.core ∧
    Bears m s.userId claims.subject req.provider ∧ s.provider = req.provider ∧
    s.deviceId = req.deviceId ∧ s.userAgent = req.userAgent ∧
    s.ipAddress = req.clientAddr.auditAddress

/-- Call `c` created the user under the identity that it bears. -/
def CreatedAs (c : ℕ) (user : User) : Prop :=
  ∃ new created, .performed c (.createUser new) (.ok created) ∈ m.core.history ∧
    created.id = user.id ∧ new.externalId = user.externalId ∧ new.provider = user.provider

/-- The user was registered by an exchange for the identity that it bears, or was created by an
operator with it. -/
def Registered (user : User) : Prop :=
  ∃ c, CreatedAs m c user ∧
    ((∃ req claims, SignedIn d m c req claims ∧ d.registrationMode = .open ∧
        user.externalId = claims.subject ∧ user.provider = req.provider) ∨
      ∃ operator new, .began c (.createUser operator new) ∈ m.history ∧
        user.externalId = new.externalId ∧ user.provider = new.provider)

/-- Users, what was answered about them, and sessions are as they should be. -/
structure Provenance : Prop where
  users : ∀ id user, m.world.users.lookup id = some user → user.id = id ∧ Registered d m user
  read : ∀ c id user, .performed c (.getUserById id) (.ok (some user)) ∈ m.core.history →
    user.id = id
  found : ∀ c externalId provider user,
    .performed c (.getUserByExternalId externalId provider) (.ok (some user)) ∈ m.core.history →
      Bears m user.id externalId provider
  created : ∀ c new user, .performed c (.createUser new) (.ok user) ∈ m.core.history →
    Bears m user.id new.externalId new.provider
  installed : ∀ c s, (c, s) ∈ installs m.core → Grounded d m s

end Statements

/-! ## The discipline -/

section Discipline

variable (d : Deployment)

/-- What a request that the core serves creates and stores. -/
def Request.Founds (request : Request) (past : Past) (o : Op) : Prop :=
  match request with
  | .exchange req => Grounds d req past o
  | _ => o.Unfounding

/-- What a request creates and stores. -/
def AppRequest.Founds (request : AppRequest) (past : Past) (o : Op) : Prop :=
  match request with
  | .admin (.token (.served request)) => request.Founds d past o
  | .createUser _ new => o.Unfounding ∨ o = .createUser new
  | _ => o.Unfounding

/-- What the past of a call contains when it creates a user or stores a session. -/
def AppFounds (request : AppRequest) (past : AdminPast) (o : AdminOp) : Prop :=
  match o with
  | .token (.port o) => request.Founds d (AdminPast.core past) o
  | _ => True

/-- The tokens of an answer name a session. -/
def TokensName (past : Past) (tokens : TokenResponse) : Prop :=
  ExchangeNames d past tokens ∨ RefreshNames d past tokens

/-- What the past of a call contains when it returns tokens. -/
def AppNames (past : AdminPast) (result : Except (Fault Error) AppReply) : Prop :=
  ∀ tokens, result = .ok (.admin (.token (.served (.tokens tokens)))) →
    TokensName d (AdminPast.core past) tokens

/-- Changing a user creates none and stores no session. -/
theorem unfounding_changes : Op.Changes Op.Unfounding :=
  ⟨trivial, fun _ => trivial, fun _ _ _ => trivial, fun _ => trivial, fun _ => trivial,
    fun _ => trivial⟩

/-- What a served request creates and stores, and what it answers. -/
theorem serve_founds (request : Request) :
    (serve d request).Obeys (request.Founds d)
      (fun past result => ∀ tokens, result = .ok (.tokens tokens) → TokensName d past tokens)
      [] := by
  have htokens : ∀ {past : Past} {r : Except (Fault Error) TokenResponse},
      (∀ tokens, r = .ok tokens → TokensName d past tokens) →
      ∀ tokens, r.map Response.tokens = .ok (.tokens tokens) → TokensName d past tokens := by
    rintro past (e | tokens') h tokens heq
    · cases heq
    · cases heq
      exact h tokens' rfl
  cases request with
  | refresh req =>
    exact obeys_map (refresh_names req) fun _ _ h => htokens fun tokens heq => .inr (h tokens heq)
  | exchange req =>
    exact obeys_map (exchange_grounds req) fun _ _ h => htokens fun tokens heq => .inl (h tokens heq)
  | adminUpdateUser operator userId patch =>
    refine obeys_map ((adminUpdateUser_only_of d unfounding_changes operator userId patch).obeys
      fun _ _ h => h) ?_
    rintro past (e | user) _ tokens heq <;> cases heq
  | adminDeleteUser operator userId =>
    refine obeys_map ((adminDeleteUser_only_of d unfounding_changes operator userId).obeys
      fun _ _ h => h) ?_
    rintro past (e | u) _ tokens heq <;> cases heq

variable (sessionIdForFamily : String → String) {Bytes : Type} (W : Wire Bytes)
  (K : KeyManager Bytes)

/-- An operation of an administrator's call that does not serve a request founds nothing. -/
theorem unfounding_of_adminReady {request : AdminRequest} {past : AdminPast} {o : Op}
    (hrequest : ∀ served, request ≠ .token (.served served))
    (h : AdminReady d sessionIdForFamily request past (.token (.port o))) : o.Unfounding := by
  cases request with
  | token request =>
    cases request with
    | served request => exact absurd rfl (hrequest request)
    | revoke request => cases o <;> trivial
  | revokeUserSession operator userId sessionId => cases o <;> trivial
  | revokeUserSessions operator userId => cases o <;> trivial

/-- **Every request creates and stores only on grounds.** -/
theorem answerApp_founds (request : AppRequest) :
    (answerApp d sessionIdForFamily W K request).Obeys (AppFounds d request) (fun _ _ => True)
      [] := by
  have hown : ∀ {α : Type} {p : Service Error α} {f : α → AppReply} (request : AppRequest),
      p.Only Op.Unfounding →
      (∀ past o, o.Unfounding → AppFounds d request past (.token (.port o))) →
      (f <$> administered p).Obeys (AppFounds d request) (fun _ _ => True) [] :=
    fun request hp hready => Program.Obeys.bind ((administered_only (Q := fun o => ∃ o' : Op,
      o = .token (.port o') ∧ o'.Unfounding) hp fun o ho => ⟨o, rfl, ho⟩).obeys
        fun past o ho => by obtain ⟨o', rfl, ho'⟩ := ho; exact hready past o' ho')
      (fun _ _ _ => trivial) (fun _ _ _ => trivial)
  have hclaims : ∀ operator userId next operation,
      (replaceClaims d operator userId next operation).Only Op.Unfounding :=
    replaceClaims_only_of d (fun _ => trivial) trivial (fun _ _ _ => trivial) (fun _ => trivial)
  cases request with
  | admin request =>
    by_cases hserved : ∃ served, request = .token (.served served)
    · obtain ⟨served, rfl⟩ := hserved
      rw [answerApp_served]
      exact Program.Obeys.bind (administered_start (serve_founds d served) fun _ _ h => h)
        (fun _ _ _ => trivial) (fun _ _ _ => trivial)
    · refine ((answerAdmin_obeys d sessionIdForFamily W K request).mono_ready ?_).bind
        (fun _ _ _ => trivial) (fun _ _ _ => trivial)
      rintro past (o | ⟨u, t, n⟩) hready
      · cases o with
        | port o =>
          have ho := unfounding_of_adminReady d sessionIdForFamily
            (fun served heq => hserved ⟨served, heq⟩) hready
          show AppRequest.Founds d _ _ o
          unfold AppRequest.Founds
          split
          · rename_i served heq
            cases heq
            exact absurd ⟨served, rfl⟩ hserved
          · rename_i heq
            cases heq
          · exact ho
        | getSessionByRefreshToken h => trivial
      · trivial
  | createUser operator new =>
    have hcreate : (adminCreateUser d operator new).Obeys
        (fun _ o => o.Unfounding ∨ o = .createUser new) (fun _ _ => True) [] := by
      refine ⟨.inr rfl, ?_⟩
      rintro (e | user)
      · trivial
      · have hrecord : (emitAdminMutationAuditEvent d .created user .success operator).Only
            Op.Unfounding := emitAdminMutationAuditEvent_only_of d (fun _ => trivial) _ _ _ _
        have hnotify : (notifyQuietly (.created user)).Only Op.Unfounding :=
          notifyQuietly_only_of _ trivial
        have hrest := hrecord.bind fun _ => hnotify.bind (f := fun _ => .done user)
          fun _ => trivial
        exact (hrest.obeys fun _ _ => .inl).mono fun _ _ _ => trivial
    exact Program.Obeys.bind (administered_start hcreate fun _ _ h => h) (fun _ _ _ => trivial)
      (fun _ _ _ => trivial)
  | getUser userId =>
    exact hown _ (p := adminGetUser userId) ⟨trivial, by rintro (e | user) <;> trivial⟩
      fun _ _ h => h
  | getClaims userId =>
    exact hown _ (p := adminGetClaims userId) ⟨trivial, by rintro (e | _ | user) <;> trivial⟩
      fun _ _ h => h
  | setClaims operator userId claims =>
    exact hown _ (p := adminSetClaims d operator userId claims)
      ((ensureNoReservedClaims_only _).bind fun _ => hclaims _ _ _ _) fun _ _ h => h
  | mergeClaims operator userId claims =>
    exact hown _ (p := adminMergeClaims d operator userId claims)
      ((ensureNoReservedClaims_only _).bind fun _ => hclaims _ _ _ _) fun _ _ h => h
  | clearClaims operator userId =>
    exact hown _ (p := adminClearClaims d operator userId) (hclaims _ _ _ _) fun _ _ h => h
  | listUserSessions userId =>
    refine (adminListUserSessions_obeys sessionIdForFamily userId ?_).bind (fun _ _ _ => trivial)
      (fun _ _ _ => trivial)
    rintro past _ (⟨u, rfl⟩ | rfl | ⟨u, t, n, rfl⟩) <;> trivial

/-- Every request that returns tokens names their session. -/
theorem answerApp_names (request : AppRequest) :
    (answerApp d sessionIdForFamily W K request).Obeys (fun _ _ => True) (AppNames d) [] := by
  have hother : ∀ {α : Type} (p : AdminService Error α) (f : α → AppReply),
      (∀ a tokens, f a ≠ .admin (.token (.served (.tokens tokens)))) →
      (f <$> p).Obeys (fun _ _ => True) (AppNames d) [] := by
    intro α p f hf
    have hp : p.Obeys (fun _ _ => True) (fun _ _ => True) [] :=
      Program.obeys_of_forall (fun _ _ => trivial) (fun _ _ => trivial) p
    refine hp.bind ?_ (fun _ _ _ _ h => by cases h)
    intro past a _ tokens heq
    exact absurd (Except.ok.inj heq) (hf a tokens)
  cases request with
  | admin request =>
    cases request with
    | token request =>
      cases request with
      | served request =>
        rw [answerApp_served]
        refine Program.Obeys.bind (administered_start (serve_founds d request) fun _ _ _ => trivial)
          ?_ (fun _ _ _ _ h => by cases h)
        rintro past response h tokens heq
        cases heq
        exact h tokens rfl
      | revoke request =>
        rw [answerApp_revoke]
        exact hother _ _ fun _ _ h => by cases h
    | revokeUserSession operator userId sessionId =>
      rw [answerApp_revokeUserSession]
      exact hother _ _ fun _ _ h => by cases h
    | revokeUserSessions operator userId =>
      rw [answerApp_revokeUserSessions]
      exact hother _ _ fun _ _ h => by cases h
  | _ => exact hother _ _ fun _ _ h => by cases h

end Discipline

/-! ## What the ports answer about users -/

section Answers

variable {d : Deployment} {x : Choice} {c : ℕ} {w w' : World}

/-- A user that a lookup by external identity answers is stored and bears it. -/
theorem identity_of_getUserByExternalId {externalId provider : String} {user : User}
    (hex : exec d x c (.getUserByExternalId externalId provider) w =
      some (.ok (some user), w')) :
    (∃ id, w.users.lookup id = some user) ∧ user.externalId = externalId ∧
      user.provider = provider := by
  obtain hdone | ⟨⟨e, he⟩, -⟩ := fallible_eq_some hex
  · have hfound : w.getUserByExternalId externalId provider = some user := by
      simpa using congrArg Prod.fst hdone
    obtain ⟨hid, hidentity⟩ := Table.findValue?_eq_some hfound
    simp only [Bool.and_eq_true, beq_iff_eq] at hidentity
    exact ⟨hid, hidentity.1.1, hidentity.1.2⟩
  · exact absurd he (by simp)

end Answers

/-! ## What later moments keep -/

/-- The later moment remembers what the earlier one did, and the users keep their identities. -/
structure Continues (m m' : AppMoment) : Prop where
  history : m.history <:+ m'.history
  users : ∀ id externalId provider, Bears m id externalId provider →
    Bears m' id externalId provider

section Later

variable {d : Deployment} {m m' : AppMoment} {c : ℕ} {w : World}

namespace Continues

theorem of_users (hhistory : m.history <:+ m'.history) (husers : m'.world.users = m.world.users) :
    Continues m m' :=
  ⟨hhistory, fun _ _ _ ⟨user, hlookup, h⟩ => ⟨user, husers ▸ hlookup, h⟩⟩

theorem core_history (h : Continues m m') : m.core.history <:+ m'.core.history :=
  core_history_suffix h.history

theorem core_past (h : Continues m m') (c : ℕ) : m.core.past c <:+ m'.core.past c :=
  h.core_history.filterMap _

theorem familyDraws (h : Continues m m') : familyDraws m.core ⊆ familyDraws m'.core :=
  (h.core_history.filterMap _).subset

end Continues

theorem SignedIn.later {req : ExchangeRequest} {claims : IdentityClaims}
    (h : SignedIn d m c req claims) (hlater : Continues m m') : SignedIn d m' c req claims :=
  ⟨hlater.history.subset h.asked, h.vouched.of_suffix (hlater.core_past c), h.permitted⟩

theorem Grounded.later {s : Session} (h : Grounded d m s) (hlater : Continues m m') :
    Grounded d m' s := by
  obtain ⟨c, req, claims, hsigned, hfamily, hbears, hrest⟩ := h
  exact ⟨c, req, claims, hsigned.later hlater, hlater.familyDraws hfamily,
    hlater.users _ _ _ hbears, hrest⟩

theorem Registered.later {user : User} (h : Registered d m user) (hlater : Continues m m') :
    Registered d m' user := by
  obtain ⟨c, ⟨new, created, hcreated, hidentity⟩, hby⟩ := h
  refine ⟨c, ⟨new, created, hlater.core_history.subset hcreated, hidentity⟩, ?_⟩
  obtain ⟨req, claims, hsigned, hrest⟩ | ⟨operator, new, hbegan, hrest⟩ := hby
  · exact .inl ⟨req, claims, hsigned.later hlater, hrest⟩
  · exact .inr ⟨operator, new, hlater.history.subset hbegan, hrest⟩

/-- Generations of one sign-in rest on the same grounds. -/
theorem Grounded.of_same {s t : Session} (h : Grounded d m s) (hsame : SameSignIn s t) :
    Grounded d m t := by
  obtain ⟨c, req, claims, hsigned, hfamily, hbears, hprovider, hdevice, hagent, haddress⟩ := h
  exact ⟨c, req, claims, hsigned, hsame.familyId ▸ hfamily, hsame.userId ▸ hbears,
    hsame.provider.trans hprovider, hsame.deviceId.trans hdevice, hsame.userAgent.trans hagent,
    hsame.ipAddress.trans haddress⟩

/-- A user that bears the same identity under the same identifier is registered as well. -/
theorem Registered.of_same {user user' : User} (h : Registered d m user) (hid : user'.id = user.id)
    (hexternal : user'.externalId = user.externalId) (hprovider : user'.provider = user.provider) :
    Registered d m user' := by
  obtain ⟨c, ⟨new, created, hcreated, hcid, hce, hcp⟩, hby⟩ := h
  refine ⟨c, ⟨new, created, hcreated, hcid.trans hid.symm, hce.trans hexternal.symm,
    hcp.trans hprovider.symm⟩, ?_⟩
  rw [hexternal, hprovider]
  exact hby

/-! ## The invariant -/

/-- What leaves the users and the operations of the core alone keeps the provenance. -/
theorem Provenance.of_same (h : Provenance d m) (hlater : Continues m m')
    (husers : m'.world.users = m.world.users) (hcore : m'.core.history = m.core.history) :
    Provenance d m' where
  users id user hlookup := by
    obtain ⟨hid, hregistered⟩ := h.users id user (husers ▸ hlookup)
    exact ⟨hid, hregistered.later hlater⟩
  read c id user hmem := h.read c id user (hcore ▸ hmem)
  found c e p user hmem := hlater.users _ _ _ (h.found c e p user (hcore ▸ hmem))
  created c new user hmem := hlater.users _ _ _ (h.created c new user (hcore ▸ hmem))
  installed c s hmem := by
    have hsame : installs m'.core = installs m.core := by
      unfold installs Moment.collect
      rw [hcore]
    exact (h.installed c s (hsame ▸ hmem)).later hlater

/-- No operation takes a user its identity. -/
theorem bears_of_userStep {o : Op} {ans : Ans o} (hstep : UserStep m.world o ans w)
    {o' : AdminOp} {ans' : AdminAns o'} {id externalId provider : String}
    (h : Bears m id externalId provider) : Bears (m.performed c o' ans' w) id externalId provider := by
  obtain ⟨user, hlookup, hexternal, hprovider⟩ := h
  cases hstep with
  | created new fresh hnone _ _ =>
    refine ⟨user, ?_, hexternal, hprovider⟩
    show (m.world.users.insert fresh.id fresh).lookup id = some user
    rw [Table.lookup_insert_ite, if_neg, hlookup]
    rintro rfl
    exact absurd (hnone.symm.trans hlookup) (by simp)
  | wrote userId written stored hstored =>
    by_cases hid : id = userId
    · subst hid
      obtain rfl := Option.some.inj (hstored.symm.trans hlookup)
      refine ⟨stored.overwritten written, ?_, hexternal, hprovider⟩
      show (m.world.users.insert id (stored.overwritten written)).lookup id = some _
      rw [Table.lookup_insert_ite, if_pos rfl]
    · refine ⟨user, ?_, hexternal, hprovider⟩
      show (m.world.users.insert userId (stored.overwritten written)).lookup id = some user
      rw [Table.lookup_insert_ite, if_neg hid, hlookup]
  | kept _ _ hsame => exact ⟨user, hsame ▸ hlookup, hexternal, hprovider⟩

variable {sessionIdForFamily : String → String} {request : AppRequest} {x : Choice}

/-- The user that an exchange resolves bears the identity of the claims. -/
theorem Provenance.bears_resolved (h : Provenance d m) {req : ExchangeRequest}
    {claims : IdentityClaims} {user : User} (hresolved : Resolved req (m.core.past c) claims user) :
    Bears m user.id claims.subject req.provider := by
  obtain ⟨hfound, -⟩ | ⟨new, hcreated, hexternal, hprovider⟩ := hresolved
  · exact h.found c _ _ user ((Moment.mem_past ..).mp hfound)
  · have := h.created c new user ((Moment.mem_past ..).mp hcreated)
    rwa [hexternal, hprovider] at this

/-- A created user was registered by the call that created it. -/
theorem registered_of_createUser {new : NewUser} {user : User} (hrunning : m.Running c request)
    (hfounds : request.Founds d (m.core.past c) (.createUser new))
    (hidentity : user.externalId = new.externalId ∧ user.provider = new.provider)
    (hlater : Continues m m')
    (hmem : .performed c (.createUser new) (.ok user) ∈ m'.core.history) :
    Registered d m' user := by
  refine ⟨c, ⟨new, user, hmem, rfl, hidentity.1.symm, hidentity.2.symm⟩, ?_⟩
  have hasked : .began c request ∈ m'.history := hlater.history.subset ((hrunning.asked _).mpr rfl)
  unfold AppRequest.Founds at hfounds
  split at hfounds
  · rename_i served
    cases served with
    | exchange req =>
      obtain ⟨hopen, claims, hvouched, hpermitted, hexternal, hprovider⟩ := hfounds
      exact .inl ⟨req, claims, ⟨hasked, hvouched.of_suffix (hlater.core_past c), hpermitted⟩, hopen,
        hidentity.1.trans hexternal, hidentity.2.trans hprovider⟩
    | _ => exact hfounds.elim
  · rename_i operator new'
    rcases hfounds with hfounds | hfounds
    · exact hfounds.elim
    · cases hfounds
      exact .inr ⟨operator, new, hasked, hidentity⟩
  · exact hfounds.elim

/-- The session that an exchange stores is grounded. -/
theorem Provenance.grounded_stored (h : Provenance d m) {s : Session}
    (hrunning : m.Running c request)
    (hfounds : request.Founds d (m.core.past c) (.storeRefreshToken s)) (hlater : Continues m m') :
    Grounded d m' s := by
  unfold AppRequest.Founds at hfounds
  split at hfounds
  · rename_i served
    cases served with
    | exchange req =>
      obtain ⟨claims, user, raw, familyId, expiresAt, createdAt, rfl, hvouched, hpermitted,
        hresolved, hfamily⟩ := hfounds
      have hasked := (hrunning.asked _).mpr rfl
      have hdrawn : (c, familyId) ∈ familyDraws m.core := Moment.mem_collect_of_past hfamily rfl
      exact Grounded.later ⟨c, req, claims, ⟨hasked, hvouched, hpermitted⟩, hdrawn,
        h.bears_resolved hresolved, rfl, rfl, rfl, rfl⟩ hlater
    | _ => exact hfounds.elim
  · rcases hfounds with hfounds | hfounds
    · exact hfounds.elim
    · cases hfounds
  · exact hfounds.elim

/-- Everything that is known of a running service. -/
structure AppInvariant (d : Deployment) (m : AppMoment) : Prop where
  lineage : Lineage d m.core ∧ Truthful m.core
  provenance : Provenance d m

/-- What a compliant call does keeps where users and sessions come from. -/
theorem Provenance.performs (h : Provenance d m) (hl : Lineage d m.core ∧ Truthful m.core)
    (hrunning : m.Running c request) {o : Op} {ans : Ans o}
    (hready : AppReady d sessionIdForFamily request (m.past c) (.token (.port o)))
    (hfounds : request.Founds d (m.core.past c) o)
    (hex : exec d x c o m.core.world = some (ans, w)) :
    Provenance d (m.performed c (.token (.port o)) ans w) := by
  have hstep := userStep_of_exec hex
  have hlater : Continues m (m.performed c (.token (.port o)) ans w) :=
    ⟨List.suffix_cons .., fun _ _ _ => bears_of_userStep hstep⟩
  have hcore : (AppMoment.core (m.performed c (.token (.port o)) ans w)).history =
      .performed c o ans :: m.core.history := congrArg Moment.history (appCore_performed_port o ans)
  constructor
  case users =>
    intro id user hlookup
    have hkept : ∀ {id : String} {user : User}, m.world.users.lookup id = some user →
        user.id = id ∧ Registered d (m.performed c (.token (.port o)) ans w) user :=
      fun hlookup => ⟨(h.users _ _ hlookup).1, (h.users _ _ hlookup).2.later hlater⟩
    cases hstep with
    | created new fresh _ _ _ =>
      change (m.world.users.insert fresh.id fresh).lookup id = some user at hlookup
      rw [Table.lookup_insert_ite] at hlookup
      split at hlookup
      · rename_i heq
        obtain rfl := Option.some.inj hlookup
        obtain ⟨hexternal, hprovider, -⟩ := identity_of_createUser hex
        refine ⟨heq.symm, registered_of_createUser hrunning hfounds ⟨hexternal, hprovider⟩ hlater ?_⟩
        rw [hcore]
        exact List.mem_cons_self
      · exact hkept hlookup
    | wrote userId written stored hstored =>
      change (m.world.users.insert userId (stored.overwritten written)).lookup id = some user
        at hlookup
      rw [Table.lookup_insert_ite] at hlookup
      split at hlookup
      · rename_i heq
        obtain rfl := Option.some.inj hlookup
        obtain ⟨hid, hregistered⟩ := hkept hstored
        exact ⟨hid.trans heq.symm, hregistered.of_same rfl rfl rfl⟩
      · exact hkept hlookup
    | kept _ _ hsame => exact hkept (hsame ▸ hlookup)
  case read =>
    intro c' id user hmem
    rw [hcore] at hmem
    rcases List.mem_cons.mp hmem with heq | hmem
    · cases heq
      exact (h.users id user (stored_of_getUserById hex)).1
    · exact h.read c' id user hmem
  case found =>
    intro c' externalId provider user hmem
    rw [hcore] at hmem
    rcases List.mem_cons.mp hmem with heq | hmem
    · cases heq
      obtain ⟨⟨id, hid⟩, hidentity⟩ := identity_of_getUserByExternalId hex
      obtain rfl := (h.users id user hid).1
      exact hlater.users _ _ _ ⟨user, hid, hidentity⟩
    · exact hlater.users _ _ _ (h.found c' externalId provider user hmem)
  case created =>
    intro c' new user hmem
    rw [hcore] at hmem
    rcases List.mem_cons.mp hmem with heq | hmem
    · cases heq
      obtain ⟨hexternal, hprovider, -⟩ := identity_of_createUser hex
      cases hstep with
      | created _ _ _ _ _ =>
        refine ⟨user, ?_, hexternal, hprovider⟩
        show (m.world.users.insert user.id user).lookup user.id = some user
        rw [Table.lookup_insert_ite, if_pos rfl]
      | kept hnot _ _ => exact absurd hnot (by simp [createdOf])
    · exact hlater.users _ _ _ (h.created c' new user hmem)
  case installed =>
    intro c' s hmem
    have hinstalls : installs (AppMoment.core (m.performed c (.token (.port o)) ans w)) =
        installs (m.core.performed c o ans w) := congrArg installs (appCore_performed_port o ans)
    rw [hinstalls] at hmem
    cases storeStep_of_exec hex with
    | drew raw _ => exact (h.installed c' s hmem).later hlater
    | drewFamily familyId _ _ => exact (h.installed c' s hmem).later hlater
    | stored t =>
      have hi : installs (m.core.performed c (.storeRefreshToken t) (.ok ())
          { m.core.world with sessions := m.core.world.sessions.insert t.refreshTokenHash t }) =
          (c, t) :: installs m.core := Moment.collect_performed_some installOf m.core _ rfl
      rw [hi] at hmem
      rcases List.mem_cons.mp hmem with heq | hmem
      · obtain ⟨rfl, rfl⟩ := Prod.mk.inj heq
        exact h.grounded_stored hrunning hfounds hlater
      · exact (h.installed c' s hmem).later hlater
    | rotated k r live retired hlive _ _ _ =>
      have hi : installs (m.core.performed c (.rotateRefreshToken k r) (.ok true)
          { m.core.world with
            sessions := (m.core.world.sessions.erase k).insert r.refreshTokenHash r,
            retired := retired }) = (c, r) :: installs m.core :=
        Moment.collect_performed_some installOf m.core _ rfl
      rw [hi] at hmem
      rcases List.mem_cons.mp hmem with heq | hmem
      · obtain ⟨rfl, rfl⟩ := Prod.mk.inj heq
        obtain ⟨served, -, hserved⟩ := served_of_installs (by trivial) hready
        obtain ⟨hsucc, -⟩ := succeeds_of_rotateReady hl.1 hl.2 hserved hlive
        obtain ⟨c₁, hinstalled⟩ := hl.1.installed_of_live hlive
        exact ((h.installed c₁ live hinstalled).of_same hsucc.same).later hlater
      · exact (h.installed c' s hmem).later hlater
    | shrank hunseen _ =>
      simp only [installs, Moment.collect_performed_none _ m.core w hunseen.install] at hmem
      exact (h.installed c' s hmem).later hlater

end Later

/-! ## Runs -/

section Runs

variable {d : Deployment} {sessionIdForFamily : String → String} {Bytes : Type} {W : Wire Bytes}
  {K : KeyManager Bytes}

/-- What a call of the service has done when it acts. -/
def ProvenanceReady (d : Deployment) (sessionIdForFamily : String → String) (request : AppRequest)
    (past : AdminPast) (o : AdminOp) : Prop :=
  AppReady d sessionIdForFamily request past o ∧ AppFounds d request past o

/-- The provenance, kept by every step of the service. -/
def provenanceProtocol (d : Deployment) (sessionIdForFamily : String → String) :
    Protocol (adminSemantics d) (ProvenanceReady d sessionIdForFamily) where
  inv m := AppInvariant d m
  allowed _ _ _ _ := True
  begins := fun {m c i} h _ => ⟨h.lineage, h.provenance.of_same
    (.of_users (List.suffix_cons ..) rfl) rfl rfl⟩
  performs := fun {m c i x o ans w} h hrunning hready _ hex => by
    refine ⟨(coreStep_of_appReady hready.1 hex).lineage h.lineage, ?_⟩
    have hother : (∀ o', o ≠ .token (.port o')) → Provenance d (m.performed c o ans w) := by
      intro hne
      obtain ⟨rfl, hcore⟩ := same_of_not_port hne hex
      exact h.provenance.of_same (.of_users (List.suffix_cons ..) rfl) rfl hcore
    cases o with
    | listLiveSessions u t n => exact hother fun _ h => by cases h
    | token o =>
      cases o with
      | getSessionByRefreshToken k => exact hother fun _ h => by cases h
      | port o =>
        refine h.provenance.performs h.lineage hrunning hready.1 ?_ hex
        rw [past_core_app]
        exact hready.2
  ends := fun {m c i} h _ => ⟨h.lineage, h.provenance.of_same
    (.of_users (List.suffix_cons ..) rfl) rfl rfl⟩
  drifts := fun {m k w} h hdrift => ⟨(coreStep_of_drift hdrift).lineage h.lineage,
    h.provenance.of_same (.of_users List.suffix_rfl (shrinks_of_drift hdrift).2)
      (shrinks_of_drift hdrift).2 rfl⟩

theorem answerApp_provenance (W : Wire Bytes) (K : KeyManager Bytes) (request : AppRequest) :
    (answerApp d sessionIdForFamily W K request).Obeys
      (ProvenanceReady d sessionIdForFamily request) (fun past result => AppNames d past result)
      [] := by
  refine ((((answerApp_obeys d sessionIdForFamily W K request).and
    (answerApp_founds d sessionIdForFamily W K request)).and
    (answerApp_names d sessionIdForFamily W K request)).mono ?_).mono_ready ?_
  · exact fun _ _ h => h.2
  · exact fun _ _ h => h.1

/-- In every run of the service the provenance holds at the end. -/
theorem appInvariant_of_run {clock : Instant} {p : AppPool} {as : List AppAct}
    (hrun : (appService d sessionIdForFamily W K).Run System.anyStep (AppPool.start clock) as p) :
    AppInvariant d p.toMoment := by
  have hstart : AppInvariant d (AppPool.start clock).toMoment :=
    ⟨lineage_start d clock, by
      constructor <;> simp [AppPool.start, Pool.initial, World.empty, installs, Moment.collect,
        AppMoment.core, AdminMoment.core, TokenMoment.core, Moment.through]⟩
  exact (provenanceProtocol d sessionIdForFamily).run (answerApp_provenance W K)
    (hrun.mono fun _ _ _ _ _ _ _ => trivial) (Disciplined.initial _) hstart

/-- **No session without a sign-in**: in every run, every session that is live, and every retired
record, goes back to an exchange that authenticated the identity which its user bears. -/
theorem sessions_grounded {clock : Instant} {p : AppPool} {as : List AppAct}
    (hrun : (appService d sessionIdForFamily W K).Run System.anyStep (AppPool.start clock) as p) :
    (∀ h s, p.world.sessions.lookup h = some s → Grounded d p.toMoment s) ∧
      ∀ h record, p.world.retired.lookup h = some record → ∃ s, Grounded d p.toMoment s ∧
        record.familyId = s.familyId ∧ record.userId = s.userId := by
  obtain ⟨⟨hl, -⟩, hprovenance⟩ := appInvariant_of_run hrun
  constructor
  · intro h s hlookup
    obtain ⟨c, hinstalled⟩ := hl.installed_of_live hlookup
    exact hprovenance.installed c s hinstalled
  · intro h record hlookup
    obtain ⟨c, r, hrotated, -, hfamily, huser, -⟩ := hl.retired h record hlookup
    exact ⟨r, hprovenance.installed c r (hl.rotated_from c h r hrotated).1, hfamily, huser⟩

/-- **No user without a registration**: in every run, every stored user was registered by an
exchange for the identity which it bears, under an open registration, or was created with it by
an operator. -/
theorem users_registered {clock : Instant} {p : AppPool} {as : List AppAct}
    (hrun : (appService d sessionIdForFamily W K).Run System.anyStep (AppPool.start clock) as p)
    (id : String) (user : User) (hstored : p.world.users.lookup id = some user) :
    user.id = id ∧ Registered d p.toMoment user :=
  (appInvariant_of_run hrun).provenance.users id user hstored

/-- **No token without a session**: in every run, the tokens that a call returns name a session
that was installed and goes back to a sign-in, and its user; the refresh token among them is the
one the session is stored under. -/
theorem tokens_grounded {clock : Instant} {p : AppPool} {as : List AppAct} {c : ℕ}
    {request : AppRequest} {tokens : TokenResponse}
    (hrun : (appService d sessionIdForFamily W K).Run System.anyStep (AppPool.start clock) as p)
    (hreturned : p.Returned c request (.admin (.token (.served (.tokens tokens))))) :
    ∃ s, (∃ c', (c', s) ∈ installs (AppMoment.core p.toMoment)) ∧ Grounded d p.toMoment s ∧
      Names d tokens s.userId s := by
  obtain ⟨⟨hl, htruth⟩, hprovenance⟩ := appInvariant_of_run hrun
  have hdisciplined : Disciplined (ProvenanceReady d sessionIdForFamily)
      (fun _ past result => AppNames d past result) p :=
    (Disciplined.initial _).run (answerApp_provenance W K) hrun
  have hnames := hdisciplined.returned hreturned tokens rfl
  rw [← past_core_app] at hnames
  have hgrounded : ∀ s, (∃ c', (c', s) ∈ installs (AppMoment.core p.toMoment)) → Names d tokens s.userId s →
      ∃ s, (∃ c', (c', s) ∈ installs (AppMoment.core p.toMoment)) ∧ Grounded d p.toMoment s ∧
        Names d tokens s.userId s := by
    rintro s ⟨c', hinstalled⟩ hs
    exact ⟨s, ⟨c', hinstalled⟩, hprovenance.installed c' s hinstalled, hs⟩
  obtain ⟨s, hstored, hs⟩ | ⟨s, user, hread, hs, hheld⟩ := hnames
  · exact hgrounded s ⟨c, Moment.mem_collect_of_past hstored rfl⟩ hs
  · have hid := hprovenance.read c _ _ ((Moment.mem_past ..).mp hread)
    rw [hid] at hs
    obtain ⟨h, hrotated⟩ | ⟨h, hresolved⟩ := hheld
    · exact hgrounded s ⟨c, Moment.mem_collect_of_past hrotated rfl⟩ hs
    · exact hgrounded s (htruth c h _ ((Moment.mem_past ..).mp hresolved)).2 hs

end Runs

/-! ## A sign-in and a refresh -/

namespace Sample

/-- The user that the operator creates. -/
def invited : NewUser where
  externalId := "bob"
  provider := "idp"
  email := none
  displayName := none

/-- A sign-in, an operator's creation of another user, and a refresh. -/
def signedInAndRefreshed : List AppAct :=
  (tokenSignIn "a").map tokenStep ++
    appCall 2 (.createUser operator invited) [.draw "usr2", .proceed, .proceed] ++
    (tokenRefresh 1 "a" "b").map tokenStep

/-- The refreshed session is live, the invited user is stored, and the refresh has returned. -/
def refreshedAndInvited (p : AppPool) : Bool :=
  (p.world.sessions.lookup (digest "b")).isSome && (p.world.users.lookup "usr2").isSome &&
    match p.calls 1 with
    | some ⟨_, .done (.admin (.token (.served (.tokens _))))⟩ => true
    | _ => false

theorem run_refreshed : ∃ p, app.Run System.anyStep (AppPool.start 0) signedInAndRefreshed p ∧
    (∃ s, p.world.sessions.lookup (digest "b") = some s) ∧
    (∃ user, p.world.users.lookup "usr2" = some user) ∧
    ∃ request tokens, p.Returned 1 request (.admin (.token (.served (.tokens tokens)))) := by
  have hruns : (app.follow (AppPool.start 0) signedInAndRefreshed).any refreshedAndInvited =
      true := by decide +kernel
  obtain ⟨p, hrun, htest⟩ := System.Run.of_follow_any hruns
  obtain ⟨htest, hreturned⟩ := Bool.and_eq_true _ _ ▸ htest
  obtain ⟨hlive, huser⟩ := Bool.and_eq_true _ _ ▸ htest
  refine ⟨p, hrun, Option.isSome_iff_exists.mp hlive, Option.isSome_iff_exists.mp huser, ?_⟩
  split at hreturned
  · rename_i request tokens hcall
    exact ⟨request, tokens, hcall⟩
  · cases hreturned

end Sample

/-- The session of the refresh goes back to the sign-in. -/
theorem sessions_grounded_refreshed : ∃ p s,
    Sample.app.Run System.anyStep (AppPool.start 0) Sample.signedInAndRefreshed p ∧
      p.world.sessions.lookup (Sample.digest "b") = some s ∧
      Grounded (Sample.deployment true) p.toMoment s := by
  obtain ⟨p, hrun, ⟨s, hs⟩, -⟩ := Sample.run_refreshed
  exact ⟨p, s, hrun, hs, (sessions_grounded hrun).1 _ s hs⟩

/-- The user that the operator created is registered. -/
theorem users_registered_invited : ∃ p user,
    Sample.app.Run System.anyStep (AppPool.start 0) Sample.signedInAndRefreshed p ∧
      p.world.users.lookup "usr2" = some user ∧
      Registered (Sample.deployment true) p.toMoment user := by
  obtain ⟨p, hrun, -, ⟨user, huser⟩, -⟩ := Sample.run_refreshed
  exact ⟨p, user, hrun, huser, (users_registered hrun "usr2" user huser).2⟩

/-- The tokens of the refresh name a session that goes back to the sign-in. -/
theorem tokens_grounded_refreshed : ∃ p tokens s,
    Sample.app.Run System.anyStep (AppPool.start 0) Sample.signedInAndRefreshed p ∧
      Grounded (Sample.deployment true) p.toMoment s ∧
      Names (Sample.deployment true) tokens s.userId s := by
  obtain ⟨p, hrun, -, -, request, tokens, hreturned⟩ := Sample.run_refreshed
  obtain ⟨s, -, hgrounded, hnames⟩ := tokens_grounded hrun hreturned
  exact ⟨p, tokens, s, hrun, hgrounded, hnames⟩

end OidcExchange
