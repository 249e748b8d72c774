import OidcExchange.Analysis.RevokedToken
import OidcExchange.Interleaving.Handler
import OidcExchange.Program.SessionAdmin

/-!
# Administrative revocation beside the other calls

An administrator's call removes one family, which it has been shown among the sessions of the
user; all else it does leaves the store alone. What the other calls do is read off the operations
they share with it.
-/

set_option autoImplicit false

namespace OidcExchange

open Storage Interleaving Service

variable {d : Deployment}

/-! ## What the smaller services see -/

/-- An operation of the service that revokes tokens, seen as one. -/
def tokenPerformed : Performed AdminAns → Option (Performed RevokeAns)
  | ⟨.token o, ans⟩ => some ⟨o, ans⟩
  | ⟨.listLiveSessions _ _ _, _⟩ => none

/-- What a call of the larger service has performed, newest first. -/
abbrev AdminPast : Type := List (Performed AdminAns)

/-- The operations of the service that revokes tokens. -/
abbrev AdminMoment.tokens (m : AdminMoment) : TokenMoment := m.through TokenRequest tokenPerformed

/-- The operations of the core. -/
abbrev AdminMoment.core (m : AdminMoment) : ServiceMoment := TokenMoment.core m.tokens

variable {m : AdminMoment}

theorem mem_tokens {c : ℕ} {o : RevokeOp} {ans : RevokeAns o} :
    .performed c o ans ∈ m.tokens.history ↔ .performed c (.token o) ans ∈ m.history := by
  rw [Moment.mem_history_through]
  constructor
  · rintro ⟨o' | ⟨u, t, n⟩, ans', hmem, hview⟩
    · cases hview
      exact hmem
    · exact nomatch hview
  · intro hmem
    exact ⟨_, _, hmem, rfl⟩

theorem past_tokens (c : ℕ) : m.tokens.past c = (m.past c).filterMap tokenPerformed :=
  Moment.past_through c

@[simp] theorem tokens_performed_token (c : ℕ) (o : RevokeOp) (ans : RevokeAns o) (w : World) :
    AdminMoment.tokens (m.performed c (.token o) ans w) = m.tokens.performed c o ans w :=
  Moment.through_performed_some w rfl

@[simp] theorem tokens_performed_list (c : ℕ) (u : String) (t : Instant) (n : ℕ)
    (ans : Answer (List Session)) (w : World) :
    AdminMoment.tokens (m.performed c (.listLiveSessions u t n) ans w) = m.tokens.drifted w :=
  Moment.through_performed_none w rfl

theorem adminCore_performed_token (c : ℕ) (o : RevokeOp) (ans : RevokeAns o) (w : World) :
    AdminMoment.core (m.performed c (.token o) ans w) =
      TokenMoment.core (m.tokens.performed c o ans w) :=
  congrArg TokenMoment.core (tokens_performed_token c o ans w)

theorem adminCore_performed_list (c : ℕ) (u : String) (t : Instant) (n : ℕ)
    (ans : Answer (List Session)) (w : World) :
    AdminMoment.core (m.performed c (.listLiveSessions u t n) ans w) = m.core.drifted w :=
  congrArg TokenMoment.core (tokens_performed_list c u t n ans w)

/-! ## The discipline -/

/-- The operation reads the clock or a user, or records an event. -/
def Op.Attends : Op → Prop
  | .now => True
  | .getUserById _ => True
  | .emit _ => True
  | _ => False

section Discipline

variable (d : Deployment) (sessionIdForFamily : String → String)

/-- The call was shown a session of the family, whose identifier it was given. -/
def FamilyListed (userId sessionId : String) (past : AdminPast) (familyId : String) : Prop :=
  sessionIdForFamily familyId = sessionId ∧ ∃ now limit sessions s,
    ⟨.listLiveSessions userId now limit, .ok sessions⟩ ∈ past ∧ s ∈ sessions ∧
      s.familyId = familyId

/-- What the past of a call contains when it performs an operation. -/
def AdminReady (request : AdminRequest) (past : AdminPast) (o : AdminOp) : Prop :=
  match request, o with
  | .token request, .token o => TokenReady d request (past.filterMap tokenPerformed) o
  | .revokeUserSession _ userId _, .listLiveSessions u _ _ => u = userId
  | .revokeUserSession _ userId sessionId, .token (.port (.revokeFamily f)) =>
    FamilyListed sessionIdForFamily userId sessionId past f
  | .revokeUserSessions _ _, .token (.port (.revokeAllUserSessions _)) => True
  | _, .token (.port o) => o.Attends
  | _, _ => False

/-- The call has removed something of a family it was shown. -/
def RemovedListed (userId sessionId : String) (past : AdminPast) : Prop :=
  ∃ familyId count, FamilyListed sessionIdForFamily userId sessionId past familyId ∧
    ⟨.token (.port (.revokeFamily familyId)), .ok count⟩ ∈ past ∧ 0 < count

/-- A lookup of the user or a listing of its sessions has panicked. -/
def Panics : Performed AdminAns → Prop
  | ⟨.token (.port (.getUserById _)), .error .panic⟩ => True
  | ⟨.listLiveSessions _ _ _, .error .panic⟩ => True
  | _ => False

/-- A call that was told that it has revoked a session has removed something of its family; a call
that was shown no family has not panicked on its own. -/
structure SessionOutcome {α : Type} (userId sessionId : String) (past : AdminPast)
    (result : Except (Fault Error) α) : Prop where
  removed : ∀ a, result = .ok a → RemovedListed sessionIdForFamily userId sessionId past
  panicked : result = .error .panic →
    (∃ familyId, FamilyListed sessionIdForFamily userId sessionId past familyId) ∨ ∃ e ∈ past, Panics e

/-- What the past of a call contains when it ends. -/
def AdminOutcome (request : AdminRequest) (past : AdminPast)
    (result : Except (Fault Error) AdminReply) : Prop :=
  ∀ operator userId sessionId, request = .revokeUserSession operator userId sessionId →
    SessionOutcome sessionIdForFamily userId sessionId past result

/-- A call of the smaller service obeys as before. -/
theorem tokened_obeys {ε α : Type} {ready : RevokePast → RevokeOp → Prop}
    {post : RevokePast → Except (Fault ε) α → Prop} {ready' : AdminPast → AdminOp → Prop}
    {past : AdminPast} {p : RevokeService ε α}
    (hp : p.Obeys ready post (past.filterMap tokenPerformed))
    (hready : ∀ past o, ready (past.filterMap tokenPerformed) o → ready' past (.token o)) :
    (tokened p).Obeys ready' (fun past' r => post (past'.filterMap tokenPerformed) r) past := by
  refine (hp.interp (R := fun past past' => past'.filterMap tokenPerformed = past) ?_ rfl).mono ?_
  · rintro o _ past' rfl ho
    exact ⟨hready past' o ho, fun ans => ⟨ans, rfl, rfl⟩⟩
  · rintro past' r ⟨_, rfl, hpost⟩
    exact hpost

/-- A call of the core that performs only some operations. -/
theorem administered_only {ε α : Type} {P : Op → Prop} {Q : AdminOp → Prop} {p : Service ε α}
    (hp : p.Only P) (hQ : ∀ o, P o → Q (.token (.port o))) : (administered p).Only Q :=
  (ported_only (Q := fun o => Q (.token o)) hp hQ).interp fun _ ho => ⟨ho, fun _ => trivial⟩

theorem loadLiveUser_only (userId : String) : (loadLiveUser userId).Only Op.Attends := by
  refine ⟨trivial, ?_⟩
  rintro (e | _ | user)
  · trivial
  · trivial
  · show (if user.status = .deleted then _ else _ : Service Error User).Only _
    split
    · trivial
    · trivial

theorem emitAdminMutationWithDetail_only (kind : AdminMutationKind) (user : User)
    (operator : OperatorPrincipal) (detail : Table String Value) :
    (emitAdminMutationWithDetail d kind user operator detail).Only Op.Attends := by
  refine Program.Only.bind ?_ fun event => emitMandatoryAuditEvent_only_of d trivial
  exact (assert_only _).bind fun _ => (assert_only _).bind fun _ => trivial

/-- What an administrator's call does besides listing and removing is always admitted. -/
theorem attends_obeys {ε α : Type} {p : Service ε α} {past : AdminPast} (request : AdminRequest)
    (hp : p.Only Op.Attends) (hrequest : ∀ request', request ≠ .token request') :
    (administered p).Obeys (AdminReady d sessionIdForFamily request)
      (fun past' _ => Program.Since (fun _ => True) past past') past := by
  refine ((administered_only (Q := fun o => ∃ o' : Op, o = .token (.port o') ∧ o'.Attends) hp
    fun o ho => ⟨o, rfl, ho⟩).obeys ?_).mono fun past' _ h => h.mono fun _ _ => trivial
  rintro past' _ ⟨o, rfl, ho⟩
  cases request with
  | token request' => exact absurd rfl (hrequest request')
  | revokeUserSession operator userId sessionId => cases o <;> first | exact ho | exact ho.elim
  | revokeUserSessions operator userId => cases o <;> first | exact ho | exact ho.elim

/-- A family that is found among listed sessions was listed under the identifier. -/
theorem of_findFamily {sessions : List Session} {sessionId familyId : String}
    (h : findFamily sessionIdForFamily sessions sessionId = some familyId) :
    sessionIdForFamily familyId = sessionId ∧ ∃ s ∈ sessions, s.familyId = familyId := by
  obtain ⟨s, hfound, rfl⟩ := Option.map_eq_some_iff.mp h
  have hid := List.find?_some hfound
  have hmem := List.mem_of_find?_eq_some hfound
  exact ⟨beq_iff_eq.mp hid, s, (List.mem_filter.mp hmem).1, rfl⟩

/-- Removing a family that was listed. -/
theorem revokeListedFamily_obeys (operator : OperatorPrincipal) (user : User)
    {userId sessionId familyId : String} {past : AdminPast}
    (hlisted : FamilyListed sessionIdForFamily userId sessionId past familyId) :
    (administered (revokeListedFamily d operator user sessionId familyId)).Obeys
      (AdminReady d sessionIdForFamily (.revokeUserSession operator userId sessionId))
      (SessionOutcome sessionIdForFamily userId sessionId) past := by
  have hlater : ∀ past', past <:+ past' →
      FamilyListed sessionIdForFamily userId sessionId past' familyId := by
    intro past' hsuffix
    obtain ⟨hid, now, limit, sessions, s, hmem, hs⟩ := hlisted
    exact ⟨hid, now, limit, sessions, s, hsuffix.subset hmem, hs⟩
  have hfailed : ∀ past' (fault : Fault Error), past <:+ past' →
      SessionOutcome (α := Unit) sessionIdForFamily userId sessionId past' (.error fault) :=
    fun past' fault hsuffix => ⟨fun _ => nofun, fun _ => .inl ⟨familyId, hlater past' hsuffix⟩⟩
  refine ⟨hlisted, ?_⟩
  rintro (fault | count)
  · exact hfailed _ _ (List.suffix_cons ..)
  · show (administered (if count = 0 then _ else _ : Service Error Unit)).Obeys _ _ _
    split
    · exact hfailed _ _ (List.suffix_cons ..)
    · rename_i hcount
      refine (attends_obeys d sessionIdForFamily (.revokeUserSession operator userId sessionId)
        (emitAdminMutationWithDetail_only d ..) fun _ => nofun).mono ?_
      intro past' r hsince
      have hsuffix := (List.suffix_cons _ _).trans hsince.suffix
      exact ⟨fun _ _ => ⟨familyId, count, hlater past' hsuffix, hsince.mem List.mem_cons_self,
        Nat.pos_of_ne_zero hcount⟩, fun _ => .inl ⟨familyId, hlater past' hsuffix⟩⟩

/-- Looking the user up panics only when the lookup does. -/
theorem loadLiveUser_obeys (operator : OperatorPrincipal) (userId sessionId : String) :
    (administered (loadLiveUser userId)).Obeys
      (AdminReady d sessionIdForFamily (.revokeUserSession operator userId sessionId))
      (fun past r => r = .error .panic → ∃ e ∈ past, Panics e) [] := by
  refine ⟨trivial, ?_⟩
  rintro (fault | _ | user)
  · rintro ⟨⟩
    exact ⟨_, List.mem_cons_self, trivial⟩
  · exact nofun
  · show (administered (if user.status = .deleted then _ else _ : Service Error User)).Obeys _ _ _
    split
    · exact nofun
    · exact nofun

/-- An administrator's revocation of one session removes only a family it was shown. -/
theorem adminRevokeUserSession_obeys (operator : OperatorPrincipal) (userId sessionId : String) :
    (adminRevokeUserSession d sessionIdForFamily operator userId sessionId).Obeys
      (AdminReady d sessionIdForFamily (.revokeUserSession operator userId sessionId))
      (SessionOutcome sessionIdForFamily userId sessionId) [] := by
  refine (loadLiveUser_obeys d sessionIdForFamily operator userId sessionId).bind ?_ ?_
  · rintro past user -
    refine ⟨trivial, fun now => ⟨rfl, ?_⟩⟩
    rintro (fault | sessions)
    · refine ⟨fun _ => by rintro ⟨⟩, ?_⟩
      rintro ⟨⟩
      exact .inr ⟨_, List.mem_cons_self, trivial⟩
    · dsimp only [Program.bind, Program.ofExcept]
      split
      · rename_i familyId hfound
        obtain ⟨hid, s, hs, hfamily⟩ := of_findFamily sessionIdForFamily hfound
        exact revokeListedFamily_obeys d sessionIdForFamily operator user
          ⟨hid, now, maxListedSessions, sessions, s, List.mem_cons_self, hs, hfamily⟩
      · exact ⟨fun _ => by rintro ⟨⟩, by rintro ⟨⟩⟩
  · rintro past fault hpanics
    refine ⟨fun _ => by rintro ⟨⟩, ?_⟩
    rintro ⟨⟩
    exact .inr (hpanics rfl)

/-- An administrator's revocation of all sessions of a user. -/
theorem adminRevokeUserSessions_obeys (operator : OperatorPrincipal) (userId : String) :
    (administered (adminRevokeUserSessions d operator userId)).Obeys
      (AdminReady d sessionIdForFamily (.revokeUserSessions operator userId)) (fun _ _ => True)
      [] := by
  have honly : (adminRevokeUserSessions d operator userId).Only fun o =>
      o.Attends ∨ ∃ u, o = .revokeAllUserSessions u := by
    refine ((loadLiveUser_only userId).mono fun _ => .inl).bind fun user => ⟨.inr ⟨_, rfl⟩, ?_⟩
    rintro (e | count)
    · trivial
    · exact ((emitAdminMutationWithDetail_only d ..).mono fun _ => .inl).bind fun _ => trivial
  refine ((administered_only (Q := fun o => ∃ o' : Op, o = .token (.port o') ∧
    (o'.Attends ∨ ∃ u, o' = .revokeAllUserSessions u)) honly fun o ho => ⟨o, rfl, ho⟩).obeys
      ?_).mono fun _ _ _ => trivial
  rintro past _ ⟨o, rfl, ho | ⟨u, rfl⟩⟩
  · cases o <;> first | exact ho | exact ho.elim
  · trivial

/-- Every request complies. -/
theorem answerAdmin_obeys {Bytes : Type} (W : Wire Bytes) (K : KeyManager Bytes)
    (request : AdminRequest) :
    (answerAdmin d sessionIdForFamily W K request).Obeys (AdminReady d sessionIdForFamily request)
      (AdminOutcome sessionIdForFamily request) [] := by
  cases request with
  | token request =>
    exact (@tokened_obeys _ _ _ _ (AdminReady d sessionIdForFamily (.token request)) [] _
      (answerToken_obeys d W K request) fun _ _ h => h).bind
        (fun _ _ _ _ _ _ => nofun) (fun _ _ _ _ _ _ => nofun)
  | revokeUserSession operator userId sessionId =>
    refine (adminRevokeUserSession_obeys d sessionIdForFamily operator userId sessionId).bind ?_ ?_
    · rintro past ⟨⟩ houtcome _ _ _ ⟨⟩
      exact ⟨fun _ _ => houtcome.removed _ rfl, nofun⟩
    · rintro past fault houtcome _ _ _ ⟨⟩
      exact ⟨fun _ => nofun, fun heq => houtcome.panicked (by cases heq; rfl)⟩
  | revokeUserSessions operator userId =>
    exact (adminRevokeUserSessions_obeys d sessionIdForFamily operator userId).bind
      (fun _ _ _ _ _ _ => nofun) (fun _ _ _ _ _ _ => nofun)

end Discipline

/-- What is known of a call of this service that has ended, when it is a refresh. -/
def ToldByService (d : Deployment) (request : AdminRequest) (past : AdminPast)
    (result : Except (Fault Error) AdminReply) : Prop :=
  ∀ req tokens, request = .token (.served (.refresh req)) →
    result = .ok (.token (.served (.tokens tokens))) →
      ToldRedeemable d req (corePast (past.filterMap tokenPerformed)) (.ok tokens)

theorem answerAdmin_told {Bytes : Type} (sessionIdForFamily : String → String) (W : Wire Bytes)
    (K : KeyManager Bytes) (request : AdminRequest) :
    (answerAdmin d sessionIdForFamily W K request).Obeys (fun _ _ => True)
      (ToldByService d request) [] := by
  cases request with
  | token request =>
    refine (@tokened_obeys _ _ _ _ _ [] _ (answerToken_told W K request) fun _ _ _ => trivial).bind
      ?_ ?_
    · rintro past reply htold req tokens ⟨⟩ heq
      cases heq
      exact htold req tokens rfl rfl
    · exact fun _ _ _ _ _ _ heq => nomatch heq
  | revokeUserSession operator userId sessionId =>
    exact Program.obeys_of_forall (fun _ _ => trivial) (fun _ _ _ _ heq => nomatch heq) _
  | revokeUserSessions operator userId =>
    exact Program.obeys_of_forall (fun _ _ => trivial) (fun _ _ _ _ heq => nomatch heq) _

/-! ## What the core sees of a step -/

/-- A step as the core sees it: an operation of one of its calls, an operation that installs
nothing and only shrinks the store, or no operation. -/
inductive CoreStep (d : Deployment) (m : ServiceMoment) : ServiceMoment → Prop
  | served {request : Request} {c : ℕ} {x : Choice} {o : Op} {ans : Ans o} {w : World}
      (ready : Ready d request (m.past c) o) (hex : exec d x c o m.world = some (ans, w)) :
      CoreStep d m (m.performed c o ans w)
  | shrank {c : ℕ} {x : Choice} {o : Op} {ans : Ans o} {w : World} (unseen : Unseen o ans)
      (shrinks : m.world.Shrinks w) (hex : exec d x c o m.world = some (ans, w)) :
      CoreStep d m (m.performed c o ans w)
  | drifted {w : World} (shrinks : m.world.Shrinks w) : CoreStep d m (m.drifted w)

namespace CoreStep

variable {m m' : ServiceMoment}

theorem installs_subset (h : CoreStep d m m') : installs m ⊆ installs m' := by
  cases h with
  | served _ _ => exact Moment.collect_subset_performed installOf m _ _ _ _
  | shrank _ _ _ => exact Moment.collect_subset_performed installOf m _ _ _ _
  | drifted _ => exact List.Subset.refl _

/-- Every step keeps the lineage. -/
theorem lineage (h : CoreStep d m m') (hl : Lineage d m ∧ Truthful m) :
    Lineage d m' ∧ Truthful m' := by
  cases h with
  | served ready hex => exact ⟨hl.1.performs hl.2 ready hex, hl.2.performs hl.1 hex⟩
  | shrank unseen shrinks hex =>
    exact ⟨hl.1.shrink (Moment.collect_performed_none _ _ _ unseen.install)
      (Moment.collect_performed_none _ _ _ unseen.rotation)
      (Moment.collect_performed_none _ _ _ unseen.draw)
      (Moment.collect_performed_none _ _ _ unseen.familyDraw) shrinks, hl.2.performs hl.1 hex⟩
  | drifted shrinks => exact ⟨hl.1.shrink rfl rfl rfl rfl shrinks, hl.2⟩

end CoreStep

/-- What an administrator's call does installs nothing. -/
theorem Op.unseen_of_removes {o : Op} {ans : Ans o}
    (h : o.Attends ∨ (∃ f, o = .revokeFamily f) ∨ ∃ u, o = .revokeAllUserSessions u) :
    Unseen o ans := by
  obtain ho | ⟨f, rfl⟩ | ⟨u, rfl⟩ := h
  · cases o <;> first | exact ⟨rfl, rfl, rfl, rfl⟩ | exact ho.elim
  · exact ⟨rfl, rfl, rfl, rfl⟩
  · exact ⟨rfl, rfl, rfl, rfl⟩

/-- What an administrator's call does. -/
theorem removes_of_ready {sessionIdForFamily : String → String} {request : AdminRequest}
    {past : AdminPast} {o : Op}
    (hready : AdminReady d sessionIdForFamily request past (.token (.port o)))
    (hrequest : ∀ request', request ≠ .token request') :
    o.Attends ∨ (∃ f, o = .revokeFamily f) ∨ ∃ u, o = .revokeAllUserSessions u := by
  cases request with
  | token request' => exact absurd rfl (hrequest request')
  | revokeUserSession operator userId sessionId =>
    cases o with
    | revokeFamily f => exact .inr (.inl ⟨f, rfl⟩)
    | _ => exact .inl hready
  | revokeUserSessions operator userId =>
    cases o with
    | revokeAllUserSessions u => exact .inr (.inr ⟨u, rfl⟩)
    | _ => exact .inl hready

/-- An operation that installs nothing only shrinks the store. -/
theorem shrinks_of_unseen {x : Choice} {c : ℕ} {o : Op} {ans : Ans o} {w w' : World}
    (hunseen : Unseen o ans) (hex : exec d x c o w = some (ans, w')) : w.Shrinks w' := by
  cases storeStep_of_exec hex with
  | drew raw fresh => exact nomatch hunseen.draw
  | drewFamily familyId valid fresh => exact nomatch hunseen.familyDraw
  | stored s => exact nomatch hunseen.install
  | rotated h r live retired here user family retires => exact nomatch hunseen.install
  | shrank unseen shrinks => exact shrinks

/-- Every operation of a compliant call is a step of the core. -/
theorem coreStep_of_ready {sessionIdForFamily : String → String} {m : AdminMoment}
    {request : AdminRequest} {c : ℕ} {x : Choice} {o : AdminOp} {ans : AdminAns o} {w : World}
    (hready : AdminReady d sessionIdForFamily request (m.past c) o)
    (hex : adminExec d x c o m.world = some (ans, w)) :
    CoreStep d m.core (AdminMoment.core (m.performed c o ans w)) := by
  have hread : ∀ {α : Type} {done : Answer α} {ans : Answer α},
      fallible m.world x (done, m.world) = some (ans, w) → w = m.world := by
    intro α done ans hex
    obtain hdone | ⟨-, hw⟩ := fallible_eq_some hex
    · exact (Prod.mk.inj hdone).2.symm
    · exact hw
  cases o with
  | listLiveSessions u t n =>
    obtain rfl := hread hex
    rw [adminCore_performed_list]
    exact .drifted (.refl _)
  | token o =>
    rw [adminCore_performed_token]
    cases o with
    | getSessionByRefreshToken h =>
      obtain rfl := hread hex
      rw [core_performed_get]
      exact .drifted (.refl _)
    | port o =>
      rw [core_performed_port]
      have hex : exec d x c o m.core.world = some (ans, w) := hex
      have hown : (∀ request', request ≠ .token request') →
          CoreStep d m.core (m.core.performed c o ans w) := fun hrequest =>
        have hunseen : Unseen o ans := Op.unseen_of_removes (removes_of_ready hready hrequest)
        .shrank hunseen (shrinks_of_unseen hunseen hex) hex
      cases request with
      | revokeUserSession operator userId sessionId => exact hown fun _ => nofun
      | revokeUserSessions operator userId => exact hown fun _ => nofun
      | token request =>
        have hready : TokenReady d request (m.tokens.past c) (.port o) := by
          rw [past_tokens]
          exact hready
        cases request with
        | revoke request =>
          have hunseen : Unseen o ans := unseen_of_revokeReady hready
          exact .shrank hunseen (shrinks_of_unseen hunseen hex) hex
        | served request =>
          have hready : Ready d request (corePast (m.tokens.past c)) o := hready
          rw [← past_core] at hready
          exact .served hready hex

end OidcExchange
