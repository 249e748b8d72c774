import OidcExchange.Analysis.Lineage
import OidcExchange.Program.Revoke

/-!
# Revocation beside the other calls

What the calls of the core have done is read off the operations they share with revocation; so
the lineage of session families holds of the larger service as well. A call that revokes a
presented refresh token has found the session before it removes it, and has removed it before
it records that.
-/

set_option autoImplicit false

namespace OidcExchange

open Storage Interleaving Service

/-! ## What the core sees -/

/-- What a call of the larger service has performed, newest first. -/
abbrev RevokePast : Type := List (Performed RevokeAns)

/-- An operation of the core, seen as one. -/
def corePerformed : Performed RevokeAns → Option (Performed Ans)
  | ⟨.port o, ans⟩ => some ⟨o, ans⟩
  | ⟨.getSessionByRefreshToken _, _⟩ => none

/-- The operations of the core in a past. -/
def corePast (past : RevokePast) : Past := past.filterMap corePerformed

/-- The core sees its operations and no others. -/
theorem mem_corePast {past : RevokePast} {o : Op} {ans : Ans o} :
    ⟨o, ans⟩ ∈ corePast past ↔ ⟨.port o, ans⟩ ∈ past := by
  unfold corePast
  rw [List.mem_filterMap]
  constructor
  · rintro ⟨⟨o' | h, ans'⟩, hmem, heq⟩
    · cases heq
      exact hmem
    · exact nomatch heq
  · intro hmem
    exact ⟨_, hmem, rfl⟩

/-- An operation of the core, seen as an event of the core. -/
def coreEvent : Event RevokeAns TokenRequest → Option (Event Ans Request)
  | .performed c (.port o) ans => some (.performed c o ans)
  | _ => none

/-- The world with the operations of the core. -/
def TokenMoment.core (m : TokenMoment) : ServiceMoment where
  world := m.world
  history := m.history.filterMap coreEvent

section Core

variable (m : TokenMoment) (c : ℕ) (w : World)

@[simp] theorem core_begin (i : TokenRequest) : TokenMoment.core (m.begin c i) = m.core := rfl

@[simp] theorem core_ended : TokenMoment.core (m.ended c) = m.core := rfl

@[simp] theorem core_drifted : TokenMoment.core (m.drifted w) = m.core.drifted w := rfl

@[simp] theorem core_performed_port (o : Op) (ans : Ans o) :
    TokenMoment.core (m.performed c (.port o) ans w) = m.core.performed c o ans w := rfl

@[simp] theorem core_performed_get (h : String) (ans : Answer (Option Session)) :
    TokenMoment.core (m.performed c (.getSessionByRefreshToken h) ans w) = m.core.drifted w := rfl

@[simp] theorem past_core : m.core.past c = corePast (m.past c) := by
  unfold TokenMoment.core Moment.past corePast
  rw [List.filterMap_filterMap, List.filterMap_filterMap]
  congr 1
  funext e
  cases e with
  | performed c' o ans =>
    cases o with
    | port o =>
      simp only [coreEvent, Event.performedBy, Option.bind_some]
      split <;> rfl
    | getSessionByRefreshToken h =>
      simp only [coreEvent, Event.performedBy, Option.bind_none]
      split <;> rfl
  | _ => rfl

end Core

/-! ## The discipline -/

section Discipline

variable (d : Deployment)

/-- The event records that a session was revoked. -/
def AuditEvent.RecordsRevocation (event : AuditEvent) : Prop :=
  event.eventType = SecurityEvent.sessionRevoked.eventType

instance (event : AuditEvent) : Decidable event.RecordsRevocation :=
  inferInstanceAs (Decidable (event.eventType = _))

/-- The call presents a refresh token. -/
def RevokeRequest.PresentsRefresh (request : RevokeRequest) : Prop :=
  request.tokenTypeHint ≠ some "access_token"

/-- The call has removed the session of the token it presents. -/
def Removed (request : RevokeRequest) (past : RevokePast) : Prop :=
  ⟨.port (.revokeSession (d.digest request.token)), .ok ()⟩ ∈ past

/-- What a revocation has done when it performs an operation of the core. -/
def RevokeReady (request : RevokeRequest) (past : RevokePast) : Op → Prop
  | .now => True
  | .revokeFamily _ => True
  | .revokeSession h => h = d.digest request.token ∧
      ∃ s, ⟨.getSessionByRefreshToken h, .ok (some s)⟩ ∈ past
  | .emit event => request.PresentsRefresh → event.RecordsRevocation → Removed d request past
  | _ => False

/-- What the past of a call contains when it performs an operation. -/
def TokenReady (request : TokenRequest) (past : RevokePast) (o : RevokeOp) : Prop :=
  match request, o with
  | .served request, .port o => Ready d request (corePast past) o
  | .served _, .getSessionByRefreshToken _ => False
  | .revoke request, .port o => RevokeReady d request past o
  | .revoke request, .getSessionByRefreshToken h => h = d.digest request.token

/-- What the past of a call contains when it ends. -/
def TokenOutcome (request : TokenRequest) (past : RevokePast)
    (result : Except (Fault Error) TokenReply) : Prop :=
  ∀ served response, request = .served served → result = response.map TokenReply.served →
    Outcome d served (corePast past) response

/-- A call of the core obeys as before. -/
theorem ported_obeys {ε α : Type} {ready : Past → Op → Prop} {post : Past → Except (Fault ε) α → Prop}
    {ready' : RevokePast → RevokeOp → Prop} {past : RevokePast} {p : Service ε α}
    (hp : p.Obeys ready post (corePast past))
    (hready : ∀ past o, ready (corePast past) o → ready' past (.port o)) :
    (ported p).Obeys ready' (fun past' r => post (corePast past') r) past := by
  refine (hp.interp (R := fun past past' => corePast past' = past) ?_ rfl).mono ?_
  · rintro o _ past' rfl ho
    exact ⟨hready past' o ho, fun ans => ⟨ans, rfl, rfl⟩⟩
  · rintro past' r ⟨_, rfl, hpost⟩
    exact hpost

/-- A call of the core that performs only some operations. -/
theorem ported_only {ε α : Type} {P : Op → Prop} {Q : RevokeOp → Prop} {p : Service ε α}
    (hp : p.Only P) (hQ : ∀ o, P o → Q (.port o)) : (ported p).Only Q :=
  hp.interp fun o ho => ⟨hQ o ho, fun _ => trivial⟩

/-- An assertion of the core. -/
theorem obeys_ported_assert {ε α : Type} {ready : RevokePast → RevokeOp → Prop}
    {post : RevokePast → Except (Fault ε) α → Prop} {past : RevokePast} {b : Bool}
    {f : Unit → RevokeService ε α} (htrue : b = true → (f ()).Obeys ready post past)
    (hfalse : b = false → post past (.error .panic)) :
    (ported (Service.assert b) >>= f).Obeys ready post past := by
  cases b with
  | true => exact htrue rfl
  | false => exact hfalse rfl

/-- The operation is one that revoking by an access token performs. -/
def RevokeOp.ByAccess : RevokeOp → Prop
  | .port .now => True
  | .port (.revokeFamily _) => True
  | .port (.emit _) => True
  | _ => False

/-- The operation records a rejected credential. -/
def RevokeOp.Rejects : RevokeOp → Prop
  | .port (.emit event) => event.eventType = SecurityEvent.authenticationFailed.eventType
  | _ => False

variable {Bytes : Type} (W : Wire Bytes) (K : KeyManager Bytes) {past : RevokePast}

theorem emitRevokeRejection_only (request : RevokeRequest) :
    (ported (emitRevokeRejection d request)).Only RevokeOp.Rejects :=
  ported_only (P := fun o => RevokeOp.Rejects (.port o))
    (emitMandatoryAuditEvent_only_of d rfl) fun _ h => h

theorem revokeAccessToken_only (request : RevokeRequest) :
    (ported (revokeAccessToken W K d request)).Only RevokeOp.ByAccess := by
  have hreject := (@emitMandatoryAuditEvent_only_of d (fun o => RevokeOp.ByAccess (.port o))
    (SecurityEvent.authenticationFailed.intoAuditEvent (.failure .authenticationFailed)
      none none request.clientAddr request.userAgent) trivial)
  refine ported_only (P := fun o => RevokeOp.ByAccess (.port o)) ⟨trivial, fun now => ?_⟩
    fun _ h => h
  dsimp only [Program.bind]
  split
  · trivial
  · exact hreject
  · refine (assert_only _).bind fun _ => ?_
    split
    · exact hreject
    · refine (assert_only _).bind fun _ => ⟨trivial, ?_⟩
      rintro (e | count)
      · trivial
      · exact emitMandatoryAuditEvent_only_of d trivial

/-- The session that was found is removed before that is recorded. -/
theorem revokeFound_obeys (request : RevokeRequest) (session : Session)
    (hfound : ⟨.getSessionByRefreshToken (d.digest request.token), .ok (some session)⟩ ∈ past) :
    (ported (revokeFound d request (d.digest request.token) session)).Obeys
      (TokenReady d (.revoke request)) (fun _ _ => True) past := by
  unfold revokeFound
  rw [ported, Program.interp_bind]
  refine obeys_ported_assert (fun _ => ?_) (fun _ => trivial)
  rw [Program.interp_bind]
  refine obeys_ported_assert (fun _ => ?_) (fun _ => trivial)
  refine ⟨⟨rfl, session, hfound⟩, ?_⟩
  rintro (e | ⟨⟩)
  · trivial
  · -- the session is gone, and stays so in the past
    have honly : (ported (emitSecurityEvent d .sessionRevoked .success (some session.userId) none
        request.clientAddr request.userAgent)).Only RevokeOp.ByAccess :=
      ported_only (P := fun o => ∃ event, o = .emit event)
        (emitMandatoryAuditEvent_only_of d ⟨_, rfl⟩) (by rintro _ ⟨event, rfl⟩; trivial)
    refine (honly.obeys_while (I := Removed d request)
      (fun _ _ => List.mem_cons_of_mem _) ?_ List.mem_cons_self).mono fun _ _ _ => trivial
    rintro past' (o | h) hremoved ho
    · cases o with
      | emit event => exact fun _ _ => hremoved
      | now => trivial
      | revokeFamily f => trivial
      | _ => exact ho.elim
    · exact ho.elim

/-- A revocation by a refresh token complies. -/
theorem revokeRefreshToken_obeys (request : RevokeRequest) :
    (revokeRefreshToken d request).Obeys (TokenReady d (.revoke request)) (fun _ _ => True) [] := by
  have hreject : ∀ past, (ported (emitRevokeRejection d request)).Obeys
      (TokenReady d (.revoke request)) (fun _ _ => True) past := by
    intro past
    refine ((emitRevokeRejection_only d request).obeys ?_).mono fun _ _ _ => trivial
    rintro past' (o | h) ho
    · cases o with
      | emit event =>
        intro _ hrecords
        exact nomatch (show AuditEventType.tokenRevocation = .validationFailed from
          hrecords.symm.trans ho)
      | _ => exact ho.elim
    · exact ho.elim
  refine obeys_ported_assert (fun _ => ?_) (fun _ => trivial)
  refine ⟨rfl, ?_⟩
  rintro (e | (_ | session))
  · trivial
  · exact hreject _
  · exact revokeFound_obeys d request session List.mem_cons_self

/-- Every revocation complies. -/
theorem revoke_obeys (request : RevokeRequest) :
    (revoke W K d request).Obeys (TokenReady d (.revoke request)) (fun _ _ => True) [] := by
  refine obeys_ported_assert (fun _ => ?_) (fun _ => trivial)
  split
  · rename_i hhint
    refine ((revokeAccessToken_only d W K request).obeys ?_).mono fun _ _ _ => trivial
    rintro past (o | h) ho
    · cases o with
      | emit event => exact fun hrefresh => absurd hhint hrefresh
      | now => trivial
      | revokeFamily f => trivial
      | _ => exact ho.elim
    · exact ho.elim
  · exact revokeRefreshToken_obeys d request

/-- Every request complies. -/
theorem answerToken_obeys (request : TokenRequest) :
    (answerToken W K d request).Obeys (TokenReady d request) (TokenOutcome d request) [] := by
  cases request with
  | served request =>
    refine (@ported_obeys _ _ _ _ (TokenReady d (.served request)) [] _ (serve_obeys d request)
      fun _ _ h => h).bind ?_ ?_
    · rintro past response houtcome _ (fault | response') ⟨⟩ heq
      · exact nomatch heq
      · cases heq
        exact houtcome
    · rintro past fault houtcome _ (fault' | response') ⟨⟩ heq
      · cases heq
        exact houtcome
      · exact nomatch heq
  | revoke request =>
    have hother : ∀ past r, TokenOutcome d (.revoke request) past r :=
      fun _ _ _ _ h => nomatch h
    exact (revoke_obeys d W K request).bind (fun _ _ _ => hother _ _) (fun _ _ _ => hother _ _)

end Discipline

/-! ## The lineage of the larger service -/

section Lineages

variable {d : Deployment} {m : TokenMoment} {x : Choice} {c : ℕ} {w : World}

/-- A revocation installs nothing and draws nothing. -/
theorem unseen_of_revokeReady {request : RevokeRequest} {past : RevokePast} {o : Op} {ans : Ans o}
    (hready : RevokeReady d request past o) : Unseen o ans := by
  cases o with
  | now => exact ⟨rfl, rfl, rfl, rfl⟩
  | revokeFamily f => exact ⟨rfl, rfl, rfl, rfl⟩
  | revokeSession h => exact ⟨rfl, rfl, rfl, rfl⟩
  | emit event => exact ⟨rfl, rfl, rfl, rfl⟩
  | _ => exact hready.elim

/-- What a revocation does only shrinks the session store. -/
theorem shrinks_of_revokeReady {request : RevokeRequest} {past : RevokePast} {o : Op} {ans : Ans o}
    {w' : World} (hready : RevokeReady d request past o) (hex : exec d x c o w = some (ans, w')) :
    w.Shrinks w' := by
  cases storeStep_of_exec hex with
  | drew raw fresh => exact hready.elim
  | drewFamily familyId valid fresh => exact hready.elim
  | stored s => exact hready.elim
  | rotated h r live retired here user family retires => exact hready.elim
  | shrank unseen shrinks => exact shrinks

/-- The lineage with the classifications. -/
def TokenLineage (d : Deployment) (m : TokenMoment) : Prop := Lineage d m.core ∧ Truthful m.core

theorem TokenLineage.performs {request : TokenRequest} {o : RevokeOp} {ans : RevokeAns o}
    (h : TokenLineage d m) (hready : TokenReady d request (m.past c) o)
    (hex : revokeExec d x c o m.world = some (ans, w)) :
    TokenLineage d (m.performed c o ans w) := by
  cases o with
  | getSessionByRefreshToken hash =>
    have hsame : w = m.world := by
      obtain hdone | ⟨-, hw⟩ := fallible_eq_some hex
      · exact (Prod.mk.inj hdone).2.symm
      · exact hw
    subst hsame
    exact h
  | port o =>
    have hex : exec d x c o m.core.world = some (ans, w) := hex
    refine ⟨?_, h.2.performs h.1 hex⟩
    cases request with
    | served request =>
      have hready : Ready d request (m.core.past c) o := by rw [past_core]; exact hready
      exact h.1.performs h.2 hready hex
    | revoke request =>
      have hunseen : Unseen o ans := unseen_of_revokeReady hready
      show Lineage d (m.core.performed c o ans w)
      exact h.1.shrink (Moment.collect_performed_none _ _ _ hunseen.install)
        (Moment.collect_performed_none _ _ _ hunseen.rotation)
        (Moment.collect_performed_none _ _ _ hunseen.draw)
        (Moment.collect_performed_none _ _ _ hunseen.familyDraw) (shrinks_of_revokeReady hready hex)

theorem TokenLineage.drifts {k : Drift} (h : TokenLineage d m) (hdrift : drift k m.world = some w) :
    TokenLineage d (m.drifted w) :=
  ⟨h.1.shrink rfl rfl rfl rfl (shrinks_of_drift hdrift).1, h.2⟩

end Lineages

end OidcExchange
