import OidcExchange.Analysis.Accounts
import OidcExchange.Analysis.ExchangeRecords

/-!
# What a failed exchange leaves behind

An exchange stores its session before it signs the access token, and takes it back only when
the last record could not be written. So a call that fails leaves the live sessions as they
were exactly when nothing between the store and the response fails.
-/

set_option autoImplicit false

namespace OidcExchange

open Storage Interleaving Service Past
open Program (Since)

variable (d : Deployment) {past past' : Past} {request : ExchangeRequest} {s : Session}

/-! ## The sessions after a past -/

/-- The call has stored the session. -/
def Stored (past : Past) (s : Session) : Prop := ⟨.storeRefreshToken s, .ok ()⟩ ∈ past

/-- What an operation that was answered does to the live sessions. -/
def sessionEffect : Performed Ans → Table String Session → Table String Session
  | ⟨.storeRefreshToken s, .ok ()⟩, sessions => sessions.insert s.refreshTokenHash s
  | ⟨.revokeSession h, .ok ()⟩, sessions => sessions.erase h
  | _, sessions => sessions

/-- The live sessions after what an exchange has performed. -/
def sessionsAfter (base : Table String Session) : Past → Table String Session
  | [] => base
  | e :: past => sessionEffect e (sessionsAfter base past)

/-- The call has stored no session and taken none away. -/
structure NothingStored (past : Past) : Prop where
  stored : ∀ s, ¬ Stored past s
  sessions : ∀ base, sessionsAfter base past = base

/-- The call has stored the session and nothing else. -/
structure Persisted (past : Past) (s : Session) : Prop where
  stored : ∀ t, Stored past t ↔ t = s
  sessions : ∀ base, sessionsAfter base past = base.insert s.refreshTokenHash s

theorem sessionEffect_of_quiet {e : Performed Ans} (he : e.1.Quiet)
    (sessions : Table String Session) : sessionEffect e sessions = sessions := by
  obtain ⟨o, ans⟩ := e
  cases o <;> first | rfl | exact he.elim

theorem stored_cons_of_quiet {e : Performed Ans} (he : e.1.Quiet) :
    Stored (e :: past) s ↔ Stored past s := by
  unfold Stored
  rw [List.mem_cons, or_iff_right]
  rintro rfl
  exact he

theorem NothingStored.cons {e : Performed Ans} (h : NothingStored past) (he : e.1.Quiet) :
    NothingStored (e :: past) where
  stored s := (stored_cons_of_quiet he).not.mpr (h.stored s)
  sessions base := (sessionEffect_of_quiet he _).trans (h.sessions base)

theorem Persisted.cons {e : Performed Ans} (h : Persisted past s) (he : e.1.Quiet) :
    Persisted (e :: past) s where
  stored t := (stored_cons_of_quiet he).trans (h.stored t)
  sessions base := (sessionEffect_of_quiet he _).trans (h.sessions base)

theorem NothingStored.since (h : NothingStored past) (hsince : Since Op.Quiet past past') :
    NothingStored past' := by
  obtain ⟨more, rfl, hall⟩ := hsince
  induction more with
  | nil => exact h
  | cons e more ih =>
    exact (ih fun x hx => hall x (List.mem_cons_of_mem _ hx)).cons (hall e List.mem_cons_self)

theorem Persisted.since (h : Persisted past s) (hsince : Since Op.Quiet past past') :
    Persisted past' s := by
  obtain ⟨more, rfl, hall⟩ := hsince
  induction more with
  | nil => exact h
  | cons e more ih =>
    exact (ih fun x hx => hall x (List.mem_cons_of_mem _ hx)).cons (hall e List.mem_cons_self)

/-- A session that the store refused. -/
theorem NothingStored.refused (h : NothingStored past) (s : Session) (fault : Fault Error) :
    NothingStored (⟨.storeRefreshToken s, .error fault⟩ :: past) where
  stored t hstored := by
    obtain heq | hstored := List.mem_cons.mp hstored
    · cases heq
    · exact h.stored t hstored
  sessions := h.sessions

/-! ## Before the session is stored -/

/-- The operation may come before a session is stored. -/
def Op.Prepares : Op → Prop
  | .sign _ _ _ _ => False
  | o => o.Quiet

/-- The operation hands the audit sink an event. -/
def Op.Reports : Op → Prop
  | .emit _ => True
  | _ => False

theorem Op.Prepares.quiet {o : Op} (h : o.Prepares) : o.Quiet := by
  cases o <;> first | exact h | exact h.elim

theorem Op.Reports.quiet {o : Op} (h : o.Reports) : o.Quiet := by
  cases o <;> trivial

/-- The ports answered as the real ones do: the audit sink does not panic, and a user has an
identifier. -/
structure WellAnswered (past : Past) : Prop where
  emitted : ∀ event, ⟨.emit event, .error .panic⟩ ∉ past
  named : ∀ user, Admitted past user → user.id ≠ ""

theorem WellAnswered.of_suffix (h : WellAnswered past') (hsuffix : past <:+ past') :
    WellAnswered past where
  emitted event hmem := h.emitted event (hsuffix.mem hmem)
  named user hadmitted := by
    obtain ⟨more, rfl⟩ := hsuffix
    refine h.named user ?_
    obtain ⟨externalId, provider, hmem, hactive⟩ | ⟨newUser, hmem⟩ := hadmitted
    · exact Or.inl ⟨externalId, provider, List.mem_append_right _ hmem, hactive⟩
    · exact Or.inr ⟨newUser, List.mem_append_right _ hmem⟩

section Alone

variable {d} {clock : Instant} {p q : ServicePool} {as : List ServiceAct} {c : ℕ}

/-- An operation that writes no sessions leaves them. -/
theorem sessions_of_quiet {x : Choice} {w w' : World} {o : Op} {ans : Ans o} (hquiet : o.Quiet)
    (hex : exec d x c o w = some (ans, w')) : w'.sessions = w.sessions := by
  have hfallible : ∀ {α : Type} {done : Answer α × World} {ans : Answer α},
      fallible w x done = some (ans, w') → done.2.sessions = w.sessions →
        w'.sessions = w.sessions := by
    intro α done ans hf hsame
    obtain rfl | ⟨-, rfl⟩ := fallible_eq_some hf
    · exact hsame
    · rfl
  cases o with
  | now => exact (Prod.mk.inj (Option.some.inj hex)).2 ▸ rfl
  | randomToken
  | newFamilyId =>
    cases x with
    | draw text =>
      simp only [exec] at hex
      split at hex
      · cases hex
      · obtain ⟨-, rfl⟩ := Prod.mk.inj (Option.some.inj hex)
        rfl
    | _ => cases hex
  | createUser new =>
    cases x with
    | draw id =>
      change w.createUser id new = some (ans, w') at hex
      unfold World.createUser at hex
      split at hex
      · cases hex
      split at hex
      · exact (Prod.mk.inj (Option.some.inj hex)).2 ▸ rfl
      · exact (Prod.mk.inj (Option.some.inj hex)).2 ▸ rfl
    | fail e => exact (Prod.mk.inj (Option.some.inj hex)).2 ▸ rfl
    | _ => cases hex
  | resolveRefreshToken _
  | getUserById _
  | getUserByExternalId _ _
  | emit _
  | notify _ => exact hfallible hex rfl
  | sign _ _ _ _
  | checkAndConsume _
  | exchangeCode _ _ _
  | validateIdToken _ _
  | bindAssertion _ _ =>
    cases x <;>
      first
      | exact (Prod.mk.inj (Option.some.inj hex)).2 ▸ rfl
      | cases hex
  | _ => exact hquiet.elim

/-- An exchange changes the sessions as its past says. -/
theorem sessions_of_exchange {x : Choice} {w w' : World} {o : Op} {ans : Ans o}
    {request : ExchangeRequest} {past : Past} (hready : Ready d (.exchange request) past o)
    (hex : exec d x c o w = some (ans, w')) : w'.sessions = sessionEffect ⟨o, ans⟩ w.sessions := by
  cases o with
  | storeRefreshToken s =>
    obtain hdone | ⟨⟨e, rfl⟩, rfl⟩ := fallible_eq_some hex
    · unfold World.storeRefreshToken at hdone
      split at hdone
      · obtain ⟨rfl, rfl⟩ := Prod.mk.inj hdone
        rfl
      · obtain ⟨rfl, rfl⟩ := Prod.mk.inj hdone
        rfl
    · rfl
  | revokeSession h =>
    obtain fault | ⟨⟩ := ans
    · obtain hdone | ⟨-, rfl⟩ := fallible_eq_some hex
      · unfold World.revokeSession at hdone
        split at hdone
        · obtain ⟨-, rfl⟩ := Prod.mk.inj hdone
          rfl
        · exact nomatch congrArg Prod.fst hdone
      · rfl
    · exact revokeSession_erases hex
  | rotateRefreshToken _ _ => exact nomatch hready.choose_spec.1
  | revokeFamily _ => exact nomatch hready.choose_spec.1
  | revokeAllUserSessions _ => exact nomatch hready.choose_spec.1
  | writeUser _ _ _ => exact nomatch hready.choose_spec.1
  | _ =>
    refine sessions_of_quiet ?_ hex
    trivial

/-- Call `c` is the only one that moves; time passes. -/
def OnlyCall (c : ℕ) (_ : ServicePool) : ServiceAct → Prop
  | .begin c' _ => c' = c
  | .advance c' _ => c' = c
  | .drift (.tick _) => True
  | .drift _ => False

/-- The sessions are those call `c` found, with what it has done to them since, if it is an
exchange. -/
structure LoneKept (d : Deployment) (p : ServicePool) (c : ℕ) (q : ServicePool) : Prop where
  compliant : Compliant d q
  waiting : q.calls c = none → q.world.sessions = p.world.sessions
  acting : ∀ request rest, q.calls c = some ⟨.exchange request, rest⟩ →
    q.world.sessions = sessionsAfter p.world.sessions (q.toMoment.past c)

theorem LoneKept.step {q' : ServicePool} {a : ServiceAct} (h : LoneKept d p c q)
    (honly : OnlyCall c q a) (hstep : (service d).step q a = some q') : LoneKept d p c q' := by
  have hcompliant := h.compliant.step (serve_obeys d) hstep
  obtain ⟨c', i, rfl, hnone, hm, hcalls⟩ | ⟨c', x, i, o, next, ans, w, rfl, hc, hex, hm, hcalls⟩ |
    ⟨k, w, rfl, hdrift, hm, hcalls⟩ := Pool.step_cases hstep
  · obtain rfl : c' = c := honly
    refine ⟨hcompliant, fun hnone' => ?_, fun request rest _ => ?_⟩
    · rw [hcalls, Function.update_self] at hnone'
      exact nomatch hnone'
    · have hpast : q'.toMoment.past c' = [] := by
        rw [hm, Disciplined.settle_past, Moment.past_begin]
        exact (h.compliant.unseen c' hnone).past
      rw [hpast, hm, Disciplined.settle_world]
      exact h.waiting hnone
  · obtain rfl : c' = c := honly
    refine ⟨hcompliant, fun hnone' => ?_, fun request rest hcall => ?_⟩
    · rw [hcalls, Function.update_self] at hnone'
      exact nomatch hnone'
    · rw [hcalls, Function.update_self] at hcall
      cases hcall
      have hready := h.compliant.ready_next hc
      have hpast : q'.toMoment.past c' = ⟨o, ans⟩ :: q.toMoment.past c' := by
        rw [hm, Disciplined.settle_past, Moment.past_performed_self]
      rw [hpast, hm, Disciplined.settle_world]
      refine (sessions_of_exchange (c := c') hready hex).trans ?_
      rw [h.acting request _ hc]
      rfl
  · cases k with
    | tick nanos =>
      obtain rfl := Option.some.inj hdrift
      refine ⟨hcompliant, ?_, ?_⟩
      · rw [hcalls, hm]
        exact h.waiting
      · rw [hcalls, hm]
        exact h.acting
    | _ => exact honly.elim

end Alone

namespace Sample

/-- A sign-in whose last record the sink refuses. -/
def unrecorded : List ServiceAct :=
  call 0 (.exchange login) (registerChoices ++ storeChoices "a" theFamily ++
    [.proceed, .draw "signature", .fail (.auditError "unavailable"), .proceed])

end Sample

end OidcExchange
