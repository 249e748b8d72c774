import OidcExchange.Interleaving.Discipline

/-!
# Programs over other operations

A handler answers every operation of one kind by a program over operations of another kind,
and so turns calls over the one into calls over the other. Interpretation follows the structure
of the call: it goes through sequencing, descriptions of failures and failures handed on.
-/

set_option autoImplicit false

namespace Interleaving

/-- A program for every operation; it answers, it does not fail. -/
abbrev Handler {Op Op' : Type} (Ans : Op → Type) (Ans' : Op' → Type) : Type :=
  (o : Op) → Program Ans' Empty (Ans o)

namespace Program

variable {Op Op' : Type} {Ans : Op → Type} {Ans' : Op' → Type} {ε δ α β γ : Type}

theorem bind_assoc (p : Program Ans ε α) (f : α → Program Ans ε β) (g : β → Program Ans ε γ) :
    p >>= f >>= g = p >>= fun a => f a >>= g := by
  induction p with
  | done a => rfl
  | raise e => rfl
  | perform o next ih => exact congrArg (perform o) (funext ih)

/-- A program that does not fail, in a place where others do. -/
def infallible (p : Program Ans Empty α) : Program Ans ε α := p.mapError Empty.elim

/-- The call with every operation answered by its program. -/
def interp (h : Handler Ans Ans') : Program Ans ε α → Program Ans' ε α
  | .done a => .done a
  | .raise e => .raise e
  | .perform o next => (h o).infallible >>= fun ans => interp h (next ans)

variable {h : Handler Ans Ans'}

@[simp] theorem interp_done (a : α) : interp h (.done a : Program Ans ε α) = .done a := rfl

@[simp] theorem interp_raise (e : ε) : interp h (.raise e : Program Ans ε α) = .raise e := rfl

@[simp] theorem interp_perform (o : Op) (next : Ans o → Program Ans ε α) :
    interp h (.perform o next) = (h o).infallible >>= fun ans => interp h (next ans) := rfl

@[simp] theorem interp_ofExcept (r : Except ε α) :
    interp h (ofExcept r : Program Ans ε α) = ofExcept r := by
  cases r <;> rfl

theorem interp_bind (p : Program Ans ε α) (f : α → Program Ans ε β) :
    interp h (p >>= f) = interp h p >>= fun a => interp h (f a) := by
  induction p with
  | done a => rfl
  | raise e => rfl
  | perform o next ih =>
    rw [perform_bind, interp_perform, interp_perform, bind_assoc]
    exact congrArg _ (funext ih)

theorem mapError_bind (f : ε → δ) (p : Program Ans ε α) (g : α → Program Ans ε β) :
    (p >>= g).mapError f = p.mapError f >>= fun a => (g a).mapError f := by
  induction p with
  | done a => rfl
  | raise e => rfl
  | perform o next ih => exact congrArg (perform o) (funext ih)

theorem mapError_infallible (f : ε → δ) (p : Program Ans Empty α) :
    (p.infallible : Program Ans ε α).mapError f = p.infallible := by
  induction p with
  | done a => rfl
  | raise e => exact e.elim
  | perform o next ih => exact congrArg (perform o) (funext ih)

theorem attempt_bind_infallible (p : Program Ans Empty α) (g : α → Program Ans ε β) :
    ((p.infallible >>= g).attempt : Program Ans δ (Except ε β)) =
      p.infallible >>= fun a => (g a).attempt := by
  induction p with
  | done a => rfl
  | raise e => exact e.elim
  | perform o next ih => exact congrArg (perform o) (funext ih)

theorem interp_mapError (f : ε → δ) (p : Program Ans ε α) :
    interp h (p.mapError f) = (interp h p).mapError f := by
  induction p with
  | done a => rfl
  | raise e => rfl
  | perform o next ih =>
    rw [mapError, interp_perform, interp_perform, mapError_bind, mapError_infallible]
    exact congrArg _ (funext ih)

theorem interp_attempt (p : Program Ans ε α) :
    interp h ((p.attempt : Program Ans δ (Except ε α))) = (interp h p).attempt := by
  induction p with
  | done a => rfl
  | raise e => rfl
  | perform o next ih =>
    rw [attempt, interp_perform, interp_perform, attempt_bind_infallible]
    exact congrArg _ (funext ih)

/-- What a program that does not fail computes from answers. -/
def value (answer : (o : Op) → Ans o) (p : Program Ans Empty α) : α :=
  match p.run answer with
  | .ok a => a
  | .error e => e.elim

theorem value_attempt_bind (answer : (o : Op) → Ans o) (p : Program Ans ε α)
    (f : Except ε α → β) :
    ((p.attempt : Program Ans Empty (Except ε α)) >>= fun r => .done (f r)).value answer =
      f (p.run answer) := by
  induction p with
  | done a => rfl
  | raise e => rfl
  | perform o next ih => exact ih (answer o)

/-- A run that goes on from a failure as from a value. -/
theorem run_attempt_bind (answer : (o : Op) → Ans o) (p : Program Ans ε α)
    (f : Except ε α → Program Ans δ β) :
    (p.attempt >>= f).run answer = (f (p.run answer)).run answer := by
  induction p with
  | done a => rfl
  | raise e => rfl
  | perform o next ih => exact ih (answer o)

theorem run_mapError (answer : (o : Op) → Ans o) (p : Program Ans ε α) (f : ε → δ) :
    (p.mapError f).run answer = (p.run answer).mapError f := by
  induction p with
  | done a => rfl
  | raise e => rfl
  | perform o next ih => exact ih (answer o)

theorem run_infallible (answer : (o : Op) → Ans o) (p : Program Ans Empty α) :
    (p.infallible : Program Ans ε α).run answer = .ok (p.value answer) := by
  induction p with
  | done a => rfl
  | raise e => exact e.elim
  | perform o next ih => exact ih (answer o)

/-- A run of an interpreted call is a run with the answers that the handler computes. -/
theorem run_interp (answer : (o : Op') → Ans' o) (p : Program Ans ε α) :
    (interp h p).run answer = p.run fun o => (h o).value answer := by
  induction p with
  | done a => rfl
  | raise e => rfl
  | perform o next ih =>
    rw [interp_perform, run_bind, run_infallible]
    exact ih _

/-- What only some operations are asked for is answered by only some operations. -/
theorem Only.interp {P : Op → Prop} {Q : Op' → Prop} {p : Program Ans ε α} (hp : p.Only P)
    (hh : ∀ o, P o → (h o).Only Q) : (interp h p).Only Q := by
  induction p with
  | done a => trivial
  | raise e => trivial
  | perform o next ih => exact (hh o hp.1).mapError.bind fun ans => ih ans (hp.2 ans)

/-- The rule for interpretation: when every operation that is admitted is answered by a program
that obeys and relates the pasts again, the interpreted call obeys. -/
theorem Obeys.interp {ready : List (Performed Ans) → Op → Prop}
    {post : List (Performed Ans) → Except ε α → Prop}
    {ready' : List (Performed Ans') → Op' → Prop}
    {R : List (Performed Ans) → List (Performed Ans') → Prop}
    (hh : ∀ o past past', R past past' → ready past o →
      ((h o).infallible : Program Ans' ε (Ans o)).Obeys ready'
        (fun past'' r => ∃ ans, r = .ok ans ∧ R (⟨o, ans⟩ :: past) past'') past')
    {p : Program Ans ε α} {past : List (Performed Ans)} {past' : List (Performed Ans')}
    (hp : p.Obeys ready post past) (hR : R past past') :
    (interp h p).Obeys ready' (fun past' r => ∃ past, R past past' ∧ post past r) past' := by
  induction p generalizing past past' with
  | done a => exact ⟨past, hR, hp⟩
  | raise e => exact ⟨past, hR, hp⟩
  | perform o next ih =>
    refine (hh o past past' hR hp.1).bind ?_ ?_
    · rintro past'' a ⟨ans, hans, hR'⟩
      obtain rfl := Except.ok.inj hans
      exact ih a (hp.2 a) hR'
    · rintro past'' e ⟨ans, hans, -⟩
      exact absurd hans (by simp)

end Program

/-! ## A part of the operations

A view shows some of the operations of larger calls as operations of another kind. Through it a
moment of the larger calls is one of the smaller, which has the operations that are shown and no
other events, so that what holds of the smaller calls can be said of the larger.
-/

section

variable {Op Op' : Type} {Ans : Op → Type} {Ans' : Op' → Type} {ι ι' W : Type}

/-- An operation that is shown, as an event of the other kind. -/
def Event.through (ι : Type) (view : Performed Ans' → Option (Performed Ans)) :
    Event Ans' ι' → Option (Event Ans ι)
  | .performed c o ans => (view ⟨o, ans⟩).map fun e => .performed c e.1 e.2
  | _ => none

namespace Moment

variable (ι) (view : Performed Ans' → Option (Performed Ans)) (m : Moment Ans' ι' W)

/-- The world with the operations that are shown. -/
def through : Moment Ans ι W where
  world := m.world
  history := m.history.filterMap (Event.through ι view)

@[simp] theorem through_world : (m.through ι view).world = m.world := rfl

@[simp] theorem through_begin (c : ℕ) (i : ι') :
    (m.begin c i).through ι view = m.through ι view := rfl

@[simp] theorem through_ended (c : ℕ) : (m.ended c).through ι view = m.through ι view := rfl

@[simp] theorem through_drifted (w : W) :
    (m.drifted w).through ι view = (m.through ι view).drifted w := rfl

variable {ι view m}

/-- An operation that is shown. -/
theorem through_performed_some {c : ℕ} {o' : Op'} {ans' : Ans' o'} {o : Op} {ans : Ans o} (w : W)
    (h : view ⟨o', ans'⟩ = some ⟨o, ans⟩) :
    (m.performed c o' ans' w).through ι view = (m.through ι view).performed c o ans w := by
  simp [through, performed, Event.through, h]

/-- An operation that is not shown. -/
theorem through_performed_none {c : ℕ} {o' : Op'} {ans' : Ans' o'} (w : W)
    (h : view ⟨o', ans'⟩ = none) :
    (m.performed c o' ans' w).through ι view = (m.through ι view).drifted w := by
  simp [through, performed, drifted, Event.through, h]

/-- What a call has done, as far as it is shown. -/
theorem past_through (c : ℕ) : (m.through ι view).past c = (m.past c).filterMap view := by
  unfold through past
  rw [List.filterMap_filterMap, List.filterMap_filterMap]
  congr 1
  funext e
  cases e with
  | performed c' o ans =>
    simp only [Event.through, Event.performedBy]
    by_cases hc : c' = c
    · subst hc
      cases hview : view ⟨o, ans⟩ <;> simp [Event.performedBy, hview]
    · cases hview : view ⟨o, ans⟩ <;> simp [Event.performedBy, hc]
  | _ => rfl

/-- What the smaller calls have done, the larger have done. -/
theorem mem_history_through {c : ℕ} {o : Op} {ans : Ans o} :
    .performed c o ans ∈ (m.through ι view).history ↔
      ∃ o' ans', .performed c o' ans' ∈ m.history ∧ view ⟨o', ans'⟩ = some ⟨o, ans⟩ := by
  rw [through, List.mem_filterMap]
  constructor
  · rintro ⟨e, hmem, he⟩
    cases e with
    | performed c' o' ans' =>
      obtain ⟨⟨o₁, ans₁⟩, hview, heq⟩ := Option.map_eq_some_iff.mp he
      cases heq
      exact ⟨o', ans', hmem, hview⟩
    | _ => exact nomatch he
  · rintro ⟨o', ans', hmem, hview⟩
    exact ⟨_, hmem, by simp [Event.through, hview]⟩

end Moment

end

end Interleaving
