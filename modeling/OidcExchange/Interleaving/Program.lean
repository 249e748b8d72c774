import OidcExchange.Interleaving.Run
import Mathlib.Data.Nat.Notation
import Mathlib.Logic.Function.Basic

/-!
# Interleaved calls over atomic operations

A call is a tree: it is finished with a value, it has failed, or it is about to
perform one atomic operation and continues with the answer. A pool holds a world
and any number of calls; the scheduler begins a call, lets one call perform its
next operation, or lets the world drift on its own. What the environment decides
(a failure, a random value) is the choice that comes with the action, so the pool
is an executable `System`. The pool keeps the history of what was begun,
performed and ended, newest first.
-/

set_option autoImplicit false

namespace Interleaving

/-- A call: `Ans o` is the type of the answers to the operation `o`. -/
inductive Program {Op : Type} (Ans : Op → Type) (ε α : Type) : Type
  | done (a : α) : Program Ans ε α
  | raise (e : ε) : Program Ans ε α
  | perform (o : Op) (next : Ans o → Program Ans ε α) : Program Ans ε α

namespace Program

variable {Op : Type} {Ans : Op → Type} {ε α β : Type}

/-- Sequencing: a failure skips what follows. -/
def bind : Program Ans ε α → (α → Program Ans ε β) → Program Ans ε β
  | .done a, f => f a
  | .raise e, _ => .raise e
  | .perform o next, f => .perform o fun ans => bind (next ans) f

instance : Monad (Program Ans ε) where
  pure := .done
  bind := bind

/-- Perform one operation and return its answer. -/
def ask (o : Op) : Program Ans ε (Ans o) := .perform o .done

/-- Continue with a value or fail. -/
def ofExcept : Except ε α → Program Ans ε α
  | .ok a => .done a
  | .error e => .raise e

/-- Run a call and hand its failure to the caller as a value. -/
def attempt {δ : Type} : Program Ans ε α → Program Ans δ (Except ε α)
  | .done a => .done (.ok a)
  | .raise e => .done (.error e)
  | .perform o next => .perform o fun ans => attempt (next ans)

/-- Fail with another description of the failure. -/
def mapError {δ : Type} (f : ε → δ) : Program Ans ε α → Program Ans δ α
  | .done a => .done a
  | .raise e => .raise (f e)
  | .perform o next => .perform o fun ans => mapError f (next ans)

/-- The result of a call whose operations are answered by a function. -/
def run (answer : (o : Op) → Ans o) : Program Ans ε α → Except ε α
  | .done a => .ok a
  | .raise e => .error e
  | .perform o next => run answer (next (answer o))

/-- Whether nothing is left to do. -/
def finished : Program Ans ε α → Bool
  | .done _ => true
  | .raise _ => true
  | .perform _ _ => false

@[simp] theorem map_eq_bind (f : α → β) (p : Program Ans ε α) :
    f <$> p = p >>= fun a => .done (f a) := rfl

@[simp] theorem pure_eq_done (a : α) : (pure a : Program Ans ε α) = .done a := rfl

@[simp] theorem done_bind (a : α) (f : α → Program Ans ε β) :
    (Program.done a : Program Ans ε α) >>= f = f a := rfl

@[simp] theorem raise_bind (e : ε) (f : α → Program Ans ε β) :
    (Program.raise e : Program Ans ε α) >>= f = .raise e := rfl

@[simp] theorem perform_bind (o : Op) (next : Ans o → Program Ans ε α)
    (f : α → Program Ans ε β) :
    (Program.perform o next) >>= f = .perform o fun ans => next ans >>= f := rfl

@[simp] theorem ask_bind (o : Op) (f : Ans o → Program Ans ε β) :
    (ask o : Program Ans ε (Ans o)) >>= f = .perform o f := rfl

@[simp] theorem ofExcept_ok (a : α) :
    (ofExcept (.ok a) : Program Ans ε α) = .done a := rfl

@[simp] theorem ofExcept_error (e : ε) :
    (ofExcept (.error e) : Program Ans ε α) = .raise e := rfl

@[simp] theorem run_done (answer : (o : Op) → Ans o) (a : α) :
    (.done a : Program Ans ε α).run answer = .ok a := rfl

@[simp] theorem run_raise (answer : (o : Op) → Ans o) (e : ε) :
    (.raise e : Program Ans ε α).run answer = .error e := rfl

@[simp] theorem run_perform (answer : (o : Op) → Ans o) (o : Op)
    (next : Ans o → Program Ans ε α) :
    (Program.perform o next).run answer = (next (answer o)).run answer := rfl

/-- A sequence runs its parts one after the other. -/
theorem run_bind (answer : (o : Op) → Ans o) (p : Program Ans ε α) (f : α → Program Ans ε β) :
    (p >>= f).run answer = p.run answer >>= fun a => (f a).run answer := by
  induction p with
  | done a => rfl
  | raise e => rfl
  | perform o next ih => exact ih (answer o)

/-- A sequence that succeeds: both its parts do. -/
theorem ok_of_run_bind {answer : (o : Op) → Ans o} {p : Program Ans ε α}
    {f : α → Program Ans ε β} {b : β} (h : (p >>= f).run answer = .ok b) :
    ∃ a, p.run answer = .ok a ∧ (f a).run answer = .ok b := by
  rw [run_bind] at h
  cases hp : p.run answer with
  | ok a => exact ⟨a, rfl, by rwa [hp] at h⟩
  | error e =>
    rw [hp] at h
    exact nomatch h

@[simp] theorem finished_done (a : α) : (.done a : Program Ans ε α).finished = true := rfl

@[simp] theorem finished_raise (e : ε) : (.raise e : Program Ans ε α).finished = true := rfl

@[simp] theorem finished_perform (o : Op) (next : Ans o → Program Ans ε α) :
    (Program.perform o next).finished = false := rfl

end Program

/-- What a pool remembers: a call began with a request, performed an operation and got
an answer, or ended. -/
inductive Event {Op : Type} (Ans : Op → Type) (ι : Type) : Type
  | began (c : ℕ) (request : ι) : Event Ans ι
  | performed (c : ℕ) (o : Op) (ans : Ans o) : Event Ans ι
  | ended (c : ℕ) : Event Ans ι

/-- An operation together with the answer it got. -/
abbrev Performed {Op : Type} (Ans : Op → Type) : Type := (o : Op) × Ans o

/-- The call an event belongs to. -/
def Event.call {Op : Type} {Ans : Op → Type} {ι : Type} : Event Ans ι → ℕ
  | .began c _ => c
  | .performed c _ _ => c
  | .ended c => c

/-- What the event says about the operations of call `c`. -/
def Event.performedBy {Op : Type} {Ans : Op → Type} {ι : Type} (c : ℕ) :
    Event Ans ι → Option (Performed Ans)
  | .began _ _ => none
  | .performed d o ans => if d = c then some ⟨o, ans⟩ else none
  | .ended _ => none

/-- The world together with the history that led to it, newest event first. -/
structure Moment {Op : Type} (Ans : Op → Type) (ι W : Type) where
  world : W
  history : List (Event Ans ι)

namespace Moment

variable {Op : Type} {Ans : Op → Type} {ι W : Type}

/-- The moment after call `c` began. -/
def begin (m : Moment Ans ι W) (c : ℕ) (request : ι) : Moment Ans ι W :=
  { m with history := .began c request :: m.history }

/-- The moment after call `c` performed `o`, was answered `ans` and left the world `w`. -/
def performed (m : Moment Ans ι W) (c : ℕ) (o : Op) (ans : Ans o) (w : W) :
    Moment Ans ι W :=
  { world := w, history := .performed c o ans :: m.history }

/-- The moment after call `c` ended. -/
def ended (m : Moment Ans ι W) (c : ℕ) : Moment Ans ι W :=
  { m with history := .ended c :: m.history }

/-- The moment after the world moved on its own. -/
def drifted (m : Moment Ans ι W) (w : W) : Moment Ans ι W :=
  { m with world := w }

/-- What call `c` performed so far and what it was answered, newest first. -/
def past (m : Moment Ans ι W) (c : ℕ) : List (Performed Ans) :=
  m.history.filterMap (Event.performedBy c)

@[simp] theorem begin_world (m : Moment Ans ι W) (c : ℕ) (i : ι) :
    (m.begin c i).world = m.world := rfl

@[simp] theorem begin_history (m : Moment Ans ι W) (c : ℕ) (i : ι) :
    (m.begin c i).history = .began c i :: m.history := rfl

@[simp] theorem performed_world (m : Moment Ans ι W) (c : ℕ) (o : Op) (ans : Ans o) (w : W) :
    (m.performed c o ans w).world = w := rfl

@[simp] theorem performed_history (m : Moment Ans ι W) (c : ℕ) (o : Op) (ans : Ans o)
    (w : W) : (m.performed c o ans w).history = .performed c o ans :: m.history := rfl

@[simp] theorem ended_world (m : Moment Ans ι W) (c : ℕ) : (m.ended c).world = m.world := rfl

@[simp] theorem ended_history (m : Moment Ans ι W) (c : ℕ) :
    (m.ended c).history = .ended c :: m.history := rfl

@[simp] theorem drifted_world (m : Moment Ans ι W) (w : W) : (m.drifted w).world = w := rfl

@[simp] theorem drifted_history (m : Moment Ans ι W) (w : W) :
    (m.drifted w).history = m.history := rfl

@[simp] theorem past_begin (m : Moment Ans ι W) (c d : ℕ) (i : ι) :
    (m.begin d i).past c = m.past c := rfl

@[simp] theorem past_ended (m : Moment Ans ι W) (c d : ℕ) :
    (m.ended d).past c = m.past c := rfl

@[simp] theorem past_drifted (m : Moment Ans ι W) (c : ℕ) (w : W) :
    (m.drifted w).past c = m.past c := rfl

@[simp] theorem past_performed_self (m : Moment Ans ι W) (c : ℕ) (o : Op) (ans : Ans o)
    (w : W) : (m.performed c o ans w).past c = ⟨o, ans⟩ :: m.past c := by
  simp [past, Event.performedBy]

/-- What a call did is not changed by what another call does. -/
theorem past_performed_other (m : Moment Ans ι W) {c d : ℕ} (hne : d ≠ c) (o : Op)
    (ans : Ans o) (w : W) : (m.performed d o ans w).past c = m.past c := by
  simp [past, Event.performedBy, hne]

/-- An operation in a call's past is an event of the history, and conversely. -/
@[simp] theorem mem_past (m : Moment Ans ι W) (c : ℕ) (o : Op) (ans : Ans o) :
    ⟨o, ans⟩ ∈ m.past c ↔ .performed c o ans ∈ m.history := by
  simp only [past, List.mem_filterMap]
  constructor
  · rintro ⟨e, hmem, he⟩
    cases e with
    | began d i => simp [Event.performedBy] at he
    | ended d => simp [Event.performedBy] at he
    | performed d o' ans' =>
      by_cases hd : d = c
      · simp only [Event.performedBy, hd, ↓reduceIte, Option.some.injEq] at he
        obtain ⟨rfl, hans⟩ := Sigma.mk.inj he
        rw [← eq_of_heq hans, ← hd]
        exact hmem
      · simp [Event.performedBy, hd] at he
  · intro h
    exact ⟨_, h, by simp [Event.performedBy]⟩

/-! ### Views of the history -/

variable {α : Type}

/-- What a view sees of one event, with the call it belongs to. -/
def sees (view : (o : Op) → Ans o → Option α) : Event Ans ι → Option (ℕ × α)
  | .began _ _ => none
  | .performed c o ans => (view o ans).map fun a => (c, a)
  | .ended _ => none

/-- Everything a view sees of the history, newest first. -/
def collect (view : (o : Op) → Ans o → Option α) (m : Moment Ans ι W) : List (ℕ × α) :=
  m.history.filterMap (sees view)

section Collect

variable (view : (o : Op) → Ans o → Option α) (m : Moment Ans ι W)

@[simp] theorem collect_begin (c : ℕ) (i : ι) : (m.begin c i).collect view = m.collect view := rfl

@[simp] theorem collect_ended (c : ℕ) : (m.ended c).collect view = m.collect view := rfl

@[simp] theorem collect_drifted (w : W) : (m.drifted w).collect view = m.collect view := rfl

/-- An operation the view does not see changes nothing in it. -/
theorem collect_performed_none {c : ℕ} {o : Op} {ans : Ans o} (w : W) (h : view o ans = none) :
    (m.performed c o ans w).collect view = m.collect view := by
  simp [collect, sees, h]

/-- An operation the view sees is the newest thing in it. -/
theorem collect_performed_some {c : ℕ} {o : Op} {ans : Ans o} {a : α} (w : W)
    (h : view o ans = some a) :
    (m.performed c o ans w).collect view = (c, a) :: m.collect view := by
  simp [collect, sees, h]

/-- What the view has seen, it keeps seeing. -/
theorem collect_subset_performed (c : ℕ) (o : Op) (ans : Ans o) (w : W) :
    m.collect view ⊆ (m.performed c o ans w).collect view := by
  cases h : view o ans with
  | none => rw [collect_performed_none view m w h]; exact List.Subset.refl _
  | some a => rw [collect_performed_some view m w h]; exact List.subset_cons_self _ _

variable {view m}

theorem mem_collect {c : ℕ} {a : α} :
    (c, a) ∈ m.collect view ↔ ∃ o ans, .performed c o ans ∈ m.history ∧ view o ans = some a := by
  simp only [collect, List.mem_filterMap]
  constructor
  · rintro ⟨e, he, hsee⟩
    cases e with
    | began d i => exact absurd hsee (by simp [sees])
    | ended d => exact absurd hsee (by simp [sees])
    | performed d o ans =>
      obtain ⟨b, hb, hpair⟩ := Option.map_eq_some_iff.mp hsee
      obtain ⟨rfl, rfl⟩ := Prod.mk.inj hpair
      exact ⟨o, ans, he, hb⟩
  · rintro ⟨o, ans, hmem, hview⟩
    exact ⟨_, hmem, by simp [sees, hview]⟩

/-- What a call has in its past, the view has seen of that call. -/
theorem mem_collect_of_past {c : ℕ} {o : Op} {ans : Ans o} {a : α} (h : ⟨o, ans⟩ ∈ m.past c)
    (hview : view o ans = some a) : (c, a) ∈ m.collect view :=
  mem_collect.mpr ⟨o, ans, (mem_past m c o ans).mp h, hview⟩

end Collect

end Moment

/-- A call in a pool: what was asked and what is left to do. -/
structure Call {Op : Type} (Ans : Op → Type) (ι ε ρ : Type) where
  request : ι
  rest : Program Ans ε ρ

/-- A world, its history and the calls in flight or finished. -/
structure Pool {Op : Type} (Ans : Op → Type) (ι ε ρ W : Type) extends Moment Ans ι W where
  calls : ℕ → Option (Call Ans ι ε ρ)

/-- What the scheduler can do next. -/
inductive Act (ι χ κ : Type) : Type
  | begin (c : ℕ) (request : ι)
  | advance (c : ℕ) (choice : χ)
  | drift (k : κ)

/-- How operations change the world: `exec x c o w` is the answer and the new world when
call `c` performs `o` under the environment's choice `x`, and `none` when the operation
waits or the choice does not fit; `drift` is how the world moves on its own. -/
structure Semantics {Op : Type} (Ans : Op → Type) (W χ κ : Type) where
  exec : χ → ℕ → (o : Op) → W → Option (Ans o × W)
  drift : κ → W → Option W

namespace Pool

variable {Op : Type} {Ans : Op → Type} {ι ε ρ W χ κ : Type}

/-- The pool before any call. -/
def initial (w : W) : Pool Ans ι ε ρ W :=
  { world := w, history := [], calls := fun _ => none }

/-- A call that has nothing left to do has ended. -/
def settle (c : ℕ) (rest : Program Ans ε ρ) (m : Moment Ans ι W) : Moment Ans ι W :=
  if rest.finished then m.ended c else m

/-- One scheduling step. -/
def step (sem : Semantics Ans W χ κ) (body : ι → Program Ans ε ρ)
    (p : Pool Ans ι ε ρ W) : Act ι χ κ → Option (Pool Ans ι ε ρ W)
  | .begin c i =>
    match p.calls c with
    | none => some
        { settle c (body i) (p.toMoment.begin c i) with
          calls := Function.update p.calls c (some ⟨i, body i⟩) }
    | some _ => none
  | .advance c x =>
    match p.calls c with
    | some ⟨i, .perform o next⟩ =>
      (sem.exec x c o p.world).map fun r =>
        { settle c (next r.1) (p.toMoment.performed c o r.1 r.2) with
          calls := Function.update p.calls c (some ⟨i, next r.1⟩) }
    | _ => none
  | .drift k => (sem.drift k p.world).map fun w => { p.toMoment.drifted w with calls := p.calls }

/-- The calls of a pool as a transition system. -/
def system (sem : Semantics Ans W χ κ) (body : ι → Program Ans ε ρ) :
    System (Pool Ans ι ε ρ W) (Act ι χ κ) where
  step := step sem body

/-- The action lets call `c` perform `o` under the choice `x`. -/
def Performs (p : Pool Ans ι ε ρ W) (a : Act ι χ κ) (c : ℕ) (x : χ) (o : Op) : Prop :=
  a = .advance c x ∧ ∃ i next, p.calls c = some ⟨i, .perform o next⟩

/-- The action performs only operations that meet the condition. -/
def Under (condition : Moment Ans ι W → ℕ → χ → Op → Prop) (p : Pool Ans ι ε ρ W)
    (a : Act ι χ κ) : Prop :=
  ∀ c x o, p.Performs a c x o → condition p.toMoment c x o

/-- Call `c` was asked `request` and has returned `a`. -/
def Returned (p : Pool Ans ι ε ρ W) (c : ℕ) (request : ι) (a : ρ) : Prop :=
  p.calls c = some ⟨request, .done a⟩

/-- Call `c` was asked `request` and has failed with `e`. -/
def Failed (p : Pool Ans ι ε ρ W) (c : ℕ) (request : ι) (e : ε) : Prop :=
  p.calls c = some ⟨request, .raise e⟩

variable {sem : Semantics Ans W χ κ} {body : ι → Program Ans ε ρ}

/-- Everything one step can do: begin a call that was not there, perform the next
operation of a call, or drift. -/
theorem step_cases {p q : Pool Ans ι ε ρ W} {a : Act ι χ κ}
    (h : (system sem body).step p a = some q) :
    (∃ c i, a = .begin c i ∧ p.calls c = none ∧
      q.toMoment = settle c (body i) (p.toMoment.begin c i) ∧
      q.calls = Function.update p.calls c (some ⟨i, body i⟩)) ∨
    (∃ c x i o next ans w, a = .advance c x ∧ p.calls c = some ⟨i, .perform o next⟩ ∧
      sem.exec x c o p.world = some (ans, w) ∧
      q.toMoment = settle c (next ans) (p.toMoment.performed c o ans w) ∧
      q.calls = Function.update p.calls c (some ⟨i, next ans⟩)) ∨
    (∃ k w, a = .drift k ∧ sem.drift k p.world = some w ∧
      q.toMoment = p.toMoment.drifted w ∧ q.calls = p.calls) := by
  cases a with
  | begin c i =>
    left
    cases hc : p.calls c with
    | none =>
      simp only [system, step, hc, Option.some.injEq] at h
      subst h
      exact ⟨c, i, rfl, hc, rfl, rfl⟩
    | some call => simp [system, step, hc] at h
  | advance c x =>
    right; left
    cases hc : p.calls c with
    | none => simp [system, step, hc] at h
    | some call =>
      obtain ⟨i, rest⟩ := call
      cases rest with
      | done a => simp [system, step, hc] at h
      | raise e => simp [system, step, hc] at h
      | perform o next =>
        simp only [system, step, hc, Option.map_eq_some_iff] at h
        obtain ⟨⟨ans, w⟩, hex, rfl⟩ := h
        exact ⟨c, x, i, o, next, ans, w, rfl, hc, hex, rfl, rfl⟩
  | drift k =>
    right; right
    simp only [system, step, Option.map_eq_some_iff] at h
    obtain ⟨w, hdr, rfl⟩ := h
    exact ⟨k, w, rfl, hdr, rfl, rfl⟩

/-! ### One call on its own -/

/-- What is left of a call, its past and the world after it performed its next operations
under the given choices, with no other call in between. -/
def solo (sem : Semantics Ans W χ κ) (c : ℕ) :
    List χ → Program Ans ε ρ → List (Performed Ans) → W →
      Option (Program Ans ε ρ × List (Performed Ans) × W)
  | [], rest, past, w => some (rest, past, w)
  | x :: xs, .perform o next, past, w =>
    (sem.exec x c o w).bind fun r => solo sem c xs (next r.1) (⟨o, r.1⟩ :: past) r.2
  | _ :: _, .done _, _, _ => none
  | _ :: _, .raise _, _, _ => none

/-- A pool can let one of its calls go on alone. -/
theorem run_of_solo (body : ι → Program Ans ε ρ) {p : Pool Ans ι ε ρ W} {c : ℕ} {i : ι} {xs : List χ}
    {rest rest' : Program Ans ε ρ} {past : List (Performed Ans)} {w : W}
    (hc : p.calls c = some ⟨i, rest⟩)
    (h : solo sem c xs rest (p.toMoment.past c) p.world = some (rest', past, w)) :
    ∃ q, (system sem body).Run System.anyStep p (xs.map (.advance c)) q ∧ q.world = w ∧
      q.toMoment.past c = past ∧ q.calls = Function.update p.calls c (some ⟨i, rest'⟩) := by
  induction xs generalizing p rest with
  | nil =>
    obtain ⟨rfl, rfl, rfl⟩ : rest = rest' ∧ p.toMoment.past c = past ∧ p.world = w := by
      simpa [solo] using h
    exact ⟨p, .refl p, rfl, rfl, by rw [← hc, Function.update_eq_self]⟩
  | cons x xs ih =>
    cases rest with
    | done a => exact absurd h (by simp [solo])
    | raise e => exact absurd h (by simp [solo])
    | perform o next =>
      obtain ⟨⟨ans, w₁⟩, hex, hrest⟩ := Option.bind_eq_some_iff.mp h
      let p₁ : Pool Ans ι ε ρ W :=
        { settle c (next ans) (p.toMoment.performed c o ans w₁) with
          calls := Function.update p.calls c (some ⟨i, next ans⟩) }
      have hstep : (system sem body).step p (.advance c x) = some p₁ := by
        simp [system, step, hc, hex, p₁]
      have hworld : p₁.world = w₁ := by
        simp only [p₁, settle]
        split <;> rfl
      have hpast : p₁.toMoment.past c = ⟨o, ans⟩ :: p.toMoment.past c := by
        have : p₁.toMoment = settle c (next ans) (p.toMoment.performed c o ans w₁) := rfl
        rw [this, settle]
        split <;> simp
      obtain ⟨q, hrun, hw, hq, hcalls⟩ := ih (p := p₁)
        (show p₁.calls c = some ⟨i, next ans⟩ by simp [p₁]) (by rw [hworld, hpast]; exact hrest)
      refine ⟨q, .cons trivial hstep hrun, hw, hq, ?_⟩
      rw [hcalls]
      exact Function.update_idem ..

/-- A pool can begin a call and let it go on alone. -/
theorem run_of_begin_solo (body : ι → Program Ans ε ρ) {p : Pool Ans ι ε ρ W} {c : ℕ} {i : ι} {xs : List χ}
    {rest : Program Ans ε ρ} {past : List (Performed Ans)} {w : W} (hc : p.calls c = none)
    (hpast : p.toMoment.past c = [])
    (h : solo sem c xs (body i) [] p.world = some (rest, past, w)) :
    ∃ q, (system sem body).Run System.anyStep p (.begin c i :: xs.map (.advance c)) q ∧
      q.world = w ∧ q.toMoment.past c = past ∧
      q.calls = Function.update p.calls c (some ⟨i, rest⟩) := by
  let p₁ : Pool Ans ι ε ρ W :=
    { settle c (body i) (p.toMoment.begin c i) with
      calls := Function.update p.calls c (some ⟨i, body i⟩) }
  have hstep : (system sem body).step p (.begin c i : Act ι χ κ) = some p₁ := by
    simp [system, step, hc, p₁]
  have hmoment : p₁.toMoment = settle c (body i) (p.toMoment.begin c i) := rfl
  have hworld : p₁.world = p.world := by
    simp only [p₁, settle]
    split <;> rfl
  have hpast₁ : p₁.toMoment.past c = [] := by
    rw [hmoment, settle]
    split <;> simp [hpast]
  have hcall : p₁.calls c = some ⟨i, body i⟩ := by simp [p₁]
  obtain ⟨q, hrun, hw, hq, hcalls⟩ := run_of_solo body hcall
    (by rw [hworld, hpast₁]; exact h)
  refine ⟨q, .cons trivial hstep hrun, hw, hq, ?_⟩
  rw [hcalls]
  exact Function.update_idem ..

end Pool

end Interleaving
