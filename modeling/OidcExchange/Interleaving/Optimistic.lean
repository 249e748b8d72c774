import Mathlib.Order.Basic
import OidcExchange.Interleaving.Alone
import OidcExchange.Interleaving.Discipline

/-!
# Optimistic updates of one record

Calls read a record, edit it under the time they read from a clock and write it back on condition
that its version has not changed; a call that comes too late may try again. The writes that took
place are the edits of the calls that returned, one after the other, and nothing else changes the
record.
-/

set_option autoImplicit false

namespace Interleaving

variable {Op : Type} {Ans : Op → Type} {W χ κ : Type}

/-- How a record with versions is read and written by the operations of a world: what an operation
shows of the record, which time it shows, which record it would write over which version, and
which it has written. An operation whose choice is not faithful may change the record unseen. -/
structure VersionedRecord (sem : Semantics Ans W χ κ) (R π τ : Type) [PartialOrder τ] where
  version : R → ℕ
  edit : π → τ → R → R
  value : W → Option R
  clock : W → τ
  reads : (o : Op) → Ans o → Option R
  times : (o : Op) → Ans o → Option τ
  proposes : Op → Option (ℕ × R)
  commits : (o : Op) → Ans o → Option R
  faithful : χ → Prop
  valid : R → Prop
  version_edit : ∀ p t r, version (edit p t r) = version r + 1
  valid_of_value : ∀ {w r}, value w = some r → valid r
  eq_of_reads : ∀ {x c o w ans w' r r'}, value w = some r → sem.exec x c o w = some (ans, w') →
    reads o ans = some r' → r' = r
  clock_of_times : ∀ {x c o w ans w' t}, sem.exec x c o w = some (ans, w') →
    times o ans = some t → clock w = t
  proposed_of_commits : ∀ {o ans r}, commits o ans = some r → ∃ v, proposes o = some (v, r)
  version_of_commits : ∀ {x c o w ans w' p t r r' v}, value w = some r →
    sem.exec x c o w = some (ans, w') → commits o ans = some (edit p t r') → valid r' →
    proposes o = some (v, edit p t r') → version r = v
  value_of_commits : ∀ {x c o w ans w' p t r}, value w = some r →
    sem.exec x c o w = some (ans, w') → commits o ans = some (edit p t r) →
    value w' = some (edit p t r)
  value_of_no_commit : ∀ {x c o w ans w' r}, value w = some r → faithful x →
    sem.exec x c o w = some (ans, w') → commits o ans = none → value w' = some r
  clock_le_exec : ∀ {x c o w ans w'}, sem.exec x c o w = some (ans, w') → clock w ≤ clock w'
  value_drift : ∀ {k w w'}, sem.drift k w = some w' → value w' = value w
  clock_le_drift : ∀ {k w w'}, sem.drift k w = some w' → clock w ≤ clock w'

/-- One edit: the call that made it, and the time it was made under. -/
structure Turn (π τ : Type) : Type where
  call : ℕ
  patch : π
  time : τ

namespace VersionedRecord

variable {sem : Semantics Ans W χ κ} {R π τ : Type} [PartialOrder τ]
  (C : VersionedRecord sem R π τ)

/-! ## Edits one after the other, the latest first -/

/-- The record after the edits. -/
def after (r₀ : R) : List (Turn π τ) → R
  | [] => r₀
  | t :: earlier => C.edit t.patch t.time (after r₀ earlier)

/-- What each of the calls has written. -/
def recorded (r₀ : R) : List (Turn π τ) → List (ℕ × R)
  | [] => []
  | t :: earlier => (t.call, C.after r₀ (t :: earlier)) :: recorded r₀ earlier

variable {C} {r₀ : R} {turns : List (Turn π τ)}

variable (C)

/-- Nothing was written so far. -/
def Uncommitted (past : List (Performed Ans)) : Prop := ∀ e ∈ past, C.commits e.1 e.2 = none

/-- The record was read, then the clock, and what is proposed is the edit of that record. -/
structure Proposal (patch : π) (past : List (Performed Ans)) (v : ℕ) (r' : R) : Prop where
  intro ::
  edits : ∃ e₁ e₂ rest t r, past = e₁ :: e₂ :: rest ∧ C.times e₁.1 e₁.2 = some t ∧
    C.reads e₂.1 e₂.2 = some r ∧ v = C.version r ∧ r' = C.edit patch t r

/-- A call goes on as long as it has written nothing, and proposes an edit of what it has just
read. -/
def Ready (patch : π) (past : List (Performed Ans)) (o : Op) : Prop :=
  C.Uncommitted past ∧ ∀ v r', C.proposes o = some (v, r') → C.Proposal patch past v r'

variable {C}

theorem Uncommitted.cons {past : List (Performed Ans)} (h : C.Uncommitted past)
    {e : Performed Ans} (he : C.commits e.1 e.2 = none) : C.Uncommitted (e :: past) := by
  intro e' hmem
  rcases List.mem_cons.mp hmem with rfl | hmem
  · exact he
  · exact h e' hmem

/-- The record is what the edits so far make of it, and the history shows these edits. -/
structure Serial (C : VersionedRecord sem R π τ) (r₀ : R) (turns : List (Turn π τ))
    (m : Moment Ans π W) : Prop where
  value : C.value m.world = some (C.after r₀ turns)
  log : m.collect C.commits = C.recorded r₀ turns
  once : (turns.map Turn.call).Nodup
  asked : ∀ t ∈ turns, .began t.call t.patch ∈ m.history
  ordered : turns.Pairwise fun later earlier => earlier.time ≤ later.time
  elapsed : ∀ t ∈ turns, t.time ≤ C.clock m.world
  seen : ∀ c o ans t, .performed c o ans ∈ m.history → C.times o ans = some t →
    t ≤ C.clock m.world
  valid : ∀ c o ans r, .performed c o ans ∈ m.history → C.reads o ans = some r → C.valid r
  read : ∀ c o ans r, .performed c o ans ∈ m.history → C.reads o ans = some r →
    C.version r ≤ C.version (C.after r₀ turns) ∧
      (C.version r = C.version (C.after r₀ turns) → r = C.after r₀ turns)
  timed : ∀ c e₁ e₂ rest t r, m.past c = e₁ :: e₂ :: rest → C.times e₁.1 e₁.2 = some t →
    C.reads e₂.1 e₂.2 = some r → C.version r = C.version (C.after r₀ turns) →
    ∀ t' ∈ turns, t'.time ≤ t

namespace Serial

variable {m : Moment Ans π W} {c : ℕ} {o : Op} {ans : Ans o} {w : W} {x : χ} {patch : π}

theorem initial {ε ρ : Type} {w : W} (h : C.value w = some r₀) :
    Serial C r₀ [] (Pool.initial w : Pool Ans π ε ρ W).toMoment where
  value := h
  log := rfl
  once := List.nodup_nil
  asked := by simp
  ordered := List.Pairwise.nil
  elapsed := by simp
  seen := by simp [Pool.initial]
  valid := by simp [Pool.initial]
  read := by simp [Pool.initial]
  timed := by simp

/-- What happens outside the record and the operations of the calls changes nothing. -/
theorem congr (h : Serial C r₀ turns m) {m' : Moment Ans π W}
    (hvalue : C.value m'.world = C.value m.world) (hclock : C.clock m.world ≤ C.clock m'.world)
    (hlog : m'.collect C.commits = m.collect C.commits)
    (hbegan : ∀ c i, .began c i ∈ m.history → .began c i ∈ m'.history)
    (hperformed : ∀ c o ans, .performed c o ans ∈ m'.history → .performed c o ans ∈ m.history)
    (hpast : ∀ c, m'.past c = m.past c) : Serial C r₀ turns m' where
  value := hvalue.trans h.value
  log := hlog.trans h.log
  once := h.once
  asked t ht := hbegan _ _ (h.asked t ht)
  ordered := h.ordered
  elapsed t ht := (h.elapsed t ht).trans hclock
  seen c o ans t hmem ht := (h.seen c o ans t (hperformed c o ans hmem) ht).trans hclock
  valid c o ans r hmem hr := h.valid c o ans r (hperformed c o ans hmem) hr
  read c o ans r hmem hr := h.read c o ans r (hperformed c o ans hmem) hr
  timed c e₁ e₂ rest t r hp := h.timed c e₁ e₂ rest t r ((hpast c).symm.trans hp)

end Serial

end VersionedRecord

end Interleaving
