import OidcExchange.Interleaving.Handler
import Mathlib.Data.List.Basic

/-!
# A call that runs alone

The result of a call that performs all its operations one after the other, with no other call in
between and every operation under the same choice of the environment.
-/

set_option autoImplicit false

namespace Interleaving

namespace Program

variable {Op : Type} {Ans : Op → Type} {ε α β W χ κ : Type}

/-- The result of the call and the world it leaves; none where an operation waits. -/
def alone (sem : Semantics Ans W χ κ) (x : χ) : Program Ans ε α → W → Option (Except ε α × W)
  | .done a, w => some (.ok a, w)
  | .raise e, w => some (.error e, w)
  | .perform o next, w => (sem.exec x 0 o w).bind fun r => alone sem x (next r.1) r.2

variable {sem : Semantics Ans W χ κ} {x : χ}

@[simp] theorem alone_done (a : α) (w : W) :
    (.done a : Program Ans ε α).alone sem x w = some (.ok a, w) := rfl

@[simp] theorem alone_raise (e : ε) (w : W) :
    (.raise e : Program Ans ε α).alone sem x w = some (.error e, w) := rfl

theorem alone_perform {o : Op} {next : Ans o → Program Ans ε α} {w w' : W} {ans : Ans o}
    (h : sem.exec x 0 o w = some (ans, w')) :
    (Program.perform o next).alone sem x w = (next ans).alone sem x w' := by
  rw [alone, h]
  rfl

/-- A sequence goes on from where its first part ends. -/
theorem alone_bind (p : Program Ans ε α) (f : α → Program Ans ε β) (w : W) :
    (p >>= f).alone sem x w = (p.alone sem x w).bind fun r =>
      match r.1 with
      | .ok a => (f a).alone sem x r.2
      | .error e => some (.error e, r.2) := by
  induction p generalizing w with
  | done a => rfl
  | raise e => rfl
  | perform o next ih =>
    show ((sem.exec x 0 o w).bind fun r => (next r.1 >>= f).alone sem x r.2) =
      (((sem.exec x 0 o w).bind fun r => (next r.1).alone sem x r.2)).bind _
    rw [Option.bind_assoc]
    congr 1
    funext r
    exact ih r.1 r.2

theorem alone_bind_ok {p : Program Ans ε α} {f : α → Program Ans ε β} {w w' : W} {a : α}
    (h : p.alone sem x w = some (.ok a, w')) :
    (p >>= f).alone sem x w = (f a).alone sem x w' := by
  rw [alone_bind, h]
  rfl

end Program

/-! ## Two servers in lockstep

Two deterministic servers are given the same calls one after the other. A relation that holds at
the start and that every allowed call keeps, while both servers return and their answers are alike,
is a simulation; with one the answers are alike after every history.
-/

section

/-- What a server answers to a call, and the state it leaves; none where it does not return. -/
abbrev Server (ι α σ : Type) : Type := ι → σ → Option (α × σ)

variable {ι α β σ τ : Type}

/-- Two servers after the same calls, newest last, each allowed where it was made. -/
inductive Lockstep (f : Server ι α σ) (g : Server ι β τ) (allowed : List ι → σ → τ → ι → Prop)
    (a₀ : σ) (b₀ : τ) : List ι → σ → τ → Prop
  | start : Lockstep f g allowed a₀ b₀ [] a₀ b₀
  | call {past : List ι} {a a' : σ} {b b' : τ} {i : ι} {x : α} {y : β} :
    Lockstep f g allowed a₀ b₀ past a b → allowed past a b i → f i a = some (x, a') →
    g i b = some (y, b') → Lockstep f g allowed a₀ b₀ (past ++ [i]) a' b'

/-- A relation that every allowed call keeps, with answers that are alike. -/
structure Simulation (f : Server ι α σ) (g : Server ι β τ)
    (allowed : List ι → σ → τ → ι → Prop) (alike : σ → τ → ι → α → β → Prop)
    (a₀ : σ) (b₀ : τ) : Type where
  related : List ι → σ → τ → Prop
  start : related [] a₀ b₀
  step : ∀ {past a b i}, related past a b → allowed past a b i →
    ∃ x a' y b', f i a = some (x, a') ∧ g i b = some (y, b') ∧ alike a b i x y ∧
      related (past ++ [i]) a' b'

variable {f : Server ι α σ} {g : Server ι β τ} {allowed : List ι → σ → τ → ι → Prop}
  {alike : σ → τ → ι → α → β → Prop} {a₀ a : σ} {b₀ b : τ} {past : List ι} {i : ι}

/-- The relation holds after every history. -/
theorem Lockstep.related (S : Simulation f g allowed alike a₀ b₀)
    (h : Lockstep f g allowed a₀ b₀ past a b) : S.related past a b := by
  induction h with
  | start => exact S.start
  | call hpast hallowed hf hg ih =>
    obtain ⟨x, a', y, b', hf', hg', -, hrelated⟩ := S.step ih hallowed
    obtain ⟨-, rfl⟩ := Prod.mk.inj (Option.some.inj (hf.symm.trans hf'))
    obtain ⟨-, rfl⟩ := Prod.mk.inj (Option.some.inj (hg.symm.trans hg'))
    exact hrelated

/-- Both servers answer every allowed call, and alike. -/
theorem Lockstep.answers (S : Simulation f g allowed alike a₀ b₀)
    (h : Lockstep f g allowed a₀ b₀ past a b) (hallowed : allowed past a b i) :
    ∃ x a' y b', f i a = some (x, a') ∧ g i b = some (y, b') ∧ alike a b i x y := by
  obtain ⟨x, a', y, b', hf, hg, halike, -⟩ := S.step (h.related S) hallowed
  exact ⟨x, a', y, b', hf, hg, halike⟩

end

end Interleaving
