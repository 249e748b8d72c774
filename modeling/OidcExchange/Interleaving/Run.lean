import Mathlib.Data.Option.Basic

/-!
# Runs of a transition system

A system moves from state to state by actions; an action that is not enabled
has no next state. A run is a list of enabled actions, each taken in a state
that meets a condition on the state and the action. The trivial condition gives
every run; a proper condition gives the runs that avoid a named hazard, so one
notion serves both unconditional safety and safety under a condition.
-/

set_option autoImplicit false

namespace Interleaving

/-- A transition system: `step s a` is the state after action `a`, and `none` when
`a` is not enabled in `s`. -/
structure System (σ α : Type) where
  step : σ → α → Option σ

namespace System

variable {σ α : Type} (M : System σ α) (meets : σ → α → Prop)

/-- `M.Run meets s as t`: the actions `as`, taken one after another from `s`, are all
enabled and lead to `t`, and every one of them is taken in a state that meets the
condition. -/
inductive Run : σ → List α → σ → Prop
  | refl (s : σ) : Run s [] s
  | cons {s t u : σ} {a : α} {as : List α} (hmeets : meets s a)
      (hstep : M.step s a = some t) (rest : Run t as u) : Run s (a :: as) u

/-- The condition every step meets. -/
def anyStep : σ → α → Prop := fun _ _ => True

/-- The state the actions lead to, when all of them are enabled. -/
def follow (s : σ) : List α → Option σ
  | [] => some s
  | a :: as => (M.step s a).bind fun t => follow t as

/-- The state the actions lead to, when all of them are enabled and each is taken where
the test admits it. -/
def followWhen (test : σ → α → Bool) (s : σ) : List α → Option σ
  | [] => some s
  | a :: as => if test s a then (M.step s a).bind fun t => followWhen test t as else none

variable {M} {meets}

/-- Evaluating the actions gives a run without a condition. -/
theorem Run.of_follow {s t : σ} {as : List α} (h : M.follow s as = some t) :
    M.Run anyStep s as t := by
  induction as generalizing s with
  | nil =>
    obtain rfl : s = t := Option.some.inj h
    exact .refl s
  | cons a as ih =>
    obtain ⟨u, hstep, hrest⟩ := Option.bind_eq_some_iff.mp h
    exact .cons trivial hstep (ih hrest)

/-- Evaluating the actions and a test of the state they lead to. -/
theorem Run.of_follow_any {s : σ} {as : List α} {test : σ → Bool}
    (h : (M.follow s as).any test = true) : ∃ t, M.Run anyStep s as t ∧ test t = true := by
  obtain ⟨t, hfollow, htest⟩ := (Option.any_eq_true test _).mp h
  exact ⟨t, .of_follow hfollow, htest⟩

/-- Evaluating the actions under a test that implies the condition. -/
theorem Run.of_followWhen_any {test : σ → α → Bool} {goal : σ → Bool}
    (hsound : ∀ s a, test s a = true → meets s a) {s : σ} {as : List α}
    (h : (M.followWhen test s as).any goal = true) :
    ∃ t, M.Run meets s as t ∧ goal t = true := by
  induction as generalizing s with
  | nil => exact ⟨s, .refl s, h⟩
  | cons a as ih =>
    unfold followWhen at h
    split at h
    · rename_i htest
      cases hstep : M.step s a with
      | none => simp [hstep] at h
      | some u =>
        rw [hstep] at h
        obtain ⟨t, hrun, hgoal⟩ := ih h
        exact ⟨t, .cons (hsound s a htest) hstep hrun, hgoal⟩
    · exact absurd h (by simp)

/-- A run of one action. -/
theorem Run.single {s t : σ} {a : α} (hmeets : meets s a) (hstep : M.step s a = some t) :
    M.Run meets s [a] t :=
  .cons hmeets hstep (.refl t)

/-- Runs compose. -/
theorem Run.trans {s t u : σ} {as bs : List α} (h₁ : M.Run meets s as t)
    (h₂ : M.Run meets t bs u) : M.Run meets s (as ++ bs) u := by
  induction h₁ with
  | refl => exact h₂
  | cons hmeets hstep _ ih => exact .cons hmeets hstep (ih h₂)

/-- A run under a condition is a run under every weaker one. -/
theorem Run.mono {other : σ → α → Prop} (hle : ∀ s a, meets s a → other s a) {s t : σ}
    {as : List α} (h : M.Run meets s as t) : M.Run other s as t := by
  induction h with
  | refl s => exact .refl s
  | cons hmeets hstep _ ih => exact .cons (hle _ _ hmeets) hstep ih

/-- **The run rule**: what every step preserves, every run preserves. -/
theorem Run.preserves {I : σ → Prop}
    (hstep : ∀ s a t, I s → meets s a → M.step s a = some t → I t) {s t : σ} {as : List α}
    (h : M.Run meets s as t) (hs : I s) : I t := by
  induction h with
  | refl => exact hs
  | cons hmeets hst _ ih => exact ih (hstep _ _ _ hs hmeets hst)

/-- A relation that is reflexive, transitive and contains every step from an invariant
state relates the ends of every run. -/
theorem Run.relates {I : σ → Prop} {R : σ → σ → Prop} (hrefl : ∀ s, R s s)
    (htrans : ∀ s t u, R s t → R t u → R s u)
    (hstep : ∀ s a t, I s → meets s a → M.step s a = some t → I t ∧ R s t) {s t : σ}
    {as : List α} (h : M.Run meets s as t) (hs : I s) : R s t := by
  induction h with
  | refl s => exact hrefl s
  | cons hmeets hst _ ih =>
    obtain ⟨hI, hR⟩ := hstep _ _ _ hs hmeets hst
    exact htrans _ _ _ hR (ih hI)

end System

end Interleaving
