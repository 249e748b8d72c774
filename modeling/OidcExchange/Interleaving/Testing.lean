import OidcExchange.Interleaving.Discipline

/-!
# Runs that are computed

A condition on the operations of a run is met where a computed test of every step passes, and
a pool is idle where every call that was begun is computed to have finished.
-/

set_option autoImplicit false

namespace Interleaving

variable {Op : Type} {Ans : Op → Type} {ι ε ρ W χ κ : Type}

/-- The call that an action begins. -/
def Act.begun : Act ι χ κ → Option ℕ
  | .begin c _ => some c
  | _ => none

namespace Pool

/-- The test of an operation, for the step that performs it. -/
def passes (test : Moment Ans ι W → ℕ → χ → Op → Bool) (p : Pool Ans ι ε ρ W) :
    Act ι χ κ → Bool
  | .advance c x =>
    match p.calls c with
    | some ⟨_, .perform o _⟩ => test p.toMoment c x o
    | _ => true
  | _ => true

theorem under_of_passes {test : Moment Ans ι W → ℕ → χ → Op → Bool}
    {condition : Moment Ans ι W → ℕ → χ → Op → Prop}
    (hsound : ∀ m c x o, test m c x o = true → condition m c x o) (p : Pool Ans ι ε ρ W)
    (a : Act ι χ κ) (h : p.passes test a = true) : p.Under condition a := by
  rintro c x o ⟨rfl, i, next, hc⟩
  simp only [passes, hc] at h
  exact hsound _ _ _ _ h

/-- What a call was asked and has returned. -/
def result (p : Pool Ans ι ε ρ W) (c : ℕ) : Option (ι × ρ) :=
  (p.calls c).bind fun call =>
    match call.rest with
    | .done a => some (call.request, a)
    | _ => none

/-- What a call was asked and has failed with. -/
def failure (p : Pool Ans ι ε ρ W) (c : ℕ) : Option (ι × ε) :=
  (p.calls c).bind fun call =>
    match call.rest with
    | .raise e => some (call.request, e)
    | _ => none

theorem returned_of_result {p : Pool Ans ι ε ρ W} {c : ℕ} {i : ι} {a : ρ}
    (h : p.result c = some (i, a)) : p.Returned c i a := by
  obtain ⟨⟨i', rest⟩, hcall, hrest⟩ := Option.bind_eq_some_iff.mp h
  cases rest with
  | done a' =>
    cases hrest
    exact hcall
  | raise e => exact nomatch hrest
  | perform o next => exact nomatch hrest

theorem failed_of_failure {p : Pool Ans ι ε ρ W} {c : ℕ} {i : ι} {e : ε}
    (h : p.failure c = some (i, e)) : p.Failed c i e := by
  obtain ⟨⟨i', rest⟩, hcall, hrest⟩ := Option.bind_eq_some_iff.mp h
  cases rest with
  | raise e' =>
    cases hrest
    exact hcall
  | done a => exact nomatch hrest
  | perform o next => exact nomatch hrest

/-- No call is in flight. -/
def Idle (p : Pool Ans ι ε ρ W) : Prop := ∀ c call, p.calls c = some call → call.rest.finished = true

/-- The first calls have finished, as far as they were begun. -/
def finishedBelow (n : ℕ) (p : Pool Ans ι ε ρ W) : Bool :=
  (List.range n).all fun c => (p.calls c).all fun call => call.rest.finished

variable {sem : Semantics Ans W χ κ} {body : ι → Program Ans ε ρ}
  {meets : Pool Ans ι ε ρ W → Act ι χ κ → Prop} {p q : Pool Ans ι ε ρ W}

/-- A call that no action begins is not there. -/
theorem calls_eq_none_of_run {as : List (Act ι χ κ)} (h : (system sem body).Run meets p as q)
    {c : ℕ} (hbegun : ∀ a ∈ as, a.begun ≠ some c) (hp : p.calls c = none) : q.calls c = none := by
  induction h with
  | refl => exact hp
  | cons hmeets hstep rest ih =>
    apply ih fun a ha => hbegun a (List.mem_cons_of_mem _ ha)
    obtain ⟨c', i, rfl, -, -, hcalls⟩ | ⟨c', x, i, o, next, ans, w, -, hc, -, -, hcalls⟩ |
      ⟨k, w, -, -, -, hcalls⟩ := step_cases hstep
    · have hne : c ≠ c' := by
        rintro rfl
        exact hbegun _ (List.mem_cons_self ..) rfl
      rw [hcalls, Function.update_of_ne hne, hp]
    · have hne : c ≠ c' := by
        rintro rfl
        rw [hp] at hc
        exact nomatch hc
      rw [hcalls, Function.update_of_ne hne, hp]
    · rw [hcalls, hp]

/-- Where only the first calls were begun and all of them have finished, none is in flight. -/
theorem idle_of_finishedBelow {as : List (Act ι χ κ)} {w : W} {n : ℕ}
    (h : (system sem body).Run meets (initial w) as q)
    (hbegun : as.all (fun a => a.begun.all (· < n)) = true)
    (hfinished : finishedBelow n q = true) : q.Idle := by
  intro c call hc
  by_cases hn : c < n
  · have hcall := List.all_eq_true.mp hfinished c (List.mem_range.mpr hn)
    rw [hc] at hcall
    simpa using hcall
  · have hnone : q.calls c = none := by
      apply calls_eq_none_of_run h _ rfl
      intro a ha hbegins
      have hlt := List.all_eq_true.mp hbegun a ha
      rw [hbegins] at hlt
      exact hn (by simpa using hlt)
    rw [hnone] at hc
    exact nomatch hc

end Pool

end Interleaving
