import OidcExchange.Interleaving.Run
import Mathlib.Data.List.Basic

/-!
# Services

A service answers one call after another from a state of its own. Between two calls the state may
be rearranged, where it keeps things in an order that nothing promises. A log has the calls that
have been answered, newest first; where every call of one kind is answered as a rule says from the
calls of that kind before it, two logs with the same calls of that kind have the same answers to
them.
-/

set_option autoImplicit false

namespace Interleaving

/-- What a service answers to a call, and the states that stand for the same thing. -/
structure Service (κ α σ : Type) where
  serve : κ → σ → α × σ
  rearranges : σ → σ → Prop

/-- The state of a service and the calls it has answered, newest first. -/
structure Log (κ α σ : Type) where
  state : σ
  served : List (κ × α)

/-- A call, or a rearrangement of the state. -/
inductive Move (κ σ : Type) : Type
  | call (c : κ)
  | rearrange (s : σ)

variable {κ α σ τ : Type}

/-- The log before any call. -/
def Log.start (s : σ) : Log κ α σ := ⟨s, []⟩

namespace Service

variable (S : Service κ α σ)

/-- The log after one more call. -/
def answer (c : κ) (log : Log κ α σ) : Log κ α σ :=
  ⟨(S.serve c log.state).2, (c, (S.serve c log.state).1) :: log.served⟩

/-- The service as a transition system. -/
def system [∀ s s', Decidable (S.rearranges s s')] : System (Log κ α σ) (Move κ σ) where
  step log
    | .call c => some (S.answer c log)
    | .rearrange s => if S.rearranges log.state s then some { log with state := s } else none

variable {S} [∀ s s', Decidable (S.rearranges s s')]

/-- What a step does: a call is answered, or the state is rearranged. -/
theorem step_cases {log log' : Log κ α σ} {t : Move κ σ} (h : S.system.step log t = some log') :
    (∃ c, t = .call c ∧ log' = S.answer c log) ∨
      ∃ s, t = .rearrange s ∧ S.rearranges log.state s ∧ log' = { log with state := s } := by
  cases t with
  | call c => exact Or.inl ⟨c, rfl, (Option.some.inj h).symm⟩
  | rearrange s =>
    right
    rw [system] at h
    by_cases hs : S.rearranges log.state s
    · simp only [hs, if_true] at h
      exact ⟨s, rfl, hs, (Option.some.inj h).symm⟩
    · simp only [hs, if_false] at h
      exact absurd h (by simp)

end Service

/-! ## Own calls -/

/-- What the calls of one kind bring, newest first; `own` tells which calls those are. -/
def ownCalls (own : κ → Option τ) (served : List (κ × α)) : List τ :=
  served.filterMap fun e => own e.1

/-- The calls of one kind with their answers. -/
def ownAnswers (own : κ → Option τ) (served : List (κ × α)) : List (τ × α) :=
  served.filterMap fun e => (own e.1).map fun t => (t, e.2)

/-- The answers of a rule that looks at the calls before each one. -/
def replay (rule : List τ → τ → α) : List τ → List (τ × α)
  | [] => []
  | t :: ts => (t, rule ts t) :: replay rule ts

section

variable {own : κ → Option τ} {rule : List τ → τ → α} {served : List (κ × α)} {c : κ} {a : α}
  {t : τ}

theorem ownCalls_cons_some (h : own c = some t) :
    ownCalls own ((c, a) :: served) = t :: ownCalls own served :=
  List.filterMap_cons_some h

theorem ownCalls_cons_none (h : own c = none) :
    ownCalls own ((c, a) :: served) = ownCalls own served :=
  List.filterMap_cons_none h

theorem ownCalls_append (own : κ → Option τ) (served served' : List (κ × α)) :
    ownCalls own (served ++ served') = ownCalls own served ++ ownCalls own served' :=
  List.filterMap_append

theorem ownAnswers_cons_some (h : own c = some t) :
    ownAnswers own ((c, a) :: served) = (t, a) :: ownAnswers own served := by
  rw [ownAnswers, List.filterMap_cons, h]
  rfl

theorem ownAnswers_cons_none (h : own c = none) :
    ownAnswers own ((c, a) :: served) = ownAnswers own served := by
  rw [ownAnswers, List.filterMap_cons, h]
  rfl

/-- A call of the kind that is answered by the rule. -/
theorem replay_cons_some (h : own c = some t) (ha : a = rule (ownCalls own served) t)
    (hserved : ownAnswers own served = replay rule (ownCalls own served)) :
    ownAnswers own ((c, a) :: served) = replay rule (ownCalls own ((c, a) :: served)) := by
  rw [ownAnswers_cons_some h, ownCalls_cons_some h, replay, hserved, ha]

/-- Any other call. -/
theorem replay_cons_none (h : own c = none)
    (hserved : ownAnswers own served = replay rule (ownCalls own served)) :
    ownAnswers own ((c, a) :: served) = replay rule (ownCalls own ((c, a) :: served)) := by
  rw [ownAnswers_cons_none h, ownCalls_cons_none h, hserved]

/-- Two logs that a rule accounts for and that have the same own calls have the same own answers. -/
theorem ownAnswers_eq {served' : List (κ × α)}
    (h : ownAnswers own served = replay rule (ownCalls own served))
    (h' : ownAnswers own served' = replay rule (ownCalls own served'))
    (hcalls : ownCalls own served = ownCalls own served') :
    ownAnswers own served = ownAnswers own served' := by
  rw [h, h', hcalls]

/-- Every own answer is that of the rule to the own calls before it. -/
theorem answer_of_replay (h : ownAnswers own served = replay rule (ownCalls own served))
    {later earlier : List (κ × α)} (hsplit : served = later ++ (c, a) :: earlier)
    (hown : own c = some t) :
    a = rule (ownCalls own earlier) t ∧
      ownAnswers own earlier = replay rule (ownCalls own earlier) := by
  subst hsplit
  induction later with
  | nil =>
    rw [List.nil_append, ownAnswers_cons_some hown, ownCalls_cons_some hown, replay] at h
    obtain ⟨hhead, hrest⟩ := List.cons.inj h
    exact ⟨(Prod.mk.inj hhead).2, hrest⟩
  | cons e later ih =>
    apply ih
    rw [List.cons_append] at h
    cases hown' : own e.1 with
    | none => rwa [ownAnswers_cons_none hown', ownCalls_cons_none hown'] at h
    | some t' =>
      rw [ownAnswers_cons_some hown', ownCalls_cons_some hown', replay] at h
      exact (List.cons.inj h).2

end

/-- Numbers in falling order stay so under a larger first one. -/
theorem pairwise_later {t t' : ℕ} {ts : List ℕ} (h : (t :: ts).Pairwise (· ≥ ·)) (hle : t ≤ t') :
    (t' :: ts).Pairwise (· ≥ ·) := by
  obtain ⟨hhead, hrest⟩ := List.pairwise_cons.mp h
  exact List.pairwise_cons.mpr ⟨fun x hx => Nat.le_trans (hhead x hx) hle, hrest⟩

end Interleaving
