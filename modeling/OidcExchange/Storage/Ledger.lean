import Mathlib.Data.Set.Insert
import Mathlib.Logic.Relation

/-!
# Ledgers of things with one current value

A thing is unborn, active with a current value, or ended. It is opened with a value that was never
used, its value is renewed by one that was never used, and any number of things are closed at
once. So a thing that has ended stays ended, and a value that is no longer current never is again.
-/

set_option autoImplicit false

namespace Storage

/-- What has become of a thing. -/
inductive Phase (α : Type*) : Type _
  | unborn
  | active (current : α)
  | ended

/-- The phases of all things, and the values that were used. -/
structure Ledger (ι α : Type*) : Type _ where
  phase : ι → Phase α
  used : Set α

namespace Ledger

variable {ι α : Type*}

/-- Nothing is born, and no value is used. -/
def blank : Ledger ι α := ⟨fun _ => .unborn, ∅⟩

/-- One change of a ledger. -/
inductive Step (l l' : Ledger ι α) : Prop
  | opened (i : ι) (a : α) (unborn : l.phase i = .unborn) (fresh : a ∉ l.used)
      (phase : l'.phase i = .active a) (others : ∀ j, j ≠ i → l'.phase j = l.phase j)
      (used : l'.used = insert a l.used)
  | renewed (i : ι) (a b : α) (current : l.phase i = .active a) (fresh : b ∉ l.used)
      (phase : l'.phase i = .active b) (others : ∀ j, j ≠ i → l'.phase j = l.phase j)
      (used : l'.used = insert b l.used)
  | closed (phase : ∀ i, l'.phase i = l.phase i ∨
        (∃ a, l.phase i = .active a) ∧ l'.phase i = .ended)
      (used : l'.used = l.used)

/-- Any number of changes. -/
abbrev Reaches : Ledger ι α → Ledger ι α → Prop := Relation.ReflTransGen Step

/-- Current values are used, and belong to one thing. -/
structure Sound (l : Ledger ι α) : Prop where
  used : ∀ i a, l.phase i = .active a → a ∈ l.used
  unique : ∀ i j a, l.phase i = .active a → l.phase j = .active a → i = j

variable {l l' : Ledger ι α} {i : ι} {a : α}

theorem sound_blank : (blank : Ledger ι α).Sound where
  used := by rintro i a ⟨⟩
  unique := by rintro i j a ⟨⟩

namespace Step

theorem used_subset (h : Step l l') : l.used ⊆ l'.used := by
  cases h with
  | opened i a _ _ _ _ used => exact used ▸ Set.subset_insert a l.used
  | renewed i a b _ _ _ _ used => exact used ▸ Set.subset_insert b l.used
  | closed _ used => exact used.ge

/-- What is current after a change was current before it, or was never used. -/
theorem active_of_active (h : Step l l') (ha : l'.phase i = .active a) :
    l.phase i = .active a ∨ a ∉ l.used := by
  have hset : ∀ {j b}, l'.phase j = .active b → b ∉ l.used → (∀ k, k ≠ j → l'.phase k = l.phase k) →
      l.phase i = .active a ∨ a ∉ l.used := by
    intro j b hb hfresh hothers
    by_cases hij : i = j
    · subst hij
      cases ha.symm.trans hb
      exact .inr hfresh
    · exact .inl ((hothers i hij).symm.trans ha)
  cases h with
  | opened j b _ fresh phase others _ => exact hset phase fresh others
  | renewed j _ b _ fresh phase others _ => exact hset phase fresh others
  | closed phase _ =>
    obtain hsame | ⟨-, hended⟩ := phase i
    · exact .inl (hsame.symm.trans ha)
    · cases ha.symm.trans hended

/-- A thing that has ended stays ended. -/
theorem ended (h : Step l l') (hi : l.phase i = .ended) : l'.phase i = .ended := by
  cases h with
  | opened j b unborn _ _ others _ =>
    rw [others i, hi]
    rintro rfl
    cases hi.symm.trans unborn
  | renewed j b _ current _ _ others _ =>
    rw [others i, hi]
    rintro rfl
    cases hi.symm.trans current
  | closed phase _ =>
    obtain hsame | ⟨⟨b, hb⟩, -⟩ := phase i
    · exact hsame.trans hi
    · cases hi.symm.trans hb

/-- Current values stay used and unique. -/
theorem sound (h : Step l l') (hl : l.Sound) : l'.Sound := by
  have hset : ∀ {j b}, l'.phase j = .active b → b ∉ l.used →
      (∀ k, k ≠ j → l'.phase k = l.phase k) → l'.used = insert b l.used → l'.Sound := by
    intro j b hb hfresh hothers hused
    have hother : ∀ {k}, k ≠ j → l'.phase k ≠ .active b := fun hk hkb =>
      hfresh (hl.used _ b ((hothers _ hk).symm.trans hkb))
    constructor
    · intro k c hc
      rw [hused]
      by_cases hk : k = j
      · subst hk
        cases hc.symm.trans hb
        exact Set.mem_insert ..
      · exact Set.mem_insert_of_mem _ (hl.used k c ((hothers k hk).symm.trans hc))
    · intro k k' c hc hc'
      by_cases hk : k = j
      · subst hk
        cases hc.symm.trans hb
        by_contra hne
        exact hother (Ne.symm hne) hc'
      · by_cases hk' : k' = j
        · subst hk'
          cases hc'.symm.trans hb
          exact absurd hc (hother hk)
        · exact hl.unique k k' c ((hothers k hk).symm.trans hc) ((hothers k' hk').symm.trans hc')
  cases h with
  | opened j b _ fresh phase others used => exact hset phase fresh others used
  | renewed j _ b _ fresh phase others used => exact hset phase fresh others used
  | closed phase used =>
    have hactive : ∀ k c, l'.phase k = .active c → l.phase k = .active c := by
      intro k c hc
      obtain hsame | ⟨-, hended⟩ := phase k
      · exact hsame.symm.trans hc
      · cases hc.symm.trans hended
    exact ⟨fun k c hc => used ▸ hl.used k c (hactive k c hc),
      fun k k' c hc hc' => hl.unique k k' c (hactive k c hc) (hactive k' c hc')⟩

end Step

namespace Reaches

theorem sound (h : Reaches l l') (hl : l.Sound) : l'.Sound := by
  induction h with
  | refl => exact hl
  | tail _ hstep ih => exact hstep.sound ih

theorem used_subset (h : Reaches l l') : l.used ⊆ l'.used := by
  induction h with
  | refl => exact subset_rfl
  | tail _ hstep ih => exact ih.trans hstep.used_subset

/-- **The end is final.** -/
theorem ended (h : Reaches l l') (hi : l.phase i = .ended) : l'.phase i = .ended := by
  induction h with
  | refl => exact hi
  | tail _ hstep ih => exact hstep.ended ih

/-- A used value that is current now was current all along, for the same thing. -/
theorem active_of_active (h : Reaches l l') (hused : a ∈ l.used) (ha : l'.phase i = .active a) :
    l.phase i = .active a := by
  induction h with
  | refl => exact ha
  | tail hreaches hstep ih =>
    obtain hbefore | hfresh := hstep.active_of_active ha
    · exact ih hbefore
    · exact absurd (used_subset hreaches hused) hfresh

/-- **A value that was used up is never current again.** -/
theorem spent (h : Reaches l l') (hused : a ∈ l.used) (hnot : ∀ j, l.phase j ≠ .active a) (i : ι) :
    l'.phase i ≠ .active a :=
  fun ha => hnot i (h.active_of_active hused ha)

end Reaches

end Ledger

end Storage
