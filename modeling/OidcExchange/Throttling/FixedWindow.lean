import Mathlib.Algebra.Group.Nat.Defs
import Mathlib.Data.Nat.Notation
import Mathlib.Order.Basic
import Mathlib.Data.List.Pairwise

/-!
# Fixed windows

Hits arrive at instants of a clock that never goes back. The first hit opens a window of a fixed
span; a hit within the span counts towards it, and the first hit after it opens the next one. A
meter keeps no more than a budget of the count, which is enough to tell whether the budget is
spent.
-/

set_option autoImplicit false

namespace Throttling

/-- The window that hits, newest first, have led to: when it opened and how many hits it has. -/
def window (span : ℕ) : List ℕ → Option (ℕ × ℕ)
  | [] => none
  | t :: earlier =>
    match window span earlier with
    | some (opened, n) => if t - opened < span then some (opened, n + 1) else some (t, 1)
    | none => some (t, 1)

/-- How many hits the window has that is open at an instant. -/
def hitsAt (span : ℕ) (hits : List ℕ) (now : ℕ) : ℕ :=
  match window span hits with
  | some (opened, n) => if now - opened < span then n else 0
  | none => 0

section

variable {span now opened n : ℕ} {hits : List ℕ}

@[simp] theorem window_nil : window span [] = none := rfl

@[simp] theorem hitsAt_nil : hitsAt span [] now = 0 := rfl

/-- A window that is still open has its hits. -/
theorem hitsAt_of_open (h : window span hits = some (opened, n)) (hopen : now - opened < span) :
    hitsAt span hits now = n := by
  simp [hitsAt, h, hopen]

/-- A window that has closed has none. -/
theorem hitsAt_of_closed (h : window span hits = some (opened, n))
    (hclosed : ¬ now - opened < span) : hitsAt span hits now = 0 := by
  simp [hitsAt, h, hclosed]

/-- A hit while the window is open counts towards it. -/
theorem window_cons_of_open (h : window span hits = some (opened, n))
    (hopen : now - opened < span) : window span (now :: hits) = some (opened, n + 1) := by
  simp [window, h, hopen]

/-- A hit while no window is open opens one. -/
theorem window_cons_of_closed
    (h : ∀ opened n, window span hits = some (opened, n) → ¬ now - opened < span) :
    window span (now :: hits) = some (now, 1) := by
  cases hwindow : window span hits with
  | none => simp [window, hwindow]
  | some w =>
    obtain ⟨opened, n⟩ := w
    simp [window, hwindow, h opened n hwindow]

end

/-! ## Meters -/

/-- What a meter keeps of a window: when it opened, and the hits up to the budget. -/
structure Bucket : Type where
  startedAt : ℕ
  consumed : ℕ
  deriving DecidableEq

/-- A meter agrees with the hits: a bucket that is kept stands for the window, and where none is
kept no window is open. -/
def Meters (span budget now : ℕ) (hits : List ℕ) : Option Bucket → Prop
  | some bucket => ∃ n, window span hits = some (bucket.startedAt, n) ∧ bucket.consumed = min n budget
  | none => ∀ opened n, window span hits = some (opened, n) → ¬ now - opened < span

section Meters

variable {span budget now later : ℕ} {hits : List ℕ} {bucket : Bucket}

theorem meters_nil : Meters span budget now [] none := by
  simp [Meters]

/-- Time passes. -/
theorem Meters.of_le {kept : Option Bucket} (h : Meters span budget now hits kept)
    (hlater : now ≤ later) : Meters span budget later hits kept := by
  cases kept with
  | some bucket => exact h
  | none =>
    intro opened n hwindow hopen
    apply h opened n hwindow
    omega

/-- A bucket whose window has closed may be dropped. -/
theorem Meters.dropped (h : Meters span budget now hits (some bucket))
    (hclosed : ¬ now - bucket.startedAt < span) : Meters span budget now hits none := by
  obtain ⟨n, hwindow, -⟩ := h
  intro opened n' hwindow'
  rw [hwindow] at hwindow'
  obtain ⟨rfl, -⟩ := Prod.mk.inj (Option.some.inj hwindow')
  exact hclosed

/-- One more hit on an open window. -/
theorem Meters.hit (h : Meters span budget now hits (some bucket))
    (hopen : now - bucket.startedAt < span) :
    Meters span budget now (now :: hits)
      (some { bucket with consumed := min (bucket.consumed + 1) budget }) := by
  obtain ⟨n, hwindow, hconsumed⟩ := h
  refine ⟨n + 1, window_cons_of_open hwindow hopen, ?_⟩
  show min (bucket.consumed + 1) budget = min (n + 1) budget
  omega

/-- The first hit of a window. -/
theorem Meters.opened (h : Meters span budget now hits none) (hbudget : 0 < budget) :
    Meters span budget now (now :: hits) (some { startedAt := now, consumed := 1 }) := by
  refine ⟨1, window_cons_of_closed h, ?_⟩
  show 1 = min 1 budget
  omega

end Meters

/-! ## Admissions -/

/-- When the window of a hit began, and how many hits it has with it; the hits before it are newest
first. -/
def standing (span : ℕ) (hits : List ℕ) (t : ℕ) : ℕ × ℕ :=
  match window span hits with
  | some (opened, n) => if t - opened < span then (opened, n + 1) else (t, 1)
  | none => (t, 1)

/-- How many hits of the window that began at an instant are within the budget. -/
def admittedIn (span budget opened : ℕ) : List ℕ → ℕ
  | [] => 0
  | t :: hits => admittedIn span budget opened hits +
      if (standing span hits t).1 = opened ∧ (standing span hits t).2 ≤ budget then 1 else 0

section Admissions

variable {span budget opened n t : ℕ} {hits : List ℕ}

theorem window_cons (span : ℕ) (hits : List ℕ) (t : ℕ) :
    window span (t :: hits) = some (standing span hits t) := by
  rw [window, standing]
  cases window span hits with
  | none => rfl
  | some w =>
    obtain ⟨opened, n⟩ := w
    simp only
    split <;> rfl

/-- After a hit there is a window. -/
theorem exists_window (more : List ℕ) (t : ℕ) (hits : List ℕ) :
    ∃ opened n, window span (more ++ t :: hits) = some (opened, n) := by
  cases more with
  | nil => exact ⟨_, _, window_cons span hits t⟩
  | cons t' more => exact ⟨_, _, window_cons span (more ++ t :: hits) t'⟩

theorem standing_of_open (h : window span hits = some (opened, n)) (hopen : t - opened < span) :
    standing span hits t = (opened, n + 1) := by
  simp [standing, h, hopen]

theorem standing_of_closed
    (h : ∀ opened n, window span hits = some (opened, n) → ¬ t - opened < span) :
    standing span hits t = (t, 1) := by
  cases hwindow : window span hits with
  | none => simp [standing, hwindow]
  | some w => simp [standing, hwindow, h w.1 w.2 hwindow]

/-- A hit either belongs to the window that is there or opens one. -/
theorem standing_cases (span : ℕ) (hits : List ℕ) (t : ℕ) :
    (∃ opened n, window span hits = some (opened, n) ∧ t - opened < span ∧
      standing span hits t = (opened, n + 1)) ∨
    ((∀ opened n, window span hits = some (opened, n) → ¬ t - opened < span) ∧
      standing span hits t = (t, 1)) := by
  by_cases h : ∃ opened n, window span hits = some (opened, n) ∧ t - opened < span
  · obtain ⟨opened, n, hwindow, hopen⟩ := h
    exact Or.inl ⟨opened, n, hwindow, hopen, standing_of_open hwindow hopen⟩
  · have hclosed : ∀ opened n, window span hits = some (opened, n) → ¬ t - opened < span :=
      fun opened n hwindow hopen => h ⟨opened, n, hwindow, hopen⟩
    exact Or.inr ⟨hclosed, standing_of_closed hclosed⟩

/-- The hits of the window are those before it that still count, and the hit itself. -/
theorem standing_hitsAt (span : ℕ) (hits : List ℕ) (t : ℕ) :
    (standing span hits t).2 = hitsAt span hits t + 1 := by
  obtain ⟨opened, n, hwindow, hopen, hstanding⟩ | ⟨hclosed, hstanding⟩ := standing_cases span hits t
  · rw [hstanding, hitsAt_of_open hwindow hopen]
  · rw [hstanding]
    cases hwindow : window span hits with
    | none => simp [hitsAt, hwindow]
    | some w => simp [hitsAt_of_closed hwindow (hclosed _ _ hwindow)]

/-- A window began with one of the hits. -/
theorem opened_mem (h : window span hits = some (opened, n)) : opened ∈ hits := by
  induction hits generalizing opened n with
  | nil => exact nomatch h
  | cons t hits ih =>
    rw [window_cons] at h
    obtain ⟨opened', n', hwindow, -, hstanding⟩ | ⟨-, hstanding⟩ := standing_cases span hits t
    · rw [hstanding] at h
      obtain ⟨rfl, -⟩ := Prod.mk.inj (Option.some.inj h)
      exact List.mem_cons_of_mem _ (ih hwindow)
    · rw [hstanding] at h
      obtain ⟨rfl, -⟩ := Prod.mk.inj (Option.some.inj h)
      exact List.mem_cons_self

/-- A hit is within its window. -/
theorem standing_within (hspan : 0 < span) (hlatest : ∀ t' ∈ hits, t' ≤ t) :
    (standing span hits t).1 ≤ t ∧ t < (standing span hits t).1 + span := by
  obtain ⟨opened, n, hwindow, hopen, hstanding⟩ | ⟨-, hstanding⟩ := standing_cases span hits t
  · have hle := hlatest opened (opened_mem hwindow)
    rw [hstanding]
    simp only
    omega
  · rw [hstanding]
    simp only
    omega

/-- The window of an earlier hit is the current one, or it had ended when that began. -/
theorem windows_apart (hspan : 0 < span) (more : List ℕ)
    (h : window span (more ++ t :: hits) = some (opened, n)) :
    (standing span hits t).1 = opened ∨ (standing span hits t).1 + span ≤ opened := by
  induction more generalizing opened n with
  | nil =>
    rw [List.nil_append, window_cons] at h
    exact Or.inl (congrArg Prod.fst (Option.some.inj h))
  | cons t' more ih =>
    rw [List.cons_append, window_cons] at h
    obtain ⟨opened', n', hwindow, -, hstanding⟩ | ⟨hclosed, hstanding⟩ :=
      standing_cases span (more ++ t :: hits) t'
    · rw [hstanding] at h
      obtain ⟨rfl, -⟩ := Prod.mk.inj (Option.some.inj h)
      exact ih hwindow
    · rw [hstanding] at h
      obtain ⟨rfl, -⟩ := Prod.mk.inj (Option.some.inj h)
      obtain ⟨opened', n', hwindow⟩ := @exists_window span more t hits
      have hbefore := ih hwindow
      have hnot := hclosed opened' n' hwindow
      omega

/-- While the window of an earlier hit runs, every hit belongs to it. -/
theorem standing_of_running (hspan : 0 < span) {later : ℕ} (more : List ℕ)
    (hlatest : ∀ t' ∈ more ++ t :: hits, t' ≤ later)
    (hrunning : later < (standing span hits t).1 + span) :
    (standing span (more ++ t :: hits) later).1 = (standing span hits t).1 := by
  obtain ⟨opened, n, hwindow, -, hstanding⟩ | ⟨hclosed, hstanding⟩ :=
    standing_cases span (more ++ t :: hits) later
  · have hle := hlatest opened (opened_mem hwindow)
    have hapart := windows_apart hspan more hwindow
    rw [hstanding]
    simp only
    omega
  · obtain ⟨opened, n, hwindow⟩ := @exists_window span more t hits
    have hapart := windows_apart hspan more hwindow
    have hnot := hclosed opened n hwindow
    omega

/-- Nothing has been admitted in a window that opens with a hit. -/
theorem admittedIn_fresh (hclosed : ∀ opened n, window span hits = some (opened, n) →
      ¬ t - opened < span)
    (hnone : ∀ opened n, window span hits = some (opened, n) → ∀ later, opened < later →
      admittedIn span budget later hits = 0) (hspan : 0 < span) {later : ℕ} (hlater : t ≤ later) :
    admittedIn span budget later hits = 0 := by
  cases hits with
  | nil => rfl
  | cons t' hits =>
    have hwindow := window_cons span hits t'
    have hnot := hclosed _ _ hwindow
    apply hnone _ _ hwindow
    omega

/-- What has been admitted in the current window, and in one that is yet to begin. -/
theorem admittedIn_window (hspan : 0 < span) (h : window span hits = some (opened, n)) :
    admittedIn span budget opened hits = min n budget ∧
      ∀ later, opened < later → admittedIn span budget later hits = 0 := by
  induction hits generalizing opened n with
  | nil => exact nomatch h
  | cons t hits ih =>
    rw [window_cons] at h
    obtain ⟨opened', n', hwindow, -, hstanding⟩ | ⟨hclosed, hstanding⟩ := standing_cases span hits t
    · obtain ⟨hcount, hnone⟩ := ih hwindow
      rw [hstanding] at h
      obtain ⟨rfl, rfl⟩ := Prod.mk.inj (Option.some.inj h)
      simp only [admittedIn, hstanding, hcount, true_and]
      refine ⟨?_, fun later hlater => ?_⟩
      · by_cases hleft : n' + 1 ≤ budget
        · rw [if_pos hleft]
          omega
        · rw [if_neg hleft]
          omega
      · rw [hnone later hlater, if_neg fun hsame => Nat.ne_of_lt hlater hsame.1]
    · have hfresh : ∀ later, t ≤ later → admittedIn span budget later hits = 0 := fun later =>
        admittedIn_fresh hclosed (fun _ _ hwindow => (ih hwindow).2) hspan
      rw [hstanding] at h
      obtain ⟨rfl, rfl⟩ := Prod.mk.inj (Option.some.inj h)
      simp only [admittedIn, hstanding, true_and]
      refine ⟨?_, fun later hlater => ?_⟩
      · rw [hfresh t (Nat.le_refl t), Nat.zero_add]
        by_cases hleft : 1 ≤ budget
        · rw [if_pos hleft]
          omega
        · rw [if_neg hleft]
          omega
      · rw [hfresh later (Nat.le_of_lt hlater), if_neg fun hsame => Nat.ne_of_lt hlater hsame.1]

/-- No window admits more than its budget. -/
theorem admittedIn_le (hspan : 0 < span) (opened : ℕ) (hits : List ℕ) :
    admittedIn span budget opened hits ≤ budget := by
  induction hits with
  | nil => exact Nat.zero_le _
  | cons t hits ih =>
    by_cases hsame : (standing span hits t).1 = opened
    · have hwindow : window span (t :: hits) = some (opened, (standing span hits t).2) := by
        rw [window_cons, ← hsame]
      rw [(admittedIn_window hspan hwindow).1]
      exact Nat.min_le_right _ _
    · rw [admittedIn, if_neg fun h => hsame h.1]
      exact ih

/-- A hit is within the budget exactly while its window has not admitted all of it. -/
theorem standing_le_iff (hspan : 0 < span) :
    (standing span hits t).2 ≤ budget ↔
      admittedIn span budget (standing span hits t).1 hits < budget := by
  obtain ⟨opened, n, hwindow, -, hstanding⟩ | ⟨hclosed, hstanding⟩ := standing_cases span hits t
  · rw [hstanding]
    simp only
    rw [(admittedIn_window hspan hwindow).1]
    omega
  · have hnone : admittedIn span budget t hits = 0 :=
      admittedIn_fresh hclosed (fun _ _ hwindow => (admittedIn_window hspan hwindow).2) hspan
        (Nat.le_refl t)
    rw [hstanding]
    simp only
    rw [hnone]
    omega

end Admissions

/-! ## Spaced instants

Instants with at least an interval between any two of them. To add one it is enough to look at the
newest.
-/

/-- Instants, newest first, with at least an interval between any two. -/
def Spaced (interval : ℕ) (instants : List ℕ) : Prop :=
  instants.Pairwise fun later earlier => earlier + interval ≤ later

@[simp] theorem spaced_nil (interval : ℕ) : Spaced interval [] := List.Pairwise.nil

/-- An instant that is an interval after the newest. -/
theorem Spaced.cons {interval now : ℕ} {instants : List ℕ} (h : Spaced interval instants)
    (hnewest : ∀ newest, instants.head? = some newest → newest + interval ≤ now) :
    Spaced interval (now :: instants) := by
  refine List.pairwise_cons.mpr ⟨fun earlier hmem => ?_, h⟩
  cases instants with
  | nil => exact absurd hmem (by simp)
  | cons newest older =>
    have hnow := hnewest newest rfl
    obtain rfl | hmem := List.mem_cons.mp hmem
    · exact hnow
    · have hle := (List.pairwise_cons.mp h).1 earlier hmem
      omega

end Throttling
