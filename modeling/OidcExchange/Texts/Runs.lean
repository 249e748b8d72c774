import Mathlib.Data.List.Basic

/-!
# Runs between separators

Separators split a list into runs. Every run lies between separators or the ends, a word without
separators lies in a list exactly if it lies in a run, and a run between separators is one whatever
stands around it.
-/

set_option autoImplicit false

namespace Texts

variable {α : Type} {sep : α → Bool}

/-- No separator is in the list. -/
def Unseparated (sep : α → Bool) (xs : List α) : Prop := ∀ x ∈ xs, sep x = false

theorem Unseparated.of_infix {xs ys : List α} (h : Unseparated sep ys) (hin : xs <:+: ys) :
    Unseparated sep xs :=
  fun x hx => h x (hin.subset hx)

variable (sep) in
/-- A list is a run, or begins with a run and a separator. -/
theorem runs_induction {P : List α → Prop} (last : ∀ run, Unseparated sep run → P run)
    (more : ∀ run c rest, Unseparated sep run → sep c = true → P rest → P (run ++ c :: rest))
    (text : List α) : P text := by
  have h : ∀ run, Unseparated sep run → P (run ++ text) := by
    induction text with
    | nil =>
      intro run hrun
      rw [List.append_nil]
      exact last run hrun
    | cons c rest ih =>
      intro run hrun
      cases hc : sep c with
      | true => exact more run c rest hrun hc (ih [] nofun)
      | false =>
        have hlonger : Unseparated sep (run ++ [c]) := by
          intro x hx
          obtain hx | hx := List.mem_append.mp hx
          · exact hrun x hx
          · exact List.mem_singleton.mp hx ▸ hc
        rw [List.append_cons]
        exact ih (run ++ [c]) hlonger
  exact h [] nofun

/-- A word lies around an element that is not in it only if it lies on one side. -/
theorem infix_append_cons_iff {word : List α} {c : α} (hc : c ∉ word) (xs ys : List α) :
    word <:+: xs ++ c :: ys ↔ word <:+: xs ∨ word <:+: ys := by
  constructor
  · rintro ⟨before, after, h⟩
    rw [List.append_assoc] at h
    obtain ⟨gap, hxs, hafter⟩ | ⟨gap, hbefore, hys⟩ := List.append_eq_append_iff.mp h
    · obtain ⟨more, hgap, -⟩ | ⟨more, hword, hcons⟩ := List.append_eq_append_iff.mp hafter
      · exact Or.inl ⟨before, more, by rw [hxs, hgap, List.append_assoc]⟩
      · cases more with
        | nil =>
          rw [List.append_nil] at hword
          exact Or.inl ⟨before, [], by rw [hxs, hword, List.append_nil]⟩
        | cons d more =>
          have hd : c = d := (List.cons.inj hcons).1
          refine absurd ?_ hc
          rw [hword, hd]
          exact List.mem_append_right _ List.mem_cons_self
    · cases gap with
      | nil =>
        cases word with
        | nil => exact Or.inl (List.nil_infix)
        | cons d word =>
          have hd : c = d := (List.cons.inj hys).1
          exact absurd (hd ▸ List.mem_cons_self) hc
      | cons d gap =>
        refine Or.inr ⟨gap, after, ?_⟩
        rw [List.append_assoc]
        exact (List.cons.inj hys).2.symm
  · rintro (h | h)
    · exact List.infix_append_of_infix_left h
    · exact List.infix_append_of_infix_right (List.infix_cons h)

/-- A word without separators lies in a run, or not at all. -/
theorem infix_iff_run {word : List α} (hword : Unseparated sep word) (text : List α) :
    word <:+: text ↔ ∃ run ∈ text.splitOnP sep, word <:+: run := by
  induction text using runs_induction sep with
  | last run hrun =>
    rw [List.splitOnP_eq_singleton hrun]
    exact ⟨fun h => ⟨run, List.mem_singleton_self run, h⟩,
      fun ⟨_, hmem, h⟩ => List.mem_singleton.mp hmem ▸ h⟩
  | more run c rest hrun hc ih =>
    have hnot : c ∉ word := fun hmem => by
      have hfalse := hword c hmem
      rw [hc] at hfalse
      cases hfalse
    rw [infix_append_cons_iff hnot, ih, List.splitOnP_append_cons_of_forall_mem hrun c hc]
    simp only [List.mem_cons, exists_eq_or_imp]

/-- The first separator of a list is at one place. -/
theorem append_cons_inj_of_unseparated {xs ys as bs : List α} {c d : α}
    (hxs : Unseparated sep xs) (hys : Unseparated sep ys) (hc : sep c = true) (hd : sep d = true)
    (h : xs ++ c :: as = ys ++ d :: bs) : xs = ys ∧ c = d ∧ as = bs := by
  have hno : ∀ {zs : List α}, Unseparated sep zs → ∀ x, sep x = true → x ∉ zs := by
    intro zs hzs x hx hmem
    have hfalse := hzs x hmem
    rw [hx] at hfalse
    cases hfalse
  obtain ⟨gap, hys', hcons⟩ | ⟨gap, hxs', hcons⟩ := List.append_eq_append_iff.mp h
  · cases gap with
    | nil =>
      rw [List.append_nil] at hys'
      obtain ⟨hcd, has⟩ := List.cons.inj hcons
      exact ⟨hys'.symm, hcd, has⟩
    | cons e gap =>
      have hce : c = e := (List.cons.inj hcons).1
      refine absurd ?_ (hno hys c hc)
      rw [hys', hce]
      exact List.mem_append_right _ List.mem_cons_self
  · cases gap with
    | nil =>
      rw [List.append_nil] at hxs'
      obtain ⟨hdc, hbs⟩ := List.cons.inj hcons
      exact ⟨hxs', hdc.symm, hbs.symm⟩
    | cons e gap =>
      have hde : d = e := (List.cons.inj hcons).1
      refine absurd ?_ (hno hxs d hd)
      rw [hxs', hde]
      exact List.mem_append_right _ List.mem_cons_self

/-! ## What stands around a run -/

/-- The texts around a word begin and end with separators. -/
structure SeparatedBy (sep : α → Bool) (before after : List α) : Prop where
  before : ∀ c, before.getLast? = some c → sep c = true
  after : ∀ c, after.head? = some c → sep c = true

theorem separatedBy_singletons {c d : α} (hc : sep c = true) (hd : sep d = true) :
    SeparatedBy sep [c] [d] := by
  constructor
  · intro e he
    cases he
    exact hc
  · intro e he
    cases he
    exact hd

/-- A run has no separators, and separators around it. -/
theorem exists_of_mem_runs {run text : List α} (h : run ∈ text.splitOnP sep) :
    Unseparated sep run ∧ ∃ before after, text = before ++ run ++ after ∧
      SeparatedBy sep before after := by
  induction text using runs_induction sep with
  | last piece hpiece =>
    rw [List.splitOnP_eq_singleton hpiece, List.mem_singleton] at h
    subst h
    exact ⟨hpiece, [], [], (List.append_nil _).symm, nofun, nofun⟩
  | more piece c rest hpiece hc ih =>
    rw [List.splitOnP_append_cons_of_forall_mem hpiece c hc, List.mem_cons] at h
    obtain rfl | h := h
    · refine ⟨hpiece, [], c :: rest, rfl, nofun, fun d hd => ?_⟩
      rw [List.head?_cons] at hd
      exact Option.some.inj hd ▸ hc
    · obtain ⟨hrun, before, after, hrest, haround⟩ := ih h
      refine ⟨hrun, piece ++ c :: before, after, ?_, fun d hd => ?_, haround.after⟩
      · rw [hrest, List.append_assoc, List.append_assoc, List.append_assoc, List.cons_append]
      · rw [List.getLast?_append, List.getLast?_cons] at hd
        cases hlast : before.getLast? with
        | none =>
          rw [hlast] at hd
          exact Option.some.inj hd ▸ hc
        | some e =>
          rw [hlast] at hd
          exact Option.some.inj hd ▸ haround.before e hlast

/-- Whatever separators follow, the runs after a run are those of the rest. -/
theorem mem_runs_append {run after piece : List α} (hrun : Unseparated sep run)
    (hafter : ∀ c, after.head? = some c → sep c = true) (hpiece : piece ≠ []) :
    piece ∈ (run ++ after).splitOnP sep ↔ piece = run ∨ piece ∈ after.splitOnP sep := by
  cases after with
  | nil =>
    rw [List.append_nil, List.splitOnP_eq_singleton hrun, List.splitOnP_nil, List.mem_singleton,
      List.mem_singleton, or_iff_left hpiece]
  | cons c rest =>
    have hc : sep c = true := hafter c rfl
    rw [List.splitOnP_append_cons_of_forall_mem hrun c hc, List.mem_cons,
      List.splitOnP_cons_eq_if_modifyHead, if_pos hc, List.mem_cons, or_iff_right hpiece]

/-- The runs around a run are those of what precedes and what follows it. -/
theorem mem_runs_around {before run after piece : List α} (hrun : Unseparated sep run)
    (haround : SeparatedBy sep before after) (hpiece : piece ≠ []) :
    piece ∈ (before ++ run ++ after).splitOnP sep ↔
      piece ∈ before.splitOnP sep ∨ piece = run ∨ piece ∈ after.splitOnP sep := by
  rw [← mem_runs_append hrun haround.after hpiece, List.append_assoc]
  obtain rfl | ⟨front, c, rfl⟩ := List.eq_nil_or_concat before
  · rw [List.nil_append, List.splitOnP_nil, List.mem_singleton, or_iff_right hpiece]
  · have hc : sep c = true := haround.before c (by rw [List.concat_eq_append, List.getLast?_concat])
    rw [List.concat_eq_append, ← List.append_cons, List.splitOnP_append_cons _ _ hc,
      List.splitOnP_append_cons _ _ hc, List.splitOnP_nil, List.mem_append, List.mem_append,
      List.mem_singleton, or_iff_left hpiece]

end Texts
