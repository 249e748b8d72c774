import Mathlib.Algebra.Group.Nat.Defs
import Mathlib.Data.Nat.Basic

/-!
# Numbers as decimal text

Reading an unsigned number of a bounded width as a standard parser does, digit by digit: what is
printed is read back.
-/

set_option autoImplicit false

namespace Texts

/-- The digits after those that made `n`, for numbers below a bound. -/
def parseRest (bound : ℕ) : ℕ → List Char → Except String ℕ
  | n, [] => .ok n
  | n, c :: rest =>
    if c.isDigit = false then .error "invalid digit found in string"
    else
      let next := 10 * n + (c.toNat - '0'.toNat)
      if next < bound then parseRest bound next rest
      else .error "number too large to fit in target type"

/-- A number below a bound, possibly after a plus sign. -/
def parseBounded (bound : ℕ) : List Char → Except String ℕ
  | [] => .error "cannot parse integer from empty string"
  | ['+'] => .error "invalid digit found in string"
  | '+' :: digits => parseRest bound 0 digits
  | digits => parseRest bound 0 digits

/-- Digits only make a number greater. -/
theorem le_ofDigitChars (n : ℕ) (digits : List Char) : n ≤ Nat.ofDigitChars 10 digits n := by
  induction digits generalizing n with
  | nil => exact Nat.le_of_eq rfl
  | cons c rest ih =>
    rw [Nat.ofDigitChars_cons]
    exact Nat.le_trans (by omega) (ih _)

/-- Digits are read as the number they write, if it is below the bound. -/
theorem parseRest_eq_ok {bound n : ℕ} {digits : List Char}
    (hdigits : ∀ c ∈ digits, c.isDigit = true) (hbound : Nat.ofDigitChars 10 digits n < bound) :
    parseRest bound n digits = .ok (Nat.ofDigitChars 10 digits n) := by
  induction digits generalizing n with
  | nil => rfl
  | cons c rest ih =>
    rw [Nat.ofDigitChars_cons] at hbound ⊢
    have hnext := Nat.lt_of_le_of_lt (le_ofDigitChars _ rest) hbound
    have hc := hdigits c List.mem_cons_self
    rw [parseRest, if_neg (by simp [hc])]
    simp only [if_pos hnext]
    exact ih (fun c' hc' => hdigits c' (List.mem_cons_of_mem _ hc')) hbound

/-- What is read after some digits: only digits, and a number below the bound. -/
theorem parseRest_ok_iff {bound n m : ℕ} (hn : n < bound) (digits : List Char) :
    parseRest bound n digits = .ok m ↔
      (∀ c ∈ digits, c.isDigit = true) ∧ Nat.ofDigitChars 10 digits n = m ∧ m < bound := by
  constructor
  · intro h
    induction digits generalizing n with
    | nil =>
      rw [parseRest] at h
      cases h
      exact ⟨nofun, rfl, hn⟩
    | cons c rest ih =>
      rw [parseRest] at h
      split at h
      · cases h
      · rename_i hc
        dsimp only at h
        split at h
        · rename_i hnext
          obtain ⟨hrest, hvalue, hm⟩ := ih hnext h
          refine ⟨?_, by rw [Nat.ofDigitChars_cons]; exact hvalue, hm⟩
          intro d hd
          obtain rfl | hd := List.mem_cons.mp hd
          · exact Bool.not_eq_false _ ▸ hc
          · exact hrest d hd
        · cases h
  · rintro ⟨hdigits, rfl, hm⟩
    exact parseRest_eq_ok hdigits hm

theorem parseBounded_of_ne_plus {bound : ℕ} {c : Char} {rest : List Char} (hc : c ≠ '+') :
    parseBounded bound (c :: rest) = parseRest bound 0 (c :: rest) := by
  rw [parseBounded]
  · exact List.cons_ne_nil c rest
  · exact fun h => hc (List.cons.inj h).1
  · exact fun _ h => hc (List.cons.inj h).1

/-- What is read: digits, or a plus sign and digits. -/
theorem parseBounded_ok_iff {bound m : ℕ} (hbound : 0 < bound) (num : List Char) :
    parseBounded bound num = .ok m ↔ ∃ digits, (num = digits ∨ num = '+' :: digits) ∧
      digits ≠ [] ∧ (∀ c ∈ digits, c.isDigit = true) ∧ Nat.ofDigitChars 10 digits 0 = m ∧
        m < bound := by
  match num with
  | [] =>
    refine ⟨nofun, ?_⟩
    rintro ⟨digits, hnum | hnum, hne, -⟩
    · exact absurd hnum.symm hne
    · cases hnum
  | c :: rest =>
    by_cases hc : c = '+'
    · subst hc
      constructor
      · intro h
        cases rest with
        | nil => cases h
        | cons d rest =>
          obtain ⟨hdigits, hvalue, hm⟩ := (parseRest_ok_iff hbound (d :: rest)).mp h
          exact ⟨d :: rest, Or.inr rfl, List.cons_ne_nil d rest, hdigits, hvalue, hm⟩
      · rintro ⟨digits, hnum | hnum, hne, hdigits, hvalue, hm⟩
        · have hplus := hdigits '+' (hnum ▸ List.mem_cons_self)
          exact absurd hplus (by decide)
        · obtain rfl := (List.cons.inj hnum).2
          obtain ⟨d, rest, rfl⟩ := List.exists_cons_of_ne_nil hne
          exact (parseRest_ok_iff hbound (d :: rest)).mpr ⟨hdigits, hvalue, hm⟩
    · rw [parseBounded_of_ne_plus hc, parseRest_ok_iff hbound]
      constructor
      · rintro ⟨hdigits, hvalue, hm⟩
        exact ⟨c :: rest, Or.inl rfl, List.cons_ne_nil c rest, hdigits, hvalue, hm⟩
      · rintro ⟨digits, hnum | hnum, -, hdigits, hvalue, hm⟩
        · rw [hnum]
          exact ⟨hdigits, hvalue, hm⟩
        · exact absurd (List.cons.inj hnum).1 hc

/-- A number below the bound is read back. -/
theorem parseBounded_repr {bound n : ℕ} (h : n < bound) :
    parseBounded bound n.repr.toList = .ok n := by
  have hdigits : ∀ c ∈ Nat.toDigits 10 n, c.isDigit = true := fun c hc =>
    Nat.isDigit_of_mem_toDigits (by decide) (by decide) hc
  have hread : parseRest bound 0 (Nat.toDigits 10 n) = .ok n := by
    have hvalue := Nat.ofDigitChars_ten_toDigits (n := n)
    rw [parseRest_eq_ok hdigits (by rw [hvalue]; exact h), hvalue]
  rw [Nat.toList_repr]
  unfold parseBounded
  split
  · rename_i heq
    exact absurd heq Nat.toDigits_ne_nil
  · rename_i heq
    exact absurd (hdigits '+' (by simp [heq])) (by decide)
  · rename_i heq
    exact absurd (hdigits '+' (by simp [heq])) (by decide)
  · exact hread

end Texts
