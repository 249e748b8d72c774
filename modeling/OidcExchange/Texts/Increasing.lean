import Mathlib.Algebra.Group.Nat.Defs
import Mathlib.Data.Nat.Basic
import Mathlib.Data.String.Basic

/-!
# Texts that sort like numbers

A number is written part by part: its place among consecutive intervals, then the distance from
the start of its interval. Where the first part has a fixed width and both parts sort like their
numbers, the whole text does. Texts are compared character by character.
-/

set_option autoImplicit false

namespace Texts

/-! ## Comparing texts -/

section Compare

variable {a b x y : List Char}

/-- Texts of one length that differ are compared by it, whatever follows them. -/
theorem append_lt_append (hlength : a.length = b.length) (h : a < b) : a ++ x < b ++ y := by
  induction a generalizing b with
  | nil =>
    cases b with
    | nil => exact absurd h (List.not_lt_nil [])
    | cons d b => exact absurd hlength (by simp)
  | cons c a ih =>
    cases b with
    | nil => exact absurd h (List.not_lt_nil _)
    | cons d b =>
      rw [List.cons_append, List.cons_append, List.cons_lt_cons_iff]
      rcases List.cons_lt_cons_iff.mp h with hlt | ⟨heq, hlt⟩
      · exact .inl hlt
      · exact .inr ⟨heq, ih (by simpa using hlength) hlt⟩

/-- The first characters decide. -/
theorem cons_lt_cons_of_lt {c d : Char} (h : c < d) : c :: x < d :: y :=
  List.cons_lt_cons_iff.mpr (.inl h)

end Compare

/-! ## Fixed width -/

/-- Texts of one width. -/
def Fixed {ι : Type*} (f : ι → List Char) : Prop := ∀ m n, (f m).length = (f n).length

/-- Below the bound the texts sort like the numbers. -/
def Increasing (bound : ℕ) (f : ℕ → List Char) : Prop := ∀ m n, m < n → n < bound → f m < f n

section Parts

variable {bound : ℕ} {index offset : ℕ → ℕ} {f : ℕ → List Char} {g : ℕ → ℕ → List Char}

theorem Increasing.mono {less : ℕ} (h : Increasing bound f) (hle : less ≤ bound) :
    Increasing less f :=
  fun m n hlt hn => h m n hlt (lt_of_lt_of_le hn hle)

/-- Numbers sort by their index first and by their offset within it. -/
def Splits (bound : ℕ) (index offset : ℕ → ℕ) : Prop :=
  ∀ m n, m < n → n < bound → index m < index n ∨ index m = index n ∧ offset m < offset n

/-- Quotient and remainder split a number. -/
theorem splits_div_mod (bound k : ℕ) : Splits bound (· / k) (· % k) := by
  intro m n hlt _
  rcases (Nat.div_le_div_right (c := k) hlt.le).lt_or_eq with h | h
  · exact .inl h
  · refine .inr ⟨h, ?_⟩
    have hm := Nat.div_add_mod m k
    have hn := Nat.div_add_mod n k
    have hquotient : m / k = n / k := h
    rw [hquotient] at hm
    show m % k < n % k
    omega

/-- The text of the index, of a fixed width, and then the text of the offset. -/
theorem Increasing.split {a : ℕ} {b : ℕ → ℕ} (hsplits : Splits bound index offset)
    (hfixed : Fixed f) (hf : Increasing a f) (hg : ∀ i, Increasing (b i) (g i))
    (hindex : ∀ n, n < bound → index n < a)
    (hoffset : ∀ n, n < bound → offset n < b (index n)) :
    Increasing bound fun n => f (index n) ++ g (index n) (offset n) := by
  intro m n hlt hn
  rcases hsplits m n hlt hn with h | ⟨h, hless⟩
  · exact append_lt_append (hfixed _ _) (hf _ _ h (hindex n hn))
  · show f (index m) ++ g (index m) (offset m) < f (index n) ++ g (index n) (offset n)
    rw [h]
    exact List.append_left_lt (hg _ _ _ hless (hoffset n hn))

/-- A constant text in front changes nothing. -/
theorem Increasing.prepend (s : List Char) (hf : Increasing bound f) :
    Increasing bound fun n => s ++ f n :=
  fun m n hlt hn => List.append_left_lt (hf m n hlt hn)

/-- A constant text after one of a fixed width changes nothing. -/
theorem Increasing.append (s : List Char) (hfixed : Fixed f) (hf : Increasing bound f) :
    Increasing bound fun n => f n ++ s :=
  fun m n hlt hn => append_lt_append (hfixed m n) (hf m n hlt hn)

/-- The text of the successor. -/
theorem Increasing.succ (hf : Increasing (bound + 1) f) : Increasing bound fun n => f (n + 1) :=
  fun _ _ hlt hn => hf _ _ (Nat.succ_lt_succ hlt) (Nat.succ_lt_succ hn)

theorem Fixed.append {ι : Type*} {p q : ι → List Char} (hp : Fixed p) (hq : Fixed q) :
    Fixed fun n => p n ++ q n := by
  intro m n
  rw [List.length_append, List.length_append, hp m n, hq m n]

theorem Fixed.const {ι : Type*} (s : List Char) : Fixed fun _ : ι => s := fun _ _ => rfl

theorem Fixed.comp {ι κ : Type*} {p : κ → List Char} (hp : Fixed p) (h : ι → κ) :
    Fixed fun n => p (h n) := fun m n => hp (h m) (h n)

end Parts

/-! ## Decimal digits -/

/-- A number in decimal with leading zeros, cut to its last digits. -/
def pad : ℕ → ℕ → List Char
  | 0, _ => []
  | width + 1, n => pad width (n / 10) ++ [Nat.digitChar (n % 10)]

@[simp] theorem length_pad (width n : ℕ) : (pad width n).length = width := by
  induction width generalizing n with
  | zero => rfl
  | succ width ih => rw [pad, List.length_append, ih, List.length_singleton]

theorem fixed_pad (width : ℕ) : Fixed (pad width) := by
  intro m n
  rw [length_pad, length_pad]

/-- The digits sort like their values. -/
theorem digitChar_lt {m n : ℕ} (hlt : m < n) (hn : n < 10) :
    Nat.digitChar m < Nat.digitChar n := by
  have hall : ∀ n < 10, ∀ m < n, Nat.digitChar m < Nat.digitChar n := by decide
  exact hall n hn m hlt

/-- Numbers that fit sort like their digits. -/
theorem increasing_pad (width : ℕ) : Increasing (10 ^ width) (pad width) := by
  induction width with
  | zero =>
    intro m n hlt hn
    omega
  | succ width ih =>
    refine Increasing.split (g := fun _ r => [Nat.digitChar r]) (b := fun _ => 10)
      (splits_div_mod _ 10) (fixed_pad width) ih ?_ ?_ ?_
    · intro _ m n hlt hn
      exact cons_lt_cons_of_lt (digitChar_lt hlt hn)
    · intro n hn
      rw [Nat.pow_succ] at hn
      exact Nat.div_lt_of_lt_mul (by omega)
    · intro n _
      exact Nat.mod_lt _ (by omega)

/-! ## Groups of digits without trailing zeros -/

section Groups

variable (stop : List Char)

/-- A number below `1000 ^ k` in groups of three digits, the fewest that are exact, and what
follows them. -/
def groups : ℕ → ℕ → List Char
  | 0, _ => stop
  | k + 1, n => if n = 0 then stop else pad 3 (n / 1000 ^ k) ++ groups k (n % 1000 ^ k)

variable {stop}

/-- What follows the groups sorts before every digit. -/
theorem stop_lt_pad {c : Char} {rest more : List Char} (hstop : stop = c :: rest)
    (hc : c < '0') (width n : ℕ) : stop < pad (width + 1) n ++ more := by
  subst hstop
  have hdigit : ∀ r < 10, '0' ≤ Nat.digitChar r := by decide
  induction width generalizing n more with
  | zero => exact cons_lt_cons_of_lt (lt_of_lt_of_le hc (hdigit _ (Nat.mod_lt _ (by omega))))
  | succ width ih =>
    rw [pad, List.append_assoc]
    exact ih (n / 10)

/-- Fewer groups than needed for the greater number sort before it. -/
theorem increasing_groups {c : Char} {rest : List Char} (hstop : stop = c :: rest) (hc : c < '0')
    (k : ℕ) : Increasing (1000 ^ k) (groups stop k) := by
  induction k with
  | zero =>
    intro m n hlt hn
    omega
  | succ k ih =>
    intro m n hlt hn
    have hpos : n ≠ 0 := by omega
    simp only [groups, if_neg hpos]
    by_cases hm : m = 0
    · rw [if_pos hm]
      exact stop_lt_pad hstop hc 2 _
    · rw [if_neg hm]
      refine Increasing.split (g := fun _ r => groups stop k r) (b := fun _ => 1000 ^ k)
        (splits_div_mod _ (1000 ^ k)) (fixed_pad 3) (increasing_pad 3) (fun _ => ih) ?_ ?_ m n hlt hn
      · intro n hn
        exact Nat.div_lt_of_lt_mul (by rwa [Nat.pow_succ] at hn)
      · intro n _
        exact Nat.mod_lt _ (Nat.pow_pos (by omega))

end Groups

/-! ## Consecutive intervals -/

section Locate

variable (length : ℕ → ℕ)

/-- Which of the intervals from `i` on a number lies in, and how far into it. -/
def locate : ℕ → ℕ → ℕ → ℕ × ℕ
  | 0, i, n => (i, n)
  | count + 1, i, n => if n < length i then (i, n) else locate count (i + 1) (n - length i)

/-- The length of the intervals together. -/
def total : ℕ → ℕ → ℕ
  | 0, _ => 0
  | count + 1, i => length i + total count (i + 1)

variable {length}

theorem le_locate (count i n : ℕ) : i ≤ (locate length count i n).1 := by
  induction count generalizing i n with
  | zero => exact le_rfl
  | succ count ih =>
    unfold locate
    split
    · exact le_rfl
    · exact le_trans (Nat.le_succ i) (ih (i + 1) _)

/-- A greater number lies in a later interval, or further into the same one. -/
theorem locate_lt (count i : ℕ) {m n : ℕ} (hlt : m < n) :
    (locate length count i m).1 < (locate length count i n).1 ∨
      (locate length count i m).1 = (locate length count i n).1 ∧
        (locate length count i m).2 < (locate length count i n).2 := by
  induction count generalizing i m n with
  | zero => exact .inr ⟨rfl, hlt⟩
  | succ count ih =>
    unfold locate
    by_cases hm : m < length i
    · by_cases hn : n < length i
      · rw [if_pos hm, if_pos hn]
        exact .inr ⟨rfl, hlt⟩
      · rw [if_pos hm, if_neg hn]
        exact .inl (Nat.lt_of_succ_le (le_locate count (i + 1) _))
    · have hn : ¬n < length i := by omega
      rw [if_neg hm, if_neg hn]
      exact ih (i + 1) (by omega)

/-- A number below the total lies in one of the intervals. -/
theorem locate_bound (count i : ℕ) {n : ℕ} (hn : n < total length count i) :
    (locate length count i n).1 < i + count ∧
      (locate length count i n).2 < length (locate length count i n).1 := by
  induction count generalizing i n with
  | zero => exact absurd hn (Nat.not_lt_zero n)
  | succ count ih =>
    unfold locate
    split
    · rename_i h
      exact ⟨by omega, h⟩
    · rename_i h
      have hrest : n - length i < total length count (i + 1) := by
        rw [total] at hn
        omega
      obtain ⟨hindex, hoffset⟩ := ih (i + 1) hrest
      exact ⟨by omega, hoffset⟩

/-- A number is the intervals before its own, and the rest. -/
theorem total_locate (count i n : ℕ) :
    total length ((locate length count i n).1 - i) i + (locate length count i n).2 = n := by
  induction count generalizing i n with
  | zero =>
    rw [locate, Nat.sub_self]
    exact Nat.zero_add n
  | succ count ih =>
    unfold locate
    split
    · rw [Nat.sub_self]
      exact Nat.zero_add n
    · rename_i h
      have hrest := ih (i + 1) (n - length i)
      have hindex : (locate length count (i + 1) (n - length i)).1 - i =
          (locate length count (i + 1) (n - length i)).1 - (i + 1) + 1 := by
        have := @le_locate length count (i + 1) (n - length i)
        omega
      rw [hindex, total]
      omega

theorem splits_locate (bound count : ℕ) :
    Splits bound (fun n => (locate length count 0 n).1) fun n => (locate length count 0 n).2 :=
  fun _ _ hlt _ => locate_lt count 0 hlt

end Locate

end Texts
