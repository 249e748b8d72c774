import Mathlib.Data.List.Basic

/-!
# Base64url without padding

Three bytes are four digits of six bits; one or two bytes at the end are two or three digits, whose
last bits are zero. The decoder takes nothing else: no other character, no padding, no single
digit at the end and no other last bits.
-/

set_option autoImplicit false

namespace Texts

namespace Base64Url

/-! ## Digits -/

def alphabet : List Char :=
  "ABCDEFGHIJKLMNOPQRSTUVWXYZabcdefghijklmnopqrstuvwxyz0123456789-_".toList

/-- The digit of a number below 64. -/
def digit (n : ℕ) : Char := alphabet.getD n 'A'

def value (c : Char) : Option ℕ := alphabet.idxOf? c

theorem value_digit {n : ℕ} (h : n < 64) : value (digit n) = some n := by
  have hall : ∀ n < 64, value (digit n) = some n := by decide +kernel
  exact hall n h

theorem mapM_value_digit {ns : List ℕ} (h : ∀ n ∈ ns, n < 64) :
    (ns.map digit).mapM value = some ns := by
  induction ns with
  | nil => rfl
  | cons n ns ih =>
    have hrest := ih fun m hm => h m (List.mem_cons_of_mem n hm)
    rw [List.map_cons, List.mapM_cons, value_digit (h n List.mem_cons_self), hrest]
    rfl

/-! ## Groups of six bits -/

/-- Bytes in groups of six bits. -/
def sextets : List UInt8 → List ℕ
  | [] => []
  | [a] => [a.toNat / 4, a.toNat % 4 * 16]
  | [a, b] => [a.toNat / 4, a.toNat % 4 * 16 + b.toNat / 16, b.toNat % 16 * 4]
  | a :: b :: c :: rest =>
    a.toNat / 4 :: (a.toNat % 4 * 16 + b.toNat / 16) ::
      (b.toNat % 16 * 4 + c.toNat / 64) :: c.toNat % 64 :: sextets rest

/-- The bytes of groups of six bits, where the last bits are zero. -/
def ofSextets : List ℕ → Option (List UInt8)
  | [] => some []
  | [_] => none
  | [k, l] => if l % 16 = 0 then some [UInt8.ofNat (k * 4 + l / 16)] else none
  | [k, l, m] =>
    if m % 4 = 0 then
      some [UInt8.ofNat (k * 4 + l / 16), UInt8.ofNat (l % 16 * 16 + m / 4)]
    else none
  | k :: l :: m :: n :: rest =>
    (ofSextets rest).map fun bs =>
      UInt8.ofNat (k * 4 + l / 16) :: UInt8.ofNat (l % 16 * 16 + m / 4) ::
        UInt8.ofNat (m % 4 * 64 + n) :: bs

theorem ofNat_eq {n : ℕ} {b : UInt8} (h : n = b.toNat) : UInt8.ofNat n = b := by
  rw [h]
  exact UInt8.ofNat_toNat

theorem sextets_lt {bs : List UInt8} {n : ℕ} (h : n ∈ sextets bs) : n < 64 := by
  induction bs using sextets.induct with
  | case1 => exact absurd h List.not_mem_nil
  | case2 a =>
    have ha := a.toNat_lt
    rw [sextets, List.mem_cons, List.mem_singleton] at h
    omega
  | case3 a b =>
    have ha := a.toNat_lt
    have hb := b.toNat_lt
    rw [sextets, List.mem_cons, List.mem_cons, List.mem_singleton] at h
    omega
  | case4 a b c rest ih =>
    have ha := a.toNat_lt
    have hb := b.toNat_lt
    have hc := c.toNat_lt
    rw [sextets, List.mem_cons, List.mem_cons, List.mem_cons, List.mem_cons] at h
    obtain h | h | h | h | h := h
    · omega
    · omega
    · omega
    · omega
    · exact ih h

theorem ofSextets_sextets (bs : List UInt8) : ofSextets (sextets bs) = some bs := by
  induction bs using sextets.induct with
  | case1 => rfl
  | case2 a =>
    rw [sextets, ofSextets, if_pos (by omega), @ofNat_eq _ a (by omega)]
  | case3 a b =>
    have hb := b.toNat_lt
    rw [sextets, ofSextets, if_pos (by omega), @ofNat_eq _ a (by omega),
      @ofNat_eq _ b (by omega)]
  | case4 a b c rest ih =>
    have hb := b.toNat_lt
    have hc := c.toNat_lt
    rw [sextets, ofSextets, ih, Option.map_some, @ofNat_eq _ a (by omega),
      @ofNat_eq _ b (by omega), @ofNat_eq _ c (by omega)]

/-! ## Texts -/

def encode (bs : List UInt8) : List Char := (sextets bs).map digit

def decode (cs : List Char) : Option (List UInt8) := (cs.mapM value).bind ofSextets

/-- What is encoded is decoded. -/
theorem decode_encode (bs : List UInt8) : decode (encode bs) = some bs := by
  rw [decode, encode, mapM_value_digit fun n hn => sextets_lt hn, Option.bind_some,
    ofSextets_sextets]

theorem encode_ne_nil {bs : List UInt8} (h : bs ≠ []) : encode bs ≠ [] := by
  intro heq
  have hdecode := decode_encode bs
  rw [heq] at hdecode
  exact h (Option.some.inj hdecode).symm

example : encode "any carnal pleas".toUTF8.data.toList = "YW55IGNhcm5hbCBwbGVhcw".toList := by
  decide +kernel

end Base64Url

end Texts
