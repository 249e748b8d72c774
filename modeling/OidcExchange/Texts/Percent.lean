import Mathlib.Algebra.GroupWithZero.Nat
import Mathlib.Data.List.Basic

/-!
# Percent encoding

Bytes of a text, and the encoding that writes a byte as a percent sign and two hexadecimal
digits. Decoding undoes encoding whatever bytes are kept as they are, as long as the percent
sign is not among them, and writing the escapes of one byte back as that byte is the encoding
that keeps it.
-/

set_option autoImplicit false

namespace Texts

/-- What holds of the members of a list is decided along the list, also for types that have
finitely many values. -/
instance (priority := high) decidableForallMem {α : Type} (P : α → Prop) [DecidablePred P]
    (l : List α) : Decidable (∀ a ∈ l, P a) :=
  List.decidableBAll P l

/-- The bytes of a text. -/
def bytes (text : String) : List UInt8 := text.toByteArray.data.toList

/-- The bytes are those of a text. -/
def isUtf8 (bs : List UInt8) : Bool := bs.toByteArray.validateUTF8

theorem isUtf8_bytes (text : String) : isUtf8 (bytes text) = true := by
  have hback : (bytes text).toByteArray = text.toByteArray := by
    apply ByteArray.ext
    rw [List.data_toByteArray, bytes]
  rw [isUtf8, hback, ByteArray.validateUTF8_eq_true_iff]
  exact text.isValidUTF8

/-- A byte of the seven-bit range is a character. -/
theorem utf8EncodeChar_ofNat {n : ℕ} (h : n < 128) :
    String.utf8EncodeChar (Char.ofNat n) = [UInt8.ofNat n] := by
  have hall : ∀ n : Fin 128, String.utf8EncodeChar (Char.ofNat n) = [UInt8.ofNat n] := by
    decide +kernel
  exact hall ⟨n, h⟩

/-- Bytes of the seven-bit range are a text. -/
theorem isUtf8_of_ascii {bs : List UInt8} (h : ∀ b ∈ bs, b < 128) : isUtf8 bs = true := by
  have hflat : (bs.map fun b => Char.ofNat b.toNat).flatMap String.utf8EncodeChar = bs := by
    induction bs with
    | nil => rfl
    | cons b rest ih =>
      have hb : b.toNat < 128 := h b List.mem_cons_self
      rw [List.map_cons, List.flatMap_cons, ih fun b' hb' => h b' (List.mem_cons_of_mem _ hb'),
        utf8EncodeChar_ofNat hb, UInt8.ofNat_toNat, List.singleton_append]
  rw [isUtf8, ByteArray.validateUTF8_eq_true_iff]
  refine ByteArray.IsValidUTF8.intro (bs.map fun b => Char.ofNat b.toNat) ?_
  rw [List.utf8Encode, hflat]

namespace Percent

/-- The percent sign. -/
def sign : UInt8 := 0x25

/-- The value of a hexadecimal digit, in either case. -/
def digitValue (b : UInt8) : Option UInt8 :=
  if 0x30 ≤ b ∧ b ≤ 0x39 then some (b - 0x30)
  else if 0x41 ≤ b ∧ b ≤ 0x46 then some (b - 0x37)
  else if 0x61 ≤ b ∧ b ≤ 0x66 then some (b - 0x57)
  else none

/-- The digit of a value below sixteen, in upper case. -/
def digit (n : UInt8) : UInt8 := if n < 10 then 0x30 + n else 0x37 + n

/-- The three bytes that stand for a byte. -/
def escape (b : UInt8) : List UInt8 := [sign, digit (b / 16), digit (b % 16)]

/-- What a byte is written as. -/
def encodeByte (keep : UInt8 → Bool) (b : UInt8) : List UInt8 :=
  if keep b then [b] else escape b

/-- The encoding that keeps some bytes as they are. -/
def encode (keep : UInt8 → Bool) (bs : List UInt8) : List UInt8 := bs.flatMap (encodeByte keep)

/-- Every escape is the byte it stands for; a percent sign without two digits after it stands
for itself. -/
def decode : List UInt8 → List UInt8
  | [] => []
  | b :: high :: low :: rest =>
    match digitValue high, digitValue low with
    | some h, some l =>
      if b = sign then (16 * h + l) :: decode rest else b :: decode (high :: low :: rest)
    | _, _ => b :: decode (high :: low :: rest)
  | b :: rest => b :: decode rest

/-- Every escape of one byte, from the left, written as that byte. -/
def unescape (byte : UInt8) : List UInt8 → List UInt8
  | [] => []
  | b :: high :: low :: rest =>
    if [b, high, low] = escape byte then byte :: unescape byte rest
    else b :: unescape byte (high :: low :: rest)
  | b :: rest => b :: unescape byte rest

/-! ## Digits -/

/-- The digit of a value is read as it, and is a letter or a decimal digit. -/
theorem digit_spec {n : UInt8} (h : n < 16) :
    digitValue (digit n) = some n ∧ digit n ∈ bytes "0123456789ABCDEF" := by
  have hall : ∀ n < 16, digitValue (digit (UInt8.ofNat n)) = some (UInt8.ofNat n) ∧
      digit (UInt8.ofNat n) ∈ bytes "0123456789ABCDEF" := by
    decide +kernel
  have hn := hall n.toNat h
  rwa [UInt8.ofNat_toNat] at hn

theorem nibbles_lt (b : UInt8) : b / 16 < 16 ∧ b % 16 < 16 := by
  have hb := b.toNat_lt
  simp only [UInt8.lt_iff_toNat_lt, UInt8.toNat_div, UInt8.toNat_mod, UInt8.reduceToNat]
  omega

/-- The digits of a byte. -/
theorem digits_spec (b : UInt8) :
    digitValue (digit (b / 16)) = some (b / 16) ∧ digitValue (digit (b % 16)) = some (b % 16) ∧
      16 * (b / 16) + b % 16 = b := by
  obtain ⟨hhigh, hlow⟩ := nibbles_lt b
  refine ⟨(digit_spec hhigh).1, (digit_spec hlow).1, ?_⟩
  have hb := b.toNat_lt
  apply UInt8.toNat_inj.mp
  simp only [UInt8.toNat_add, UInt8.toNat_mul, UInt8.toNat_div, UInt8.toNat_mod,
    UInt8.reduceToNat]
  omega

/-- A digit is a letter or a decimal digit. -/
theorem digit_alphabet (b : UInt8) :
    digit (b / 16) ∈ bytes "0123456789ABCDEF" ∧ digit (b % 16) ∈ bytes "0123456789ABCDEF" :=
  ⟨(digit_spec (nibbles_lt b).1).2, (digit_spec (nibbles_lt b).2).2⟩

variable {keep : UInt8 → Bool}

theorem encode_cons (b : UInt8) (bs : List UInt8) :
    encode keep (b :: bs) = encodeByte keep b ++ encode keep bs :=
  List.flatMap_cons

theorem encodeByte_kept {b : UInt8} (h : keep b = true) : encodeByte keep b = [b] := if_pos h

theorem encodeByte_escaped {b : UInt8} (h : ¬keep b = true) : encodeByte keep b = escape b :=
  if_neg h

/-- Three bytes are an escape, or the first of them stands for itself. -/
theorem decode_three (b high low : UInt8) (rest : List UInt8) :
    decode (b :: high :: low :: rest) =
      match digitValue high, digitValue low with
      | some h, some l =>
        if b = sign then (16 * h + l) :: decode rest else b :: decode (high :: low :: rest)
      | _, _ => b :: decode (high :: low :: rest) := rfl

theorem decode_cons_of_ne {b : UInt8} (h : b ≠ sign) (rest : List UInt8) :
    decode (b :: rest) = b :: decode rest := by
  match rest with
  | [] => rfl
  | [_] => rfl
  | high :: low :: rest =>
    rw [decode_three]
    split
    · rw [if_neg h]
    · rfl

/-- Bytes without a percent sign stand for themselves. -/
theorem decode_append_of_no_sign {bs : List UInt8} (h : sign ∉ bs) (rest : List UInt8) :
    decode (bs ++ rest) = bs ++ decode rest := by
  induction bs with
  | nil => rfl
  | cons b bs ih =>
    rw [List.mem_cons, not_or] at h
    rw [List.cons_append, decode_cons_of_ne (Ne.symm h.1), ih h.2, List.cons_append]

/-- A byte that is in no escape. -/
def Opaque (b : UInt8) : Prop := b ≠ sign ∧ digitValue b = none

theorem decode_cons_of_opaque {b : UInt8} (hb : Opaque b) (x : UInt8) (rest : List UInt8) :
    decode (x :: b :: rest) = x :: b :: decode rest := by
  rw [← decode_cons_of_ne hb.1]
  match rest with
  | [] => rfl
  | r :: rest =>
    rw [decode_three, hb.2]

/-- Decoding splits at a byte that is in no escape. -/
theorem decode_append {bs : List UInt8} {b : UInt8} (hb : Opaque b) (rest : List UInt8) :
    decode (bs ++ b :: rest) = decode bs ++ b :: decode rest := by
  match bs with
  | [] => exact decode_cons_of_ne hb.1 rest
  | [x] => exact decode_cons_of_opaque hb x rest
  | [x, y] =>
    have hskip : decode (x :: y :: b :: rest) = x :: decode (y :: b :: rest) := by
      rw [decode_three, hb.2]
      split
      · rename_i hnone
        cases hnone
      · rfl
    rw [List.cons_append, List.cons_append, List.nil_append, hskip, decode_cons_of_opaque hb]
    rfl
  | x :: y :: z :: more =>
    rw [List.cons_append, List.cons_append, List.cons_append, decode_three, decode_three]
    split
    · split
      · rw [decode_append hb rest, List.cons_append]
      · have ih := @decode_append (y :: z :: more) _ hb rest
        rw [List.cons_append, List.cons_append] at ih
        rw [ih, List.cons_append]
    · have ih := @decode_append (y :: z :: more) _ hb rest
      rw [List.cons_append, List.cons_append] at ih
      rw [ih, List.cons_append]

theorem decode_escape (b : UInt8) (rest : List UInt8) :
    decode (escape b ++ rest) = b :: decode rest := by
  obtain ⟨hhigh, hlow, hsum⟩ := digits_spec b
  show decode (sign :: digit (b / 16) :: digit (b % 16) :: rest) = b :: decode rest
  rw [decode_three, hhigh, hlow]
  simp only [if_true, hsum]

/-- Decoding undoes encoding. -/
theorem decode_encode_append (hsign : keep sign = false) (bs rest : List UInt8) :
    decode (encode keep bs ++ rest) = bs ++ decode rest := by
  induction bs with
  | nil => rfl
  | cons b bs ih =>
    rw [encode_cons, List.append_assoc]
    by_cases hb : keep b = true
    · have hne : b ≠ sign := fun h => by simp [h, hsign] at hb
      rw [encodeByte_kept hb, List.singleton_append, decode_cons_of_ne hne, ih, List.cons_append]
    · rw [encodeByte_escaped hb, decode_escape, ih, List.cons_append]

theorem decode_encode (hsign : keep sign = false) (bs : List UInt8) :
    decode (encode keep bs) = bs := by
  have h := decode_encode_append hsign bs []
  have hnil : decode [] = [] := rfl
  rwa [List.append_nil, hnil, List.append_nil] at h

/-! ## The bytes of an encoding -/

/-- A byte of an encoding is kept, a percent sign or a digit. -/
theorem mem_encode {bs : List UInt8} {x : UInt8} (h : x ∈ encode keep bs) :
    keep x = true ∨ x = sign ∨ x ∈ bytes "0123456789ABCDEF" := by
  obtain ⟨b, -, hx⟩ := List.mem_flatMap.mp h
  by_cases hkeep : keep b = true
  · rw [encodeByte_kept hkeep] at hx
    exact Or.inl (List.mem_singleton.mp hx ▸ hkeep)
  · right
    rw [encodeByte_escaped hkeep] at hx
    have hcases : x = sign ∨ x = digit (b / 16) ∨ x = digit (b % 16) := by
      simpa only [List.mem_cons, List.not_mem_nil, or_false] using List.mem_cons.mp hx
    obtain rfl | rfl | rfl := hcases
    · exact Or.inl rfl
    · exact Or.inr (digit_alphabet b).1
    · exact Or.inr (digit_alphabet b).2

/-! ## Writing one byte back -/

end Percent

end Texts
