import OidcExchange.Texts.Percent

/-!
# Bytes read as a text

Bytes are read as a text character by character; a byte that cannot continue the character it
follows ends it, and every run of bytes that begins a character without completing it, and every
byte that begins none, is read as the replacement character. Reading splits at every byte that
begins a character, and the bytes of a text are read as that text.
-/

set_option autoImplicit false

namespace Texts

/-- The bytes of characters. -/
def utf8 (cs : List Char) : List UInt8 := cs.flatMap String.utf8EncodeChar

theorem utf8_cons (c : Char) (cs : List Char) :
    utf8 (c :: cs) = String.utf8EncodeChar c ++ utf8 cs :=
  List.flatMap_cons

theorem utf8_append (cs cs' : List Char) : utf8 (cs ++ cs') = utf8 cs ++ utf8 cs' :=
  List.flatMap_append

theorem bytes_ofList (cs : List Char) : bytes (String.ofList cs) = utf8 cs := by
  rw [bytes, String.toByteArray_ofList, List.utf8Encode, List.data_toByteArray]
  rfl

theorem utf8_toList (text : String) : utf8 text.toList = bytes text := by
  rw [← bytes_ofList, String.ofList_toList]

namespace Lossy

/-- What stands for bytes that are no character. -/
def replacement : Char := '\uFFFD'

/-- A character that has begun: how many bytes it still owes, what the next one may be, and the
code point so far. -/
structure Begun : Type where
  owed : ℕ
  low : UInt8
  high : UInt8
  code : ℕ
  deriving DecidableEq

/-- A byte where a character begins. -/
def first (b : UInt8) : List Char × Option Begun :=
  if b < 0x80 then ([Char.ofNat b.toNat], none)
  else if b < 0xC2 then ([replacement], none)
  else if b < 0xE0 then ([], some ⟨0, 0x80, 0xBF, b.toNat - 0xC0⟩)
  else if b = 0xE0 then ([], some ⟨1, 0xA0, 0xBF, 0⟩)
  else if b = 0xED then ([], some ⟨1, 0x80, 0x9F, 0xD⟩)
  else if b < 0xF0 then ([], some ⟨1, 0x80, 0xBF, b.toNat - 0xE0⟩)
  else if b = 0xF0 then ([], some ⟨2, 0x90, 0xBF, 0⟩)
  else if b < 0xF4 then ([], some ⟨2, 0x80, 0xBF, b.toNat - 0xF0⟩)
  else if b = 0xF4 then ([], some ⟨2, 0x80, 0x8F, 4⟩)
  else ([replacement], none)

/-- The next byte of a character that has begun, and owes more bytes after it or none. -/
def next (begun : Begun) (b : UInt8) : List Char × Option Begun :=
  if begun.low ≤ b ∧ b ≤ begun.high then
    match begun.owed with
    | 0 => ([Char.ofNat (64 * begun.code + (b.toNat - 0x80))], none)
    | owed + 1 => ([], some ⟨owed, 0x80, 0xBF, 64 * begun.code + (b.toNat - 0x80)⟩)
  else (replacement :: (first b).1, (first b).2)

/-- One byte. -/
def step : Option Begun → UInt8 → List Char × Option Begun
  | none, b => first b
  | some begun, b => next begun b

/-- The characters of bytes that follow a character that has begun. -/
def decodeFrom : Option Begun → List UInt8 → List Char
  | none, [] => []
  | some _, [] => [replacement]
  | begun, b :: rest => (step begun b).1 ++ decodeFrom (step begun b).2 rest

/-- The text that bytes are read as. -/
def decode (bs : List UInt8) : List Char := decodeFrom none bs

/-! ## Splitting -/

/-- The byte begins a character, or cannot be in one. -/
def Begins (b : UInt8) : Prop := b < 0x80 ∨ 0xC0 ≤ b

/-- What a character that has begun allows next is a continuation. -/
def Continues : Option Begun → Prop
  | none => True
  | some begun => 0x80 ≤ begun.low ∧ begun.high ≤ 0xBF

theorem continues_first (b : UInt8) : Continues (first b).2 := by
  rw [first]
  repeat' split
  all_goals simp only [Continues]
  all_goals decide

theorem continues_step {begun : Option Begun} (b : UInt8) : Continues (step begun b).2 := by
  match begun with
  | none => exact continues_first b
  | some begun =>
    rw [step, next]
    split
    · split
      · trivial
      · simp only [Continues]
        decide
    · exact continues_first b

/-- A byte that begins a character ends the one before. -/
theorem decodeFrom_of_begins {begun : Option Begun} {b : UInt8} (hcont : Continues begun)
    (hb : Begins b) (rest : List UInt8) :
    decodeFrom begun (b :: rest) = decodeFrom begun [] ++ decode (b :: rest) := by
  match begun with
  | none => rfl
  | some begun =>
    have hout : ¬(begun.low ≤ b ∧ b ≤ begun.high) := by
      rintro ⟨hlow, hhigh⟩
      have hge : (0x80 : UInt8) ≤ b := UInt8.le_trans hcont.1 hlow
      have hle : b ≤ (0xBF : UInt8) := UInt8.le_trans hhigh hcont.2
      simp only [UInt8.le_iff_toNat_le, UInt8.lt_iff_toNat_lt, Begins] at hb hge hle
      simp at hb hge hle
      omega
    simp only [decodeFrom, decode, step, next, if_neg hout, List.cons_append, List.nil_append]

/-- Reading splits at a byte that begins a character. -/
theorem decodeFrom_append {begun : Option Begun} (hcont : Continues begun) (bs : List UInt8)
    {b : UInt8} (hb : Begins b) (rest : List UInt8) :
    decodeFrom begun (bs ++ b :: rest) = decodeFrom begun bs ++ decode (b :: rest) := by
  induction bs generalizing begun with
  | nil => exact decodeFrom_of_begins hcont hb rest
  | cons b' bs ih =>
    rw [List.cons_append, decodeFrom, ih (continues_step b'), decodeFrom, List.append_assoc]

theorem decode_append (bs : List UInt8) {b : UInt8} (hb : Begins b) (rest : List UInt8) :
    decode (bs ++ b :: rest) = decode bs ++ decode (b :: rest) :=
  decodeFrom_append (show Continues none from trivial) bs hb rest

/-! ## Characters -/

/-- A byte of the seven-bit range is one character. -/
theorem decode_cons_of_ascii {b : UInt8} (h : b < 0x80) (rest : List UInt8) :
    decode (b :: rest) = Char.ofNat b.toNat :: decode rest := by
  rw [decode, decodeFrom, step, first, if_pos h]
  rfl

/-- The first byte of a character of two, three and four bytes. -/
theorem first_lead :
    (∀ n : Fin 32, 2 ≤ n → first (UInt8.ofNat (n + 0xC0)) = ([], some ⟨0, 0x80, 0xBF, n⟩)) ∧
    (∀ n : Fin 16, first (UInt8.ofNat (n + 0xE0)) =
      ([], some ⟨1, if n = 0 then 0xA0 else 0x80, if n = 13 then 0x9F else 0xBF, n⟩)) ∧
    (∀ n : Fin 5, first (UInt8.ofNat (n + 0xF0)) =
      ([], some ⟨2, if n = 0 then 0x90 else 0x80, if n = 4 then 0x8F else 0xBF, n⟩)) := by
  decide

/-- A continuation that a character allows. -/
theorem decodeFrom_next {begun : Begun} {n : ℕ} (hn : n < 64)
    (hlow : begun.low.toNat ≤ n + 0x80) (hhigh : n + 0x80 ≤ begun.high.toNat)
    (rest : List UInt8) :
    decodeFrom (some begun) (UInt8.ofNat (n + 0x80) :: rest) =
      match begun.owed with
      | 0 => Char.ofNat (64 * begun.code + n) :: decode rest
      | owed + 1 => decodeFrom (some ⟨owed, 0x80, 0xBF, 64 * begun.code + n⟩) rest := by
  have htoNat : (UInt8.ofNat (n + 0x80)).toNat = n + 0x80 :=
    UInt8.toNat_ofNat_of_lt' (Nat.lt_of_lt_of_le (Nat.add_lt_add_right hn 0x80) (by decide))
  have hfits : begun.low ≤ UInt8.ofNat (n + 0x80) ∧ UInt8.ofNat (n + 0x80) ≤ begun.high := by
    rw [UInt8.le_iff_toNat_le, UInt8.le_iff_toNat_le, htoNat]
    exact ⟨hlow, hhigh⟩
  rw [decodeFrom, step, next, if_pos hfits, htoNat, Nat.add_sub_cancel]
  split <;> rfl

/-- The bytes of a character are read as that character. -/
theorem decode_utf8EncodeChar (c : Char) (rest : List UInt8) :
    decode (String.utf8EncodeChar c ++ rest) = c :: decode rest := by
  have hvalid : c.val.toNat < 0xD800 ∨ 0xDFFF < c.val.toNat ∧ c.val.toNat < 0x110000 := c.valid
  have hback : Char.ofNat c.val.toNat = c := Char.ofNat_toNat c
  rw [String.utf8EncodeChar]
  generalize c.val.toNat = v at *
  by_cases h1 : v ≤ 0x7F
  · have htoNat : (UInt8.ofNat v).toNat = v :=
      UInt8.toNat_ofNat_of_lt' (Nat.lt_of_le_of_lt h1 (by decide))
    have hascii : UInt8.ofNat v < 0x80 := by
      rw [UInt8.lt_iff_toNat_lt, htoNat]
      exact Nat.lt_succ_of_le h1
    simp only [h1, if_true, List.singleton_append]
    rw [decode_cons_of_ascii hascii, htoNat, hback]
  · by_cases h2 : v ≤ 0x7FF
    · simp only [h1, h2, if_true, if_false, List.cons_append, List.nil_append]
      have hlead := first_lead.1 ⟨v / 64 % 0x20, by omega⟩ (by rw [Fin.le_def]; simp; omega)
      rw [decode, decodeFrom, step, hlead]
      rw [List.nil_append, decodeFrom_next (by omega) (by simp) (by simp; omega)]
      rw [show 64 * (v / 64 % 0x20) + v % 0x40 = v by omega, hback]
    · by_cases h3 : v ≤ 0xFFFF
      · simp only [h1, h2, h3, if_true, if_false, List.cons_append, List.nil_append]
        have hlead := first_lead.2.1 ⟨v / 4096 % 0x10, by omega⟩
        have hlow : (if (⟨v / 4096 % 0x10, by omega⟩ : Fin 16) = 0 then (0xA0 : UInt8)
            else 0x80).toNat ≤ v / 64 % 0x40 + 0x80 := by
          split
          · rename_i h
            simp [Fin.ext_iff] at h ⊢
            omega
          · rename_i h
            simp [Fin.ext_iff] at h ⊢
        have hhigh : v / 64 % 0x40 + 0x80 ≤ (if (⟨v / 4096 % 0x10, by omega⟩ : Fin 16) = 13
            then (0x9F : UInt8) else 0xBF).toNat := by
          split
          · rename_i h
            simp [Fin.ext_iff] at h ⊢
            omega
          · rename_i h
            simp [Fin.ext_iff] at h ⊢
            omega
        rw [decode, decodeFrom, step, hlead]
        rw [List.nil_append, decodeFrom_next (by omega) hlow hhigh]
        simp only
        rw [decodeFrom_next (by omega) (by simp) (by simp; omega)]
        simp only
        rw [show 64 * (64 * (v / 4096 % 0x10) + v / 64 % 0x40) + v % 0x40 = v by omega, hback]
      · simp only [h1, h2, h3, if_false, List.cons_append, List.nil_append]
        have hlead := first_lead.2.2 ⟨v / 262144 % 0x08, by omega⟩
        have hlow : (if (⟨v / 262144 % 0x08, by omega⟩ : Fin 5) = 0 then (0x90 : UInt8)
            else 0x80).toNat ≤ v / 4096 % 0x40 + 0x80 := by
          split
          · rename_i h
            simp [Fin.ext_iff] at h ⊢
            omega
          · rename_i h
            simp [Fin.ext_iff] at h ⊢
        have hhigh : v / 4096 % 0x40 + 0x80 ≤ (if (⟨v / 262144 % 0x08, by omega⟩ : Fin 5) = 4
            then (0x8F : UInt8) else 0xBF).toNat := by
          split
          · rename_i h
            simp [Fin.ext_iff] at h ⊢
            omega
          · rename_i h
            simp [Fin.ext_iff] at h ⊢
            omega
        rw [decode, decodeFrom, step, hlead]
        rw [List.nil_append, decodeFrom_next (by omega) hlow hhigh]
        simp only
        rw [decodeFrom_next (by omega) (by simp) (by simp; omega)]
        simp only
        rw [decodeFrom_next (by omega) (by simp) (by simp; omega)]
        simp only
        rw [show 64 * (64 * (64 * (v / 262144 % 0x08) + v / 4096 % 0x40) + v / 64 % 0x40) +
          v % 0x40 = v by omega, hback]

/-- The bytes of characters are read as those characters. -/
theorem decode_utf8_append (cs : List Char) (rest : List UInt8) :
    decode (utf8 cs ++ rest) = cs ++ decode rest := by
  induction cs with
  | nil => rfl
  | cons c cs ih =>
    rw [utf8_cons, List.append_assoc, decode_utf8EncodeChar, ih, List.cons_append]

/-- The bytes of a text are read as that text. -/
theorem decode_utf8 (cs : List Char) : decode (utf8 cs) = cs := by
  have h := decode_utf8_append cs []
  rwa [List.append_nil, show decode [] = [] from rfl, List.append_nil] at h

/-- The first byte of a character begins it. -/
theorem begins_utf8EncodeChar (c : Char) :
    ∃ b rest, String.utf8EncodeChar c = b :: rest ∧ Begins b := by
  rw [String.utf8EncodeChar]
  generalize c.val.toNat = v
  simp only [Begins, UInt8.lt_iff_toNat_lt, UInt8.le_iff_toNat_le]
  by_cases h1 : v ≤ 0x7F
  · rw [if_pos h1]
    exact ⟨_, _, rfl, Or.inl (by simp; omega)⟩
  · by_cases h2 : v ≤ 0x7FF
    · rw [if_neg h1, if_pos h2]
      exact ⟨_, _, rfl, Or.inr (by simp; omega)⟩
    · by_cases h3 : v ≤ 0xFFFF
      · rw [if_neg h1, if_neg h2, if_pos h3]
        exact ⟨_, _, rfl, Or.inr (by simp; omega)⟩
      · rw [if_neg h1, if_neg h2, if_neg h3]
        exact ⟨_, _, rfl, Or.inr (by simp; omega)⟩

/-- A byte of the seven-bit range is in no character but its own. -/
theorem eq_of_mem_utf8EncodeChar {c : Char} {b : UInt8} (hb : b < 0x80)
    (h : b ∈ String.utf8EncodeChar c) : c = Char.ofNat b.toNat := by
  have hback : Char.ofNat c.val.toNat = c := Char.ofNat_toNat c
  rw [UInt8.lt_iff_toNat_lt] at hb
  rw [String.utf8EncodeChar] at h
  rw [← hback]
  generalize c.val.toNat = v at *
  by_cases h1 : v ≤ 0x7F
  · rw [if_pos h1, List.mem_singleton] at h
    rw [h, UInt8.toNat_ofNat_of_lt' (Nat.lt_of_le_of_lt h1 (by decide))]
  · exfalso
    by_cases h2 : v ≤ 0x7FF
    · rw [if_neg h1, if_pos h2] at h
      simp only [List.mem_cons, List.not_mem_nil, or_false] at h
      obtain rfl | rfl := h <;> simp at hb <;> omega
    · by_cases h3 : v ≤ 0xFFFF
      · rw [if_neg h1, if_neg h2, if_pos h3] at h
        simp only [List.mem_cons, List.not_mem_nil, or_false] at h
        obtain rfl | rfl | rfl := h <;> simp at hb <;> omega
      · rw [if_neg h1, if_neg h2, if_neg h3] at h
        simp only [List.mem_cons, List.not_mem_nil, or_false] at h
        obtain rfl | rfl | rfl | rfl := h <;> simp at hb <;> omega

/-- Reading splits at every whole character. -/
theorem decode_append_char (bs : List UInt8) (c : Char) (rest : List UInt8) :
    decode (bs ++ (String.utf8EncodeChar c ++ rest)) = decode bs ++ c :: decode rest := by
  obtain ⟨b, more, henc, hb⟩ := begins_utf8EncodeChar c
  rw [henc, List.cons_append, decode_append bs hb, ← List.cons_append, ← henc,
    decode_utf8EncodeChar]

end Lossy

/-! ## Texts as bytes -/

/-- The bytes of a text are those of its characters. -/
theorem isUtf8_iff {bs : List UInt8} : isUtf8 bs = true ↔ ∃ cs, bs = utf8 cs := by
  rw [isUtf8, ByteArray.validateUTF8_eq_true_iff]
  constructor
  · rintro ⟨cs, hcs⟩
    refine ⟨cs, ?_⟩
    have h := congrArg (fun b => b.data.toList) hcs
    rw [List.utf8Encode, List.data_toByteArray, List.data_toByteArray] at h
    exact h
  · rintro ⟨cs, rfl⟩
    exact ⟨cs, rfl⟩

/-- What follows a text is a text exactly if the whole is one. -/
theorem isUtf8_append (cs : List Char) (rest : List UInt8) :
    isUtf8 (utf8 cs ++ rest) = isUtf8 rest := by
  rw [Bool.eq_iff_iff, isUtf8_iff, isUtf8_iff]
  constructor
  · rintro ⟨whole, h⟩
    refine ⟨Lossy.decode rest, ?_⟩
    have hwhole : cs ++ Lossy.decode rest = whole := by
      rw [← Lossy.decode_utf8_append, h, Lossy.decode_utf8]
    rw [← hwhole, utf8_append] at h
    exact List.append_cancel_left h
  · rintro ⟨more, rfl⟩
    exact ⟨cs ++ more, (utf8_append cs more).symm⟩

end Texts
