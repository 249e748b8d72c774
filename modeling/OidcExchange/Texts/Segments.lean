import OidcExchange.Texts.Lossy

/-!
# How long bytes are as a text

Bytes are cut into segments: the bytes of a character, and bytes that are no character and that
one replacement stands for. A segment is as long in the text as it was, but a replacement has
three bytes whatever it stands for.
-/

set_option autoImplicit false

namespace Texts.Lossy

/-! ## Segments -/

/-- The segments of bytes, where these pending ones have begun a character. -/
def segmentsFrom (pending : List UInt8) : Option Begun → List UInt8 → List (List UInt8)
  | none, [] => []
  | some _, [] => [pending]
  | none, b :: rest =>
    match (first b).2 with
    | none => [b] :: segmentsFrom [] none rest
    | some begun => segmentsFrom [b] (some begun) rest
  | some begun, b :: rest =>
    if begun.low ≤ b ∧ b ≤ begun.high then
      match (next begun b).2 with
      | none => (pending ++ [b]) :: segmentsFrom [] none rest
      | some more => segmentsFrom (pending ++ [b]) (some more) rest
    else
      pending :: match (first b).2 with
        | none => [b] :: segmentsFrom [] none rest
        | some other => segmentsFrom [b] (some other) rest

/-- Bytes, cut where a character ends or cannot go on. -/
def segments (bs : List UInt8) : List (List UInt8) := segmentsFrom [] none bs

/-- How many bytes stand for a segment in the text: three if it is read as the replacement. -/
def lengthInText (segment : List UInt8) : ℕ :=
  if decode segment = [replacement] then 3 else segment.length

/-- How long bytes are as a text. -/
def textLength (bs : List UInt8) : ℕ := ((segments bs).map lengthInText).sum

/-! ## Code points -/

/-- A character that has begun with so many bytes is one of two, three or four bytes. -/
inductive Reading : ℕ → Begun → Prop
  | oneOfTwo (code : ℕ) (h : 2 ≤ code ∧ code < 32) : Reading 1 ⟨0, 0x80, 0xBF, code⟩
  | oneOfThree (low high : UInt8) (code : ℕ) (h : code < 16) (hrange : 0x80 ≤ low ∧ high ≤ 0xBF)
      (hlow : code = 0 → low = 0xA0) (hhigh : code = 13 → high = 0x9F) :
      Reading 1 ⟨1, low, high, code⟩
  | twoOfThree (code : ℕ) (h : 32 ≤ code ∧ code < 1024) (hscalar : code < 864 ∨ 896 ≤ code) :
      Reading 2 ⟨0, 0x80, 0xBF, code⟩
  | oneOfFour (low high : UInt8) (code : ℕ) (h : code < 5) (hrange : 0x80 ≤ low ∧ high ≤ 0xBF)
      (hlow : code = 0 → low = 0x90) (hhigh : code = 4 → high = 0x8F) :
      Reading 1 ⟨2, low, high, code⟩
  | twoOfFour (code : ℕ) (h : 16 ≤ code ∧ code < 272) : Reading 2 ⟨1, 0x80, 0xBF, code⟩
  | threeOfFour (code : ℕ) (h : 1024 ≤ code ∧ code < 17408) : Reading 3 ⟨0, 0x80, 0xBF, code⟩

theorem val_ofNat {v : ℕ} (h : v < 0xD800 ∨ 0xDFFF < v ∧ v < 0x110000) :
    (Char.ofNat v).val.toNat = v := by
  have hvalid : v.isValidChar := h
  rw [Char.ofNat, dif_pos hvalid]
  rfl

theorem length_utf8EncodeChar_ofNat {v : ℕ} (h : v < 0xD800 ∨ 0xDFFF < v ∧ v < 0x110000) :
    (String.utf8EncodeChar (Char.ofNat v)).length =
      if v ≤ 0x7F then 1 else if v ≤ 0x7FF then 2 else if v ≤ 0xFFFF then 3 else 4 := by
  rw [String.utf8EncodeChar, val_ofNat h]
  split_ifs <;> rfl

theorem length_replacement : (String.utf8EncodeChar replacement).length = 3 := rfl

/-- A first byte that leaves nothing begun is a character or is replaced. -/
theorem first_closed {b : UInt8} (h : (first b).2 = none) : ∃ c, (first b).1 = [c] ∧
    (c = replacement ∨ (String.utf8EncodeChar c).length = 1) := by
  by_cases hascii : b < 0x80
  · have hv : b.toNat < 128 := UInt8.lt_iff_toNat_lt.mp hascii
    refine ⟨Char.ofNat b.toNat, by rw [first, if_pos hascii], Or.inr ?_⟩
    rw [length_utf8EncodeChar_ofNat (by omega), if_pos (by omega)]
  · refine ⟨replacement, ?_, Or.inl rfl⟩
    revert h
    rw [first, if_neg hascii]
    split_ifs
    all_goals first
      | exact fun _ => rfl
      | rintro ⟨⟩

theorem first_open {b : UInt8} {begun : Begun} (h : (first b).2 = some begun) :
    (first b).1 = [] ∧ Reading 1 begun := by
  revert h
  rw [first]
  simp only [UInt8.lt_iff_toNat_lt, ← UInt8.toNat_inj]
  split_ifs with h1 h2 h3 h4 h5 h6 h7 h8 h9
  · rintro ⟨⟩
  · rintro ⟨⟩
  · rintro ⟨⟩
    refine ⟨rfl, .oneOfTwo _ ?_⟩
    simp at h2 h3
    omega
  · rintro ⟨⟩
    exact ⟨rfl, .oneOfThree _ _ _ (by decide) (by decide) (fun _ => rfl) fun h => by cases h⟩
  · rintro ⟨⟩
    exact ⟨rfl, .oneOfThree _ _ _ (by decide) (by decide) (fun h => by cases h) fun _ => rfl⟩
  · rintro ⟨⟩
    refine ⟨rfl, .oneOfThree _ _ _ ?_ (by decide) ?_ ?_⟩ <;> simp at h3 h4 h5 h6 <;> omega
  · rintro ⟨⟩
    exact ⟨rfl, .oneOfFour _ _ _ (by decide) (by decide) (fun _ => rfl) fun h => by cases h⟩
  · rintro ⟨⟩
    refine ⟨rfl, .oneOfFour _ _ _ ?_ (by decide) ?_ ?_⟩ <;> simp at h6 h7 h8 <;> omega
  · rintro ⟨⟩
    exact ⟨rfl, .oneOfFour _ _ _ (by decide) (by decide) (fun h => by cases h) fun _ => rfl⟩
  · rintro ⟨⟩

theorem next_closed {k : ℕ} {begun : Begun} {b : UInt8} (hreading : Reading k begun)
    (hfits : begun.low ≤ b ∧ b ≤ begun.high) (h : (next begun b).2 = none) :
    ∃ c, (next begun b).1 = [c] ∧ (String.utf8EncodeChar c).length = k + 1 := by
  rw [next, if_pos hfits] at h ⊢
  simp only [UInt8.le_iff_toNat_le] at hfits
  cases hreading with
  | oneOfTwo code hcode =>
    refine ⟨Char.ofNat (64 * code + (b.toNat - 128)), rfl, ?_⟩
    simp at hfits
    rw [length_utf8EncodeChar_ofNat (by omega), if_neg (by omega), if_pos (by omega)]
  | oneOfThree low high code hcode hrange hlow hhigh => cases h
  | twoOfThree code hcode hscalar =>
    refine ⟨Char.ofNat (64 * code + (b.toNat - 128)), rfl, ?_⟩
    simp at hfits
    rw [length_utf8EncodeChar_ofNat (by omega), if_neg (by omega), if_neg (by omega),
      if_pos (by omega)]
  | oneOfFour low high code hcode hrange hlow hhigh => cases h
  | twoOfFour code hcode => cases h
  | threeOfFour code hcode =>
    refine ⟨Char.ofNat (64 * code + (b.toNat - 128)), rfl, ?_⟩
    simp at hfits
    rw [length_utf8EncodeChar_ofNat (by omega), if_neg (by omega), if_neg (by omega),
      if_neg (by omega)]

theorem next_open {k : ℕ} {begun more : Begun} {b : UInt8} (hreading : Reading k begun)
    (hfits : begun.low ≤ b ∧ b ≤ begun.high) (h : (next begun b).2 = some more) :
    (next begun b).1 = [] ∧ Reading (k + 1) more := by
  rw [next, if_pos hfits] at h ⊢
  simp only [UInt8.le_iff_toNat_le] at hfits
  cases hreading with
  | oneOfTwo code hcode => cases h
  | oneOfThree low high code hcode hrange hlow hhigh =>
    cases h
    simp only [UInt8.le_iff_toNat_le] at hrange
    refine ⟨rfl, .twoOfThree (64 * code + (b.toNat - 128)) ?_ ?_⟩
    · by_cases hzero : code = 0
      · rw [hlow hzero] at hfits
        simp at hfits hrange
        omega
      · simp at hfits hrange
        omega
    · by_cases hthirteen : code = 13
      · rw [hhigh hthirteen] at hfits
        simp at hfits hrange
        omega
      · simp at hfits hrange
        omega
  | twoOfThree code hcode hscalar => cases h
  | oneOfFour low high code hcode hrange hlow hhigh =>
    cases h
    simp only [UInt8.le_iff_toNat_le] at hrange
    refine ⟨rfl, .twoOfFour (64 * code + (b.toNat - 128)) ?_⟩
    by_cases hzero : code = 0
    · rw [hlow hzero] at hfits
      simp at hfits hrange
      omega
    · by_cases hfour : code = 4
      · rw [hhigh hfour] at hfits
        simp at hfits hrange
        omega
      · simp at hfits hrange
        omega
  | twoOfFour code hcode =>
    cases h
    simp at hfits
    exact ⟨rfl, .threeOfFour (64 * code + (b.toNat - 128)) (by omega)⟩
  | threeOfFour code hcode => cases h

/-! ## Length -/

/-- These bytes have begun a character, and nothing else. -/
def Pending (pending : List UInt8) : Option Begun → Prop
  | none => pending = []
  | some begun => Reading pending.length begun ∧
      ∀ rest, decode (pending ++ rest) = decodeFrom (some begun) rest

theorem pending_none : Pending [] none := rfl

/-- A segment that is read as one character counts as many bytes as this. -/
theorem lengthInText_of_decode {segment : List UInt8} {c : Char} (h : decode segment = [c])
    (hlength : c = replacement ∨ (String.utf8EncodeChar c).length = segment.length) :
    lengthInText segment = (utf8 [c]).length := by
  have hone : utf8 [c] = String.utf8EncodeChar c := List.append_nil _
  rw [lengthInText, h, hone]
  by_cases hc : c = replacement
  · rw [hc, if_pos rfl, length_replacement]
  · rw [if_neg (by simpa using hc), hlength.resolve_left hc]

theorem decodeFrom_cons (begun : Option Begun) (b : UInt8) (rest : List UInt8) :
    decodeFrom begun (b :: rest) = (step begun b).1 ++ decodeFrom (step begun b).2 rest := by
  rw [decodeFrom]

theorem pending_first {b : UInt8} {begun : Begun} (h : (first b).2 = some begun) :
    Pending [b] (some begun) := by
  obtain ⟨hnone, hreading⟩ := first_open h
  refine ⟨hreading, fun rest => ?_⟩
  change decodeFrom none (b :: rest) = _
  rw [decodeFrom_cons, step, hnone, h, List.nil_append]

theorem pending_next {pending : List UInt8} {begun more : Begun} {b : UInt8}
    (hpending : Pending pending (some begun)) (hfits : begun.low ≤ b ∧ b ≤ begun.high)
    (h : (next begun b).2 = some more) : Pending (pending ++ [b]) (some more) := by
  obtain ⟨hnone, hreading⟩ := next_open hpending.1 hfits h
  refine ⟨by rwa [List.length_append], fun rest => ?_⟩
  rw [List.append_assoc, List.singleton_append, hpending.2, decodeFrom_cons, step, hnone, h,
    List.nil_append]

/-- The length of a text, cut where a byte stands that begins or is replaced. -/
theorem length_first {b : UInt8} (rest : List UInt8) :
    (utf8 (decodeFrom none (b :: rest))).length = match (first b).2 with
      | none => lengthInText [b] + (utf8 (decode rest)).length
      | some begun => (utf8 (decodeFrom (some begun) rest)).length := by
  rw [decodeFrom_cons, step]
  cases h : (first b).2 with
  | none =>
    obtain ⟨c, hc, hlength⟩ := first_closed h
    have hdecode : decode [b] = [c] := by
      rw [decode, decodeFrom_cons, step, hc, h]
      rfl
    rw [hc, utf8_append, List.length_append, lengthInText_of_decode hdecode hlength]
    rfl
  | some begun =>
    rw [(first_open h).1, List.nil_append]

/-- A character that is cut off is replaced. -/
theorem lengthInText_pending {pending : List UInt8} {begun : Begun}
    (h : Pending pending (some begun)) : lengthInText pending = 3 := by
  have hdecode : decode pending = [replacement] := by
    have hcut := h.2 []
    rwa [List.append_nil] at hcut
  rw [lengthInText, if_pos hdecode]

/-- A byte that cannot go on a character cuts it off and is read as a first one. -/
theorem length_cut {begun : Begun} {b : UInt8} (h : ¬(begun.low ≤ b ∧ b ≤ begun.high))
    (rest : List UInt8) : (utf8 (decodeFrom (some begun) (b :: rest))).length =
      3 + (utf8 (decodeFrom none (b :: rest))).length := by
  rw [decodeFrom_cons, decodeFrom_cons, step, step, next, if_neg h, List.cons_append, utf8_cons,
    List.length_append, length_replacement]

theorem length_next {pending : List UInt8} {begun : Begun} {b : UInt8}
    (hpending : Pending pending (some begun)) (hfits : begun.low ≤ b ∧ b ≤ begun.high)
    (rest : List UInt8) : (utf8 (decodeFrom (some begun) (b :: rest))).length =
      match (next begun b).2 with
      | none => lengthInText (pending ++ [b]) + (utf8 (decode rest)).length
      | some more => (utf8 (decodeFrom (some more) rest)).length := by
  rw [decodeFrom_cons, step]
  cases h : (next begun b).2 with
  | none =>
    obtain ⟨c, hc, hlength⟩ := next_closed hpending.1 hfits h
    have hdecode : decode (pending ++ [b]) = [c] := by
      rw [hpending.2, decodeFrom_cons, step, hc, h]
      rfl
    have hbytes : (String.utf8EncodeChar c).length = (pending ++ [b]).length := by
      rw [hlength, List.length_append, List.length_singleton]
    rw [hc, utf8_append, List.length_append, lengthInText_of_decode hdecode (Or.inr hbytes)]
    rfl
  | some more => rw [(next_open hpending.1 hfits h).1, List.nil_append]

theorem length_decodeFrom {pending : List UInt8} {begun : Option Begun} (bs : List UInt8)
    (hpending : Pending pending begun) : (utf8 (decodeFrom begun bs)).length =
      ((segmentsFrom pending begun bs).map lengthInText).sum := by
  induction bs generalizing pending begun with
  | nil =>
    cases begun with
    | none => rfl
    | some begun =>
      rw [segmentsFrom, List.map_singleton, List.sum_singleton, lengthInText_pending hpending]
      rfl
  | cons b rest ih =>
    have hfirst : (utf8 (decodeFrom none (b :: rest))).length =
        ((match (first b).2 with
          | none => [b] :: segmentsFrom [] none rest
          | some begun => segmentsFrom [b] (some begun) rest).map lengthInText).sum := by
      rw [length_first]
      cases h : (first b).2 with
      | none => exact congrArg (lengthInText [b] + ·) (ih pending_none)
      | some begun => exact ih (pending_first h)
    cases begun with
    | none => exact hfirst
    | some begun =>
      rw [segmentsFrom]
      by_cases hfits : begun.low ≤ b ∧ b ≤ begun.high
      · rw [if_pos hfits, length_next hpending hfits]
        cases h : (next begun b).2 with
        | none => exact congrArg (lengthInText (pending ++ [b]) + ·) (ih pending_none)
        | some more => exact ih (pending_next hpending hfits h)
      · rw [if_neg hfits, length_cut hfits, hfirst, List.map_cons, List.sum_cons,
          lengthInText_pending hpending]

/-- Bytes are as long as a text as their segments are. -/
theorem length_utf8_decode (bs : List UInt8) : (utf8 (decode bs)).length = textLength bs :=
  length_decodeFrom bs pending_none

end Texts.Lossy
