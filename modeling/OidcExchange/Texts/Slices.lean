import OidcExchange.Texts.Lossy
import OidcExchange.Texts.Search

/-!
# Slices of a text

A text is cut at byte positions, and only where a character begins or the text ends; there is no
slice for other positions. A position that is the length of whole characters is one to cut at.
-/

set_option autoImplicit false

namespace Texts

/-- The byte goes on with a character. -/
def isContinuation (b : UInt8) : Bool := 0x80 ≤ b && b < 0xC0

/-- A character begins at the position, or the text ends. -/
def isCharBoundary (text : List UInt8) (position : ℕ) : Bool :=
  match text[position]? with
  | some b => !isContinuation b
  | none => position == text.length

def sliceFrom (text : List UInt8) (start : ℕ) : Option (List UInt8) :=
  if isCharBoundary text start then some (text.drop start) else none

def sliceTo (text : List UInt8) (stop : ℕ) : Option (List UInt8) :=
  if isCharBoundary text stop then some (text.take stop) else none

def slice (text : List UInt8) (start stop : ℕ) : Option (List UInt8) :=
  if start ≤ stop then (sliceTo text stop).bind fun head => sliceFrom head start else none

/-! ## Whole characters -/

theorem utf8_nil : utf8 [] = [] := rfl

theorem length_utf8_cons (c : Char) (cs : List Char) :
    (utf8 (c :: cs)).length = (String.utf8EncodeChar c).length + (utf8 cs).length := by
  rw [utf8_cons, List.length_append]

theorem length_utf8EncodeChar_pos (c : Char) : 0 < (String.utf8EncodeChar c).length := by
  obtain ⟨b, rest, hchar, -⟩ := Lossy.begins_utf8EncodeChar c
  rw [hchar]
  exact Nat.succ_pos _

/-- A text has no fewer bytes than characters. -/
theorem length_le_utf8 (cs : List Char) : cs.length ≤ (utf8 cs).length := by
  induction cs with
  | nil => exact Nat.le_refl 0
  | cons c cs ih =>
    have hpos := length_utf8EncodeChar_pos c
    rw [length_utf8_cons, List.length_cons]
    omega

theorem not_isContinuation_of_begins {b : UInt8} (h : Lossy.Begins b) :
    isContinuation b = false := by
  rw [isContinuation, Bool.and_eq_false_iff, decide_eq_false_iff_not, decide_eq_false_iff_not]
  obtain hlow | hhigh := h
  · exact Or.inl (UInt8.not_le.mpr hlow)
  · exact Or.inr (UInt8.not_lt.mpr hhigh)

theorem isCharBoundary_utf8 (before after : List Char) :
    isCharBoundary (utf8 (before ++ after)) (utf8 before).length = true := by
  rw [utf8_append, isCharBoundary, List.getElem?_append_right (Nat.le_refl _), Nat.sub_self]
  cases after with
  | nil => simp [utf8_nil]
  | cons c after =>
    obtain ⟨b, rest, hchar, hbegins⟩ := Lossy.begins_utf8EncodeChar c
    rw [utf8_cons, hchar, List.cons_append, List.getElem?_cons_zero]
    simp only [not_isContinuation_of_begins hbegins, Bool.not_false]

theorem sliceFrom_utf8 (before after : List Char) :
    sliceFrom (utf8 (before ++ after)) (utf8 before).length = some (utf8 after) := by
  rw [sliceFrom, if_pos (isCharBoundary_utf8 before after), utf8_append, List.drop_left]

theorem sliceTo_utf8 (before after : List Char) :
    sliceTo (utf8 (before ++ after)) (utf8 before).length = some (utf8 before) := by
  rw [sliceTo, if_pos (isCharBoundary_utf8 before after), utf8_append, List.take_left]

theorem slice_utf8 (before within after : List Char) :
    slice (utf8 (before ++ within ++ after)) (utf8 before).length
      (utf8 (before ++ within)).length = some (utf8 within) := by
  have hle : (utf8 before).length ≤ (utf8 (before ++ within)).length := by
    rw [utf8_append, List.length_append]
    exact Nat.le_add_right _ _
  rw [slice, if_pos hle, sliceTo_utf8, Option.bind_some, sliceFrom_utf8]

/-- The first character of a text is the first that is read. -/
theorem head?_decode_utf8 (cs : List Char) : (Lossy.decode (utf8 cs)).head? = cs.head? := by
  rw [Lossy.decode_utf8]

/-- A text begins with another exactly if its bytes do. -/
theorem utf8_prefix_iff {cs text : List Char} : utf8 cs <+: utf8 text ↔ cs <+: text := by
  constructor
  · rintro ⟨rest, hrest⟩
    refine ⟨Lossy.decode rest, ?_⟩
    rw [← Lossy.decode_utf8_append, hrest, Lossy.decode_utf8]
  · rintro ⟨rest, rfl⟩
    exact ⟨utf8 rest, (utf8_append cs rest).symm⟩

/-- A byte of the seven-bit range is in a text only as its character. -/
theorem notMem_utf8 {b : UInt8} (hb : b < 0x80) {cs : List Char}
    (h : Char.ofNat b.toNat ∉ cs) : b ∉ utf8 cs := by
  intro hmem
  obtain ⟨c, hc, hbyte⟩ := List.mem_flatMap.mp hmem
  exact h (Lossy.eq_of_mem_utf8EncodeChar hb hbyte ▸ hc)

/-! ## Positions of characters -/

/-- Every byte of a character but the first goes on with it. -/
theorem isContinuation_tail {c : Char} {b : UInt8} {rest : List UInt8}
    (h : String.utf8EncodeChar c = b :: rest) : ∀ x ∈ rest, isContinuation x = true := by
  rw [String.utf8EncodeChar] at h
  simp only [isContinuation, Bool.and_eq_true, decide_eq_true_eq, UInt8.lt_iff_toNat_lt,
    UInt8.le_iff_toNat_le]
  generalize c.val.toNat = v at h
  by_cases h1 : v ≤ 0x7F
  · rw [if_pos h1] at h
    cases h
    exact fun _ => nofun
  · by_cases h2 : v ≤ 0x7FF
    · rw [if_neg h1, if_pos h2] at h
      cases h
      intro x hx
      simp only [List.mem_cons, List.not_mem_nil, or_false] at hx
      obtain rfl := hx
      simp
      omega
    · by_cases h3 : v ≤ 0xFFFF
      · rw [if_neg h1, if_neg h2, if_pos h3] at h
        cases h
        intro x hx
        simp only [List.mem_cons, List.not_mem_nil, or_false] at hx
        obtain rfl | rfl := hx <;> simp <;> omega
      · rw [if_neg h1, if_neg h2, if_neg h3] at h
        cases h
        intro x hx
        simp only [List.mem_cons, List.not_mem_nil, or_false] at hx
        obtain rfl | rfl | rfl := hx <;> simp <;> omega

/-- The position of the first byte of a character. -/
def offset (text : List Char) (n : ℕ) : ℕ := (utf8 (text.take n)).length

@[simp] theorem offset_zero (text : List Char) : offset text 0 = 0 := rfl

theorem offset_succ (c : Char) (cs : List Char) (n : ℕ) :
    offset (c :: cs) (n + 1) = (String.utf8EncodeChar c).length + offset cs n := by
  rw [offset, List.take_succ_cons, length_utf8_cons, offset]

theorem offset_add (text : List Char) (n m : ℕ) :
    offset text (n + m) = offset text n + offset (text.drop n) m := by
  rw [offset, List.take_add, utf8_append, List.length_append, offset, offset]

theorem offset_length (before after : List Char) :
    offset (before ++ after) before.length = (utf8 before).length := by
  rw [offset, List.take_left]

theorem offset_le {text : List Char} {n m : ℕ} (h : n ≤ m) : offset text n ≤ offset text m := by
  obtain ⟨d, rfl⟩ := Nat.exists_eq_add_of_le h
  rw [offset_add]
  exact Nat.le_add_right _ _

/-- Within a text, positions of bytes are ordered like those of characters. -/
theorem offset_lt_iff {text : List Char} (n : ℕ) {m : ℕ} (hm : m ≤ text.length) :
    offset text n < offset text m ↔ n < m := by
  constructor
  · intro h
    by_contra hge
    exact absurd h (Nat.not_lt.mpr (offset_le (Nat.le_of_not_lt hge)))
  · intro h
    obtain ⟨d, rfl⟩ := Nat.exists_eq_add_of_lt h
    have hn : n < text.length := Nat.lt_of_lt_of_le h hm
    have hpos := length_utf8EncodeChar_pos text[n]
    rw [Nat.add_assoc, offset_add, List.drop_eq_getElem_cons hn, offset_succ]
    omega

theorem offset_add_word {text word : List Char} {n : ℕ} (h : word <+: text.drop n) :
    offset text (n + word.length) = offset text n + (utf8 word).length := by
  obtain ⟨rest, hrest⟩ := h
  rw [offset_add, ← hrest, offset_length]

theorem sliceFrom_offset (text : List Char) (n : ℕ) :
    sliceFrom (utf8 text) (offset text n) = some (utf8 (text.drop n)) := by
  have h := sliceFrom_utf8 (text.take n) (text.drop n)
  rwa [List.take_append_drop] at h

theorem sliceTo_offset (text : List Char) (n : ℕ) :
    sliceTo (utf8 text) (offset text n) = some (utf8 (text.take n)) := by
  have h := sliceTo_utf8 (text.take n) (text.drop n)
  rwa [List.take_append_drop] at h

theorem slice_offset (text : List Char) (n m : ℕ) :
    slice (utf8 text) (offset text n) (offset text (n + m)) =
      some (utf8 ((text.drop n).take m)) := by
  have h := slice_utf8 (text.take n) ((text.drop n).take m) ((text.drop n).drop m)
  rwa [List.append_assoc, List.take_append_drop, List.take_append_drop, ← List.take_add] at h

/-- A text stands between the bytes of another only where a character begins. -/
theorem find_utf8 {needle : List Char} (hneedle : needle ≠ []) (text : List Char) :
    find (utf8 needle) (utf8 text) = (find needle text).map (offset text) := by
  induction text with
  | nil =>
    obtain ⟨d, needle, rfl⟩ := List.exists_cons_of_ne_nil hneedle
    obtain ⟨b, rest, hchar, -⟩ := Lossy.begins_utf8EncodeChar d
    rw [utf8_nil, utf8_cons, hchar]
    rfl
  | cons c cs ih =>
    obtain ⟨b, rest, hchar, -⟩ := Lossy.begins_utf8EncodeChar c
    by_cases hpre : needle <+: c :: cs
    · have hfound := find_of_prefix hpre
      have hfound' := find_of_prefix (utf8_prefix_iff.mpr hpre)
      rw [hfound, hfound']
      rfl
    · have hbytes : ¬utf8 needle <+: b :: (rest ++ utf8 cs) := by
        rw [← List.cons_append, ← hchar, ← utf8_cons, utf8_prefix_iff]
        exact hpre
      have hskip : ∀ tail, (∀ x ∈ tail, isContinuation x = true) →
          find (utf8 needle) (tail ++ utf8 cs) =
            (find (utf8 needle) (utf8 cs)).map (· + tail.length) := by
        intro tail htail
        induction tail with
        | nil => simp
        | cons x tail ihtail =>
          have hnot : ¬utf8 needle <+: x :: (tail ++ utf8 cs) := by
            obtain ⟨d, needle, rfl⟩ := List.exists_cons_of_ne_nil hneedle
            obtain ⟨e, more, hd, hbegins⟩ := Lossy.begins_utf8EncodeChar d
            rw [utf8_cons, hd, List.cons_append, List.cons_prefix_cons]
            rintro ⟨rfl, -⟩
            have hcontinues := htail e List.mem_cons_self
            rw [not_isContinuation_of_begins hbegins] at hcontinues
            cases hcontinues
          rw [List.cons_append, find, if_neg hnot,
            ihtail fun y hy => htail y (List.mem_cons_of_mem x hy), Option.map_map]
          congr 1
      rw [utf8_cons, hchar, List.cons_append, find, if_neg hbytes,
        hskip rest (isContinuation_tail hchar), ih, find, if_neg hpre]
      simp only [Option.map_map]
      congr 1
      funext n
      simp only [Function.comp_apply, offset_succ, hchar, List.length_cons]
      omega

end Texts
