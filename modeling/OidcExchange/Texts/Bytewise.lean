import OidcExchange.Texts.Increasing
import OidcExchange.Texts.Lossy

/-!
# Comparing texts byte by byte

The UTF-8 bytes of texts of the seven-bit range compare like their characters.
-/

set_option autoImplicit false

namespace Texts

variable {cs ds : List Char} {c : Char}

/-- Characters of the seven-bit range. -/
def Ascii (cs : List Char) : Prop := ∀ c ∈ cs, c.toNat < 128

theorem ascii_cons : Ascii (c :: cs) ↔ c.toNat < 128 ∧ Ascii cs := List.forall_mem_cons

/-- A character of the seven-bit range is one byte. -/
theorem utf8_cons_of_ascii (hc : c.toNat < 128) (cs : List Char) :
    utf8 (c :: cs) = UInt8.ofNat c.toNat :: utf8 cs := by
  have hchar : Char.ofNat c.toNat = c := Char.ofNat_toNat c
  rw [utf8_cons, ← hchar, utf8EncodeChar_ofNat hc, hchar]
  rfl

end Texts
