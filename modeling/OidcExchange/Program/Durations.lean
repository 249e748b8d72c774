import OidcExchange.Program.Assertion
import OidcExchange.Program.Configuration
import OidcExchange.Program.Transport
import OidcExchange.Texts.Decimal
import OidcExchange.Texts.Slices

/-!
# Durations, byte by byte

The parser of durations as it splits the bytes of a text before its last character: a split
within a character is a fault, and so are its assertions where they fail.
-/

set_option autoImplicit false

namespace OidcExchange

namespace Sliced

open Texts

variable (tables : UnicodeTables)

/-- The seconds, if they fit. SOURCE: core/src/service/mod.rs:624-626 -/
def fitting (shown : String) : Option UInt64 → Except (Fault Error) UInt64
  | some secs => .ok secs
  | none => .error (.error (.configError
      ("duration value overflows seconds when parsing " ++ shown)))

/-- The number of seconds of a number with a unit. SOURCE: core/src/service/mod.rs:612-626 -/
def scaleBy (shown : String) (value : UInt64) (suffix : List Char) :
    Except (Fault Error) UInt64 :=
  match suffix with
  | ['s'] => fitting shown (some value)
  | ['m'] => fitting shown (checkedMul value 60)
  | ['h'] => fitting shown (checkedMul value 3600)
  | ['d'] => fitting shown (checkedMul value 86400)
  | _ => .error (.error (.configError
      ("unknown duration suffix in " ++ shown ++ ": " ++ String.ofList suffix)))

/-- The number of a text and the unit after it. SOURCE: core/src/service/mod.rs:608-626 -/
def readDuration (shown : String) (num suffix : List Char) : Except (Fault Error) UInt64 :=
  match parseBounded (2 ^ 64) num with
  | .error _ => .error (.error (.configError
      ("invalid duration number in " ++ shown ++ ": " ++ String.ofList num)))
  | .ok value => scaleBy shown (UInt64.ofNat value) suffix

/-- SOURCE: core/src/service/mod.rs:578-627 -/
def parseDurationSecs (s : String) : Except (Fault Error) UInt64 :=
  let text := utf8 (trimChars s.toList)
  if text.isEmpty then .error (.error (.configError "empty duration string"))
  else do
    let suffixChar ← expectSome (Lossy.decode text).getLast?
    let splitAt ← subUsize text.length (utf8 [suffixChar]).length
    let num ← expectSome (sliceTo text splitAt)
    let suffix ← expectSome (sliceFrom text splitAt)
    assertThat (num.length + suffix.length == text.length)
    assertThat ((Lossy.decode suffix).length == 1)
    readDuration (tables.debug (String.ofList (Lossy.decode text))) (Lossy.decode num)
      (Lossy.decode suffix)

end Sliced

end OidcExchange
