import OidcExchange.Program.Assertion
import OidcExchange.Texts.Search
import OidcExchange.Texts.Slices

/-!
# Placeholders of the configuration

Texts of the configuration may name variables of the environment. A text is scanned byte by byte
from left to right; an escape is written as the marker it stands for, a placeholder as the value
of its variable, and everything else is copied.

Left out: assertions that a turn of the loop moves on by the number it has just added.
-/

set_option autoImplicit false

namespace OidcExchange

open Texts

/-- The values of the variables that are set, as bytes. SOURCE: `std::env` -/
abbrev Environment : Type := String → Option (List UInt8)

/-- The value of a variable that is set to a text. SOURCE: `std::env::var` -/
def Environment.var (environment : Environment) (name : String) : Option String :=
  (environment name).bind fun value =>
    if isUtf8 value then some (String.ofList (Lossy.decode value)) else none

/-- SOURCE: server/src/bootstrap.rs:67 -/
def placeholderNameLenMax : ℕ := 256

/-- `${` -/
def openMark : List Char := ['$', '\x7b']

/-- `$${` -/
def escapeMark : List Char := '$' :: openMark

/-- `}` -/
def closeMark : Char := '\x7d'

/-- A name up to the brace that closes it, and the bytes of both.
SOURCE: server/src/bootstrap.rs:360-374 -/
def scanPlaceholderName (rest : List UInt8) :
    Except (Fault Error) (Option (List UInt8 × ℕ)) :=
  match find (utf8 [closeMark]) (rest.take (min rest.length placeholderNameLenMax)) with
  | none => .ok none
  | some close => do
    let consumed := close + 1
    assertThat (consumed ≤ placeholderNameLenMax + 1)
    let closing ← expectSome (slice rest close consumed)
    assertThat (closing = utf8 [closeMark])
    let name ← expectSome (sliceTo rest close)
    return some (name, consumed)

/-- The value of the variable that a placeholder names. SOURCE: server/src/bootstrap.rs:314-331 -/
def lookUpName (environment : Environment) (path name : String) : Except (Fault Error) String := do
  let complaint := "config placeholder '$\x7b" ++ name ++ "\x7d' at config path '" ++ path ++
    "' references "
  if name.isEmpty then
    .error (.error (.configError ("empty placeholder name at config path '" ++ path ++ "'")))
  else
    match environment.var name with
    | none => .error (.error (.configError
        (complaint ++ "unset environment variable '" ++ name ++ "'")))
    | some resolved =>
      if resolved.isEmpty then .error (.error (.configError
        (complaint ++ "empty environment variable '" ++ name ++ "'")))
      else .ok resolved

/-- What a placeholder is replaced by, and the bytes after its marker that it takes.
SOURCE: server/src/bootstrap.rs:309-334 -/
def readPlaceholder (environment : Environment) (path : String) (rest : List UInt8) :
    Except (Fault Error) (String × ℕ) := do
  match ← scanPlaceholderName rest with
  | none => .error (.error (.configError
      ("malformed placeholder at config path '" ++ path ++ "'")))
  | some (name, consumed) => do
    let resolved ← lookUpName environment path (String.ofList (Lossy.decode name))
    return (resolved, consumed)

/-- The loop of `resolvePlaceholdersInStr`; every turn moves the position, so there are no more
turns than bytes. -/
def resolveFrom (environment : Environment) (path : String) (input : List UInt8) :
    ℕ → ℕ → List Char → Except (Fault Error) (List Char)
  | 0, _, _ => .error .panic
  | turns + 1, i, output =>
    if i < input.length then
      if utf8 escapeMark <+: input.drop i then
        resolveFrom environment path input turns (i + 3) (output ++ openMark)
      else if utf8 openMark <+: input.drop i then do
        let rest ← expectSome (sliceFrom input (i + 2))
        let (resolved, consumed) ← readPlaceholder environment path rest
        resolveFrom environment path input turns (i + (2 + consumed)) (output ++ resolved.toList)
      else do
        let rest ← expectSome (sliceFrom input i)
        let ch ← expectSome (Lossy.decode rest).head?
        resolveFrom environment path input turns (i + (utf8 [ch]).length) (output ++ [ch])
    else do
      assertThat (i == input.length)
      return output

/-- SOURCE: server/src/bootstrap.rs:289-355 -/
def resolvePlaceholdersInStr (environment : Environment) (input path : String) :
    Except (Fault Error) String := do
  let output ← resolveFrom environment path (bytes input) ((bytes input).length + 1) 0 []
  return String.ofList output

/-! ## Whole configurations -/

/-- SOURCE: `config::ValueKind` -/
inductive ConfigValue : Type
  | nil
  | boolean (b : Bool)
  | integer (n : ℤ)
  | float (bits : UInt64)
  | string (text : String)
  | table (entries : List (String × ConfigValue))
  | array (items : List ConfigValue)

/-- The path of an entry of a table. SOURCE: server/src/bootstrap.rs:269-273 -/
def nestedPath (path key : String) : String :=
  if path = "<root>" then key else path ++ "." ++ key

/-- The path of an item of an array. SOURCE: server/src/bootstrap.rs:279 -/
def itemPath (path : String) (index : ℕ) : String := path ++ "[" ++ toString index ++ "]"

mutual

/-- SOURCE: server/src/bootstrap.rs:264-285 -/
def resolvePlaceholders (environment : Environment) :
    ConfigValue → String → Except (Fault Error) ConfigValue
  | .string text, path => .string <$> resolvePlaceholdersInStr environment text path
  | .table entries, path => .table <$> resolveEntries environment entries path
  | .array items, path => .array <$> resolveItems environment items 0 path
  | .nil, _ => .ok .nil
  | .boolean b, _ => .ok (.boolean b)
  | .integer n, _ => .ok (.integer n)
  | .float bits, _ => .ok (.float bits)

def resolveEntries (environment : Environment) :
    List (String × ConfigValue) → String → Except (Fault Error) (List (String × ConfigValue))
  | [], _ => .ok []
  | entry :: rest, path => do
    let resolved ← resolveEntry environment entry path
    let more ← resolveEntries environment rest path
    .ok (resolved :: more)

def resolveEntry (environment : Environment) :
    String × ConfigValue → String → Except (Fault Error) (String × ConfigValue)
  | (key, nested), path =>
    (Prod.mk key) <$> resolvePlaceholders environment nested (nestedPath path key)

def resolveItems (environment : Environment) :
    List ConfigValue → ℕ → String → Except (Fault Error) (List ConfigValue)
  | [], _, _ => .ok []
  | item :: rest, index, path => do
    let resolved ← resolvePlaceholders environment item (itemPath path index)
    let more ← resolveItems environment rest (index + 1) path
    .ok (resolved :: more)

end

end OidcExchange
