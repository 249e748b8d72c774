import OidcExchange.Model.Ports
import OidcExchange.Texts.Json
import OidcExchange.Texts.Lossy
import OidcExchange.Texts.Search

/-!
# Details of upstream errors

What a provider answers besides a success is turned into a text that may be logged: an error
object is rendered, and of any other body an excerpt is shown, with credentials masked. Texts are
lists of characters, and positions count characters.

The packages that read JSON, decode base64 and render a status are parameters.
-/

set_option autoImplicit false

namespace OidcExchange

open Texts

/-- SOURCE: adapters/src/shared/upstream.rs:17 -/
def maxUpstreamExcerpt : ℕ := 256

/-- SOURCE: adapters/src/shared/upstream.rs:21 -/
def redacted : List Char := "[REDACTED]".toList

/-- SOURCE: adapters/src/shared/upstream.rs:25 -/
def sensitiveFormKeys : List (List Char) :=
  ["token".toList, "refresh_token".toList, "client_secret".toList, "code".toList]

/-- SOURCE: adapters/src/shared/upstream.rs:29 -/
def minJwsSegmentLen : ℕ := 4

/-- A status of three digits. SOURCE: `reqwest::StatusCode` -/
structure StatusCode : Type where
  code : ℕ
  three_digits : 100 ≤ code ∧ code < 1000

/-- SOURCE: `StatusCode::is_success` -/
def StatusCode.isSuccess (status : StatusCode) : Bool := 200 ≤ status.code && status.code < 300

/-- What is used of the packages: a JSON document of a text, the bytes of a base64url text
without padding, and how a status is shown. -/
structure UpstreamLibrary : Type where
  fromStr : String → Option Value
  decodeUrlSafe : List Char → Option (List UInt8)
  statusText : StatusCode → String

/-! ## Decoding -/

/-- SOURCE: adapters/src/shared/upstream.rs:117-142 -/
def percentDecode (text : List Char) : List Char := Lossy.decode (Percent.decode (utf8 text))

/-! ## Pairs of a form -/

/-- No word character is glued to the key. SOURCE: adapters/src/shared/upstream.rs:190-193 -/
def boundaryBefore (before : List Char) : Bool :=
  match before.getLast? with
  | none => true
  | some prev => !(prev.isAlphanum || prev = '_')

/-- The loop of `findFormPair`; every turn passes an occurrence of the key, so there are no more
turns than characters. -/
def findFormPairFrom (text key : List Char) : ℕ → ℕ → Option ℕ
  | 0, _ => none
  | turns + 1, searchFrom =>
    match find key (text.drop searchFrom) with
    | none => none
    | some rel =>
      if boundaryBefore (text.take (searchFrom + rel)) ∧
          ['='] <+: text.drop (searchFrom + rel + key.length) then
        some (searchFrom + rel)
      else findFormPairFrom text key turns (searchFrom + rel + key.length)

/-- SOURCE: adapters/src/shared/upstream.rs:181-201 -/
def findFormPair (text key : List Char) : Option ℕ :=
  findFormPairFrom text key (text.length + 1) 0

/-- The earliest place that is found for a sensitive key.
SOURCE: adapters/src/shared/upstream.rs:157-164, 213-221 -/
def earliest (findKey : List Char → Option ℕ) : Option (ℕ × List Char) :=
  sensitiveFormKeys.foldl
    (fun earliest key =>
      match findKey key with
      | none => earliest
      | some pos => if earliest.all fun e => pos < e.1 then some (pos, key) else earliest)
    none

/-- What follows a value: everything from the next ampersand. -/
def nextPair (rest : List Char) : List Char :=
  match find ['&'] rest with
  | some offset => rest.drop offset
  | none => []

/-- The loop of `maskFormPairs`; every turn shortens the rest. -/
def maskFormPairsFrom : ℕ → List Char → List Char
  | 0, rest => rest
  | turns + 1, rest =>
    match earliest (findFormPair rest) with
    | none => rest
    | some (pos, key) =>
      rest.take pos ++ key ++ '=' :: redacted ++
        maskFormPairsFrom turns (nextPair (rest.drop (pos + key.length + 1)))

/-- SOURCE: adapters/src/shared/upstream.rs:152-179 -/
def maskFormPairs (text : List Char) : List Char := maskFormPairsFrom (text.length + 1) text

/-! ## Members of an object -/

/-- Where the string after the name of a member begins and ends.
SOURCE: adapters/src/shared/upstream.rs:247-262 -/
def jsonStringValueRange (afterKey : List Char) : Option (ℕ × ℕ) := do
  let colon ← afterKey.findIdx? fun ch => !isWhiteSpace ch
  if afterKey[colon]? ≠ some ':' then none
  else do
    let quote ← (afterKey.drop (colon + 1)).findIdx? fun ch => !isWhiteSpace ch
    if afterKey[colon + 1 + quote]? ≠ some '"' then none
    else do
      let valueStart := colon + 1 + quote + 1
      let closing ← find ['"'] (afterKey.drop valueStart)
      some (valueStart, closing + valueStart)

/-- A key in quotes. -/
def quoted (key : List Char) : List Char := '"' :: key ++ ['"']

/-- The loop of `maskJsonValues`; every turn shortens the rest. -/
def maskJsonValuesFrom : ℕ → List Char → List Char
  | 0, rest => rest
  | turns + 1, rest =>
    match earliest fun key => find (quoted key) rest with
    | none => rest
    | some (pos, key) =>
      let afterKey := rest.drop (pos + key.length + 2)
      rest.take (pos + key.length + 2) ++
        match jsonStringValueRange afterKey with
        | some (valueStart, valueEnd) =>
          afterKey.take valueStart ++ redacted ++
            maskJsonValuesFrom turns (afterKey.drop valueEnd)
        | none => maskJsonValuesFrom turns afterKey

/-- SOURCE: adapters/src/shared/upstream.rs:207-241 -/
def maskJsonValues (text : List Char) : List Char := maskJsonValuesFrom (text.length + 1) text

/-! ## Bare assertions -/

/-- SOURCE: adapters/src/shared/upstream.rs:303-329 -/
def pushJwsChecked (lib : UpstreamLibrary) (candidate : List Char) : List Char :=
  let parts := candidate.splitOn '.'
  let shapeOk := parts.length = 3 ∧ parts.all fun part =>
    minJwsSegmentLen ≤ (utf8 part).length && part.all fun c => c.isAlphanum || c = '_' || c = '-'
  if shapeOk then
    let headerIsJson :=
      match (parts.head?.bind lib.decodeUrlSafe) with
      | some bs => isUtf8 bs && bs.head? = some 0x7B
      | none => false
    if headerIsJson then redacted else candidate
  else candidate

/-- SOURCE: adapters/src/shared/upstream.rs:279 -/
def inJwsCharset (ch : Char) : Bool := ch.isAlphanum || ch = '_' || ch = '-' || ch = '.'

/-- The loop of `maskCompactJws`, within a run or outside any. -/
def maskRuns (lib : UpstreamLibrary) : Option (List Char) → List Char → List Char
  | none, [] => []
  | some run, [] => pushJwsChecked lib run
  | run, ch :: rest =>
    if inJwsCharset ch then maskRuns lib (some (run.getD [] ++ [ch])) rest
    else
      (match run with
        | some run => pushJwsChecked lib run
        | none => []) ++ ch :: maskRuns lib none rest

/-- SOURCE: adapters/src/shared/upstream.rs:272-299 -/
def maskCompactJws (lib : UpstreamLibrary) (text : List Char) :
    Except (Fault Empty) (List Char) := do
  let out := maskRuns lib none text
  assertThat ((utf8 out).length ≤ (utf8 text).length)
  return out

/-! ## Details -/

/-- SOURCE: adapters/src/shared/upstream.rs:107-112 -/
def redact (lib : UpstreamLibrary) (text : List Char) : Except (Fault Empty) (List Char) :=
  maskCompactJws lib (maskJsonValues (maskFormPairs (percentDecode text)))

/-- SOURCE: adapters/src/shared/upstream.rs:332-337 -/
def clampChars (value : List Char) (maxChars : ℕ) : List Char := value.take maxChars

/-- A text without credentials, cut to its bound. -/
def excerptOf (lib : UpstreamLibrary) (text : List Char) : Except (Fault Empty) (List Char) := do
  let redactedText ← redact lib text
  return clampChars redactedText maxUpstreamExcerpt

/-- The text of a member of a document. -/
def Value.textField (value : Value) (name : String) : Option String :=
  (value.field name).bind Value.asStr

/-- What is shown of an error object. SOURCE: adapters/src/shared/upstream.rs:86-95 -/
def renderError (lib : UpstreamLibrary) (errorCode : String) (description : Option String) :
    Except (Fault Empty) (List Char) := do
  let code ← excerptOf lib errorCode.toList
  match description with
  | some description => do
    let description ← excerptOf lib description.toList
    return code ++ ": ".toList ++ description
  | none => return code

/-- SOURCE: adapters/src/shared/upstream.rs:82-96 -/
def structuredErrorDetail (lib : UpstreamLibrary) (raw : String) :
    Option (Except (Fault Empty) (List Char)) := do
  let parsed ← lib.fromStr raw
  let errorCode ← parsed.textField "error"
  return renderError lib errorCode (parsed.textField "error_description")

/-- What is shown of any other body. SOURCE: adapters/src/shared/upstream.rs:64-75 -/
def excerptDetail (lib : UpstreamLibrary) (status : StatusCode) (raw : String) :
    Except (Fault Empty) String := do
  let excerpt ← excerptOf lib raw.toList
  assertThat (excerpt.length ≤ maxUpstreamExcerpt)
  return "HTTP " ++ lib.statusText status ++ "; upstream returned " ++
    toString (bytes raw).length ++ " bytes; excerpt: " ++ String.ofList excerpt

/-- SOURCE: adapters/src/shared/upstream.rs:48-76 -/
def errorDetail (lib : UpstreamLibrary) (status : StatusCode) (body : String) :
    Except (Fault Empty) String := do
  assertThat !status.isSuccess
  match structuredErrorDetail lib body with
  | some structured => do
    let structured ← structured
    return String.ofList structured
  | none => excerptDetail lib status body

end OidcExchange
