import OidcExchange.Program.Assertion
import OidcExchange.Program.Upstream
import OidcExchange.Texts.Slices

/-!
# Details of upstream errors, byte by byte

The functions that mask and cut a text, as they work on its bytes: positions count bytes, and a
slice that does not begin and end between characters is a fault. So is a loop that goes on for
more turns than it is given.
-/

set_option autoImplicit false

namespace OidcExchange

namespace Sliced

open Texts

/-! ## Decoding -/

/-- The byte that two digits after the position stand for.
SOURCE: adapters/src/shared/upstream.rs:127-129 -/
def escapedAt (bytes : List UInt8) (i : ℕ) : Option UInt8 := do
  let hi ← bytes[i + 1]?
  let lo ← bytes[i + 2]?
  let h ← Percent.digitValue hi
  let l ← Percent.digitValue lo
  return h <<< 4 ||| l

/-- The loop of `percentDecode`. SOURCE: adapters/src/shared/upstream.rs:125-137 -/
def percentDecodeFrom (bytes : List UInt8) :
    ℕ → ℕ → List UInt8 → Except (Fault Empty) (List UInt8)
  | 0, _, _ => .error .panic
  | turns + 1, i, out =>
    if i < bytes.length then do
      let b ← expectSome bytes[i]?
      match if b = Percent.sign then escapedAt bytes i else none with
      | some byte => percentDecodeFrom bytes turns (i + 3) (out ++ [byte])
      | none => percentDecodeFrom bytes turns (i + 1) (out ++ [b])
    else .ok out

/-- SOURCE: adapters/src/shared/upstream.rs:117-139 -/
def percentDecode (text : List UInt8) : Except (Fault Empty) (List UInt8) := do
  let out ← percentDecodeFrom text (text.length + 1) 0 []
  return utf8 (Lossy.decode out)

/-! ## Pairs of a form -/

/-- An equals sign stands at the position. -/
def signAt (text : List UInt8) (position : ℕ) : Except (Fault Empty) Bool := do
  let after ← expectSome (sliceFrom text position)
  return utf8 ['='] <+: after

/-- The loop of `findFormPair`. SOURCE: adapters/src/shared/upstream.rs:183-199 -/
def findFormPairFrom (text key : List UInt8) : ℕ → ℕ → Except (Fault Empty) (Option ℕ)
  | 0, _ => .error .panic
  | turns + 1, searchFrom => do
    let rest ← expectSome (sliceFrom text searchFrom)
    match find key rest with
    | none => return none
    | some rel => do
      let pos := searchFrom + rel
      let afterKey := pos + key.length
      let before ← expectSome (sliceTo text pos)
      let found ← if boundaryBefore (Lossy.decode before) then signAt text afterKey else .ok false
      if found then return some pos else findFormPairFrom text key turns afterKey

/-- SOURCE: adapters/src/shared/upstream.rs:181-201 -/
def findFormPair (text key : List UInt8) : Except (Fault Empty) (Option ℕ) :=
  findFormPairFrom text key (text.length + 1) 0

/-- The earliest place that is found for a sensitive key.
SOURCE: adapters/src/shared/upstream.rs:157-164 -/
def earliestPair (findKey : List Char → Except (Fault Empty) (Option ℕ)) :
    List (List Char) → Option (ℕ × List Char) → Except (Fault Empty) (Option (ℕ × List Char))
  | [], earliest => .ok earliest
  | key :: keys, earliest => do
    match ← findKey key with
    | none => earliestPair findKey keys earliest
    | some pos =>
      earliestPair findKey keys
        (if earliest.all fun e => pos < e.1 then some (pos, key) else earliest)

/-- What follows the value that begins at the position: everything from the next ampersand.
SOURCE: adapters/src/shared/upstream.rs:170-175 -/
def nextPair (rest : List UInt8) (afterEq : ℕ) : Except (Fault Empty) (List UInt8) := do
  let value ← expectSome (sliceFrom rest afterEq)
  match find (utf8 ['&']) value with
  | some offset => expectSome (sliceFrom rest (afterEq + offset))
  | none => return []

/-- The loop of `maskFormPairs`. SOURCE: adapters/src/shared/upstream.rs:155-177 -/
def maskFormPairsFrom : ℕ → List UInt8 → List UInt8 → Except (Fault Empty) (List UInt8)
  | 0, _, _ => .error .panic
  | turns + 1, rest, out => do
    match ← earliestPair (fun key => findFormPair rest (utf8 key)) sensitiveFormKeys none with
    | none => return out ++ rest
    | some (pos, key) => do
      let head ← expectSome (sliceTo rest pos)
      let afterEq := pos + (utf8 key).length + 1
      let next ← nextPair rest afterEq
      maskFormPairsFrom turns next (out ++ head ++ utf8 key ++ utf8 ['='] ++ utf8 redacted)

/-- SOURCE: adapters/src/shared/upstream.rs:152-179 -/
def maskFormPairs (text : List UInt8) : Except (Fault Empty) (List UInt8) :=
  maskFormPairsFrom (text.length + 1) text []

/-! ## Members of an object -/

/-- Characters with the positions of their first bytes. -/
def charIndicesFrom : ℕ → List Char → List (ℕ × Char)
  | _, [] => []
  | position, ch :: rest => (position, ch) :: charIndicesFrom (position + (utf8 [ch]).length) rest

/-- SOURCE: `str::char_indices` -/
def charIndices (text : List UInt8) : List (ℕ × Char) := charIndicesFrom 0 (Lossy.decode text)

/-- The first character that is no white space, and those after it.
SOURCE: `Iterator::find` -/
def findVisible : List (ℕ × Char) → Option ((ℕ × Char) × List (ℕ × Char))
  | [] => none
  | item :: rest => if !isWhiteSpace item.2 then some (item, rest) else findVisible rest

/-- Where the string after a colon begins and ends, and nothing where there is none.
SOURCE: adapters/src/shared/upstream.rs:253-261 -/
def rangeAfterColon (afterKey : List UInt8) (chars : List (ℕ × Char)) :
    Except (Fault Empty) (Option (ℕ × ℕ)) :=
  match findVisible chars with
  | none => .ok none
  | some (quote, _) =>
    if quote.2 ≠ '"' then .ok none
    else do
      let valueStart := quote.1 + 1
      let value ← expectSome (sliceFrom afterKey valueStart)
      match find (utf8 ['"']) value with
      | none => return none
      | some closing => return some (valueStart, closing + valueStart)

/-- SOURCE: adapters/src/shared/upstream.rs:247-262 -/
def jsonStringValueRange (afterKey : List UInt8) : Except (Fault Empty) (Option (ℕ × ℕ)) :=
  match findVisible (charIndices afterKey) with
  | none => .ok none
  | some (colon, chars) =>
    if colon.2 ≠ ':' then .ok none else rangeAfterColon afterKey chars

/-- The loop of `maskJsonValues`. SOURCE: adapters/src/shared/upstream.rs:210-239 -/
def maskJsonValuesFrom : ℕ → List UInt8 → List UInt8 → Except (Fault Empty) (List UInt8)
  | 0, _, _ => .error .panic
  | turns + 1, rest, out =>
    match earliest fun key => find (utf8 (quoted key)) rest with
    | none => .ok (out ++ rest)
    | some (pos, key) => do
      let afterKey := pos + (utf8 key).length + 2
      let head ← expectSome (sliceTo rest afterKey)
      let tail ← expectSome (sliceFrom rest afterKey)
      match ← jsonStringValueRange tail with
      | some (valueStart, valueEnd) => do
        let gap ← expectSome (slice rest afterKey (afterKey + valueStart))
        let next ← expectSome (sliceFrom rest (afterKey + valueEnd))
        maskJsonValuesFrom turns next (out ++ head ++ gap ++ utf8 redacted)
      | none => maskJsonValuesFrom turns tail (out ++ head)

/-- SOURCE: adapters/src/shared/upstream.rs:207-241 -/
def maskJsonValues (text : List UInt8) : Except (Fault Empty) (List UInt8) :=
  maskJsonValuesFrom (text.length + 1) text []

/-! ## Bare assertions -/

/-- A run up to a position or to the end, masked if it is an assertion. -/
def flushRun (lib : UpstreamLibrary) (text : List UInt8) (runStart stop : Option ℕ) :
    Except (Fault Empty) (List UInt8) :=
  match runStart, stop with
  | none, _ => .ok []
  | some start, none => do
    let candidate ← expectSome (sliceFrom text start)
    return utf8 (pushJwsChecked lib (Lossy.decode candidate))
  | some start, some stop => do
    let candidate ← expectSome (slice text start stop)
    return utf8 (pushJwsChecked lib (Lossy.decode candidate))

/-- The loop of `maskCompactJws`, over the characters that are left.
SOURCE: adapters/src/shared/upstream.rs:278-291 -/
def maskRuns (lib : UpstreamLibrary) (text : List UInt8) :
    Option ℕ → List (ℕ × Char) → List UInt8 → Except (Fault Empty) (List UInt8)
  | runStart, [], out => do
    let run ← flushRun lib text runStart none
    return out ++ run
  | runStart, (idx, ch) :: rest, out =>
    if inJwsCharset ch then maskRuns lib text (some (runStart.getD idx)) rest out
    else do
      let run ← flushRun lib text runStart (some idx)
      maskRuns lib text none rest (out ++ run ++ utf8 [ch])

/-- SOURCE: adapters/src/shared/upstream.rs:272-299 -/
def maskCompactJws (lib : UpstreamLibrary) (text : List UInt8) :
    Except (Fault Empty) (List UInt8) := do
  let out ← maskRuns lib text none (charIndices text) []
  assertThat (out.length ≤ text.length)
  return out

/-! ## Excerpts -/

/-- SOURCE: adapters/src/shared/upstream.rs:107-112 -/
def redact (lib : UpstreamLibrary) (text : List UInt8) : Except (Fault Empty) (List UInt8) := do
  let decoded ← percentDecode text
  let formsMasked ← maskFormPairs decoded
  let jsonMasked ← maskJsonValues formsMasked
  maskCompactJws lib jsonMasked

/-- SOURCE: adapters/src/shared/upstream.rs:332-337 -/
def clampChars (value : List UInt8) (maxChars : ℕ) : Except (Fault Empty) (List UInt8) :=
  match (charIndices value)[maxChars]? with
  | some (byteIdx, _) => expectSome (sliceTo value byteIdx)
  | none => .ok value

/-- SOURCE: adapters/src/shared/upstream.rs:64-65, 86, 90 -/
def excerptOf (lib : UpstreamLibrary) (text : List UInt8) : Except (Fault Empty) (List UInt8) := do
  let redactedText ← redact lib text
  clampChars redactedText maxUpstreamExcerpt

end Sliced

end OidcExchange
