import OidcExchange.Adapters.Moments
import OidcExchange.Adapters.SessionCodecs
import OidcExchange.Program.UserListing
import OidcExchange.Texts.Base64Url
import OidcExchange.Texts.JsonWriter
import OidcExchange.Texts.Lossy

/-!
# The texts of cursors

The cursor of the SQL stores, a creation time and an identifier, and the cursor of the DynamoDB
adapter, the key a scan was evaluated up to: both are written as a JSON object of two strings in
base64url. What is written is read back before it is handed out.

Writing and base64url are as the packages have them. The JSON readers and the reader of timestamps
are parameters.
-/

set_option autoImplicit false

namespace OidcExchange

open Storage Texts

namespace Cursors

/-- What reads a cursor. SOURCE: `serde_json::from_slice`, for a `Value` and for a
`KeysetCursorWire`, `str::parse::<DateTime<Utc>>` -/
structure CursorLibrary : Type where
  valueFromSlice : List UInt8 → Option Value
  wireFromSlice : List UInt8 → Option (String × String)
  parse : String → Option DateTime

/-! ## Tokens -/

/-- A JSON object of strings as an opaque token. -/
def token (members : List (List Char × List Char)) : String :=
  String.ofList (Base64Url.encode (utf8 (Json.writeObject members)))

def notAToken : Fault Error := .error (.invalidRequest "cursor is not a valid opaque token")

/-- What cannot be read is the caller's fault. -/
def orNotAToken {α : Type} : Option α → Answer α
  | some a => .ok a
  | none => .error notAToken

/-- The bytes of a token. SOURCE: core/src/cursor.rs:79-90, adapters/src/dynamo/mod.rs:119-128 -/
def jsonBytes (raw : String) : Answer (List UInt8) :=
  if raw = "" then
    .error (.error (.invalidRequest "cursor must be a non-empty opaque token"))
  else orNotAToken (Base64Url.decode raw.toList)

/-! ## The keyset cursor -/

/-- SOURCE: core/src/cursor.rs:25-29 -/
structure KeysetCursor : Type where
  createdAt : DateTime
  id : String
  deriving DecidableEq

namespace KeysetCursor

variable (lib : CursorLibrary)

/-- SOURCE: core/src/cursor.rs:31-37 -/
def wire (cursor : KeysetCursor) : List (List Char × List Char) :=
  [("c".toList, cursor.createdAt.toRfc3339.toList), ("i".toList, cursor.id.toList)]

/-- SOURCE: core/src/cursor.rs:78-111 -/
def decode (raw : String) : Answer KeysetCursor := do
  let bytes ← jsonBytes raw
  let (c, i) ← orNotAToken (lib.wireFromSlice bytes)
  if i = "" then .error notAToken
  else
    let createdAt ← orNotAToken (lib.parse c)
    return { createdAt := createdAt, id := i }

/-- What was decoded is what was encoded; anything else ends the call. -/
def reread (cursor : KeysetCursor) (encoded : String) : Answer String :=
  match decode lib encoded with
  | .ok decoded => if decoded = cursor then .ok encoded else .error .panic
  | .error _ => .error .panic

/-- SOURCE: core/src/cursor.rs:52-71 -/
def encode (cursor : KeysetCursor) : Answer String := do
  assertThat (cursor.id ≠ "")
  let encoded := token cursor.wire
  assertThat (encoded ≠ "")
  reread lib cursor encoded

end KeysetCursor

/-! ## The cursor of a scan -/

/-- The attributes of a key. -/
abbrev KeyMap : Type := Table String Dynamo.Attribute

/-- SOURCE: adapters/src/dynamo/mod.rs:68-71 -/
structure ScanCursor : Type where
  pk : String
  sk : String
  deriving DecidableEq

namespace ScanCursor

variable (lib : CursorLibrary)

/-- A key carries a string that is not empty under the name. -/
def getS (key : KeyMap) (name : String) : Answer String :=
  match key.lookup name with
  | some (.s value) => if value = "" then .error .panic else .ok value
  | _ => .error .panic

/-- SOURCE: adapters/src/dynamo/mod.rs:74-92 -/
def fromKeyMap (key : KeyMap) : Answer ScanCursor := do
  let pk ← getS key "pk"
  let sk ← getS key "sk"
  return { pk := pk, sk := sk }

/-- SOURCE: adapters/src/dynamo/mod.rs:94-101 -/
def toKeyMap (cursor : ScanCursor) : Answer KeyMap := do
  assertThat (cursor.pk ≠ "")
  assertThat (cursor.sk ≠ "")
  return ((∅ : KeyMap).insert "pk" (.s cursor.pk)).insert "sk" (.s cursor.sk)

/-- A member of an object that is a string and not empty. -/
def present (parsed : Value) (name : String) : Option String :=
  match parsed with
  | .object fields => ((fields.lookup name).bind Value.asStr).filter (· ≠ "")
  | _ => none

/-- SOURCE: adapters/src/dynamo/mod.rs:118-150 -/
def decode (raw : String) : Answer ScanCursor := do
  let bytes ← jsonBytes raw
  let parsed ← orNotAToken (lib.valueFromSlice bytes)
  let pk ← orNotAToken (present parsed "pk")
  let sk ← orNotAToken (present parsed "sk")
  return { pk := pk, sk := sk }

def wire (cursor : ScanCursor) : List (List Char × List Char) :=
  [("pk".toList, cursor.pk.toList), ("sk".toList, cursor.sk.toList)]

/-- What was decoded is what was encoded; anything else ends the call. -/
def reread (cursor : ScanCursor) (encoded : String) : Answer String :=
  match decode lib encoded with
  | .ok decoded =>
    if decoded.pk = cursor.pk ∧ decoded.sk = cursor.sk then .ok encoded else .error .panic
  | .error _ => .error .panic

/-- SOURCE: adapters/src/dynamo/mod.rs:103-113 -/
def encode (cursor : ScanCursor) : Answer String := reread lib cursor (token cursor.wire)

/-- The cursor of the next page. SOURCE: adapters/src/dynamo/mod.rs:1393-1402 -/
def nextCursor (key : KeyMap) : Answer String := do
  assertThat (!key.entries.isEmpty)
  let cursor ← fromKeyMap key
  encode lib cursor

/-- The key a page starts after. SOURCE: adapters/src/dynamo/mod.rs:1365-1368 -/
def exclusiveStartKey (raw : String) : Answer KeyMap := do
  let cursor ← decode lib raw
  toKeyMap cursor

end ScanCursor

end Cursors

end OidcExchange
