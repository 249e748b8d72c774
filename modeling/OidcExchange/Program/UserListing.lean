import Mathlib.Data.Prod.Lex
import OidcExchange.Adapters.LiveSessions
import OidcExchange.Adapters.Timestamps
import OidcExchange.Program.AccessToken
import OidcExchange.Storage.Keyset

/-!
# Listing users page by page

The listing of users in the SQL stores: the cursor a page ends with and its text, the page below
a cursor, and the bounds the service puts on the size of a page. A page is one statement, so it
is a function of the users as they are when it is read.

The JSON, base64url and RFC 3339 readers are parameters; so is the collation by which PostgreSQL
compares texts.
-/

set_option autoImplicit false

namespace OidcExchange

open Storage

/-! ## The size of a page -/

/-- SOURCE: core/src/domain/user.rs:21 -/
def maxAdminPageSize : UInt32 := 200

/-- SOURCE: core/src/domain/user.rs:25 -/
def defaultAdminPageSize : UInt32 := 50

/-- SOURCE: core/src/domain/user.rs:34-41 -/
def clampAdminPageLimit (limit : UInt32) : Answer UInt32 :=
  if limit = 0 then
    .error (.error (.invalidRequest ("limit must be at least 1 and at most " ++
      maxAdminPageSize.toNat.repr)))
  else .ok (min limit maxAdminPageSize)

/-! ## Cursors -/

/-- The position of the last row of a page. SOURCE: core/src/cursor.rs:25-29 -/
structure KeysetCursor : Type where
  createdAt : Instant
  id : String
  deriving DecidableEq

/-- What writes and reads the text of a cursor. SOURCE: `serde_json`, `URL_SAFE_NO_PAD`,
`str::parse::<DateTime<Utc>>` -/
structure CursorCodec (Bytes : Type) : Type where
  wire : Wire Bytes
  parse : String → Option Instant

namespace KeysetCursor

variable {Bytes : Type} (codec : CursorCodec Bytes)

/-- SOURCE: core/src/cursor.rs:31-37 -/
def toWire (c : KeysetCursor) : Value :=
  .object [("c", .string (rfc3339 c.createdAt)), ("i", .string c.id)]

/-- The reader also takes the two fields in a row, without their names.
SOURCE: core/src/cursor.rs:31-37 -/
def fieldsOfWire : Value → Option (String × String)
  | .object fields => do
    let c ← (← uniqueMember fields "c").asStr
    let i ← (← uniqueMember fields "i").asStr
    some (c, i)
  | .array [c, i] => do
    some (← c.asStr, ← i.asStr)
  | _ => none

def notAToken : Fault Error := .error (.invalidRequest "cursor is not a valid opaque token")

/-- The cursor in the bytes of a token. -/
def ofBytes (bytes : Bytes) : Option KeysetCursor := do
  let (c, i) ← fieldsOfWire (← codec.wire.fromSlice bytes)
  if i = "" then none
  let createdAt ← codec.parse c
  some { createdAt := createdAt, id := i }

/-- SOURCE: core/src/cursor.rs:78-111 -/
def decode (raw : String) : Answer KeysetCursor :=
  if raw = "" then
    .error (.error (.invalidRequest "cursor must be a non-empty opaque token"))
  else
    match (codec.wire.decode raw).bind (ofBytes codec) with
    | some cursor => .ok cursor
    | none => .error notAToken

/-- A cursor without an identifier, or one that is not read back, ends the call.
SOURCE: core/src/cursor.rs:52-71 -/
def encode (c : KeysetCursor) : Answer String :=
  let encoded := codec.wire.encode (codec.wire.toVec c.toWire)
  if c.id = "" then .error .panic
  else if encoded = "" then .error .panic
  else
    match decode codec encoded with
    | .ok decoded => if decoded = c then .ok encoded else .error .panic
    | .error _ => .error .panic

end KeysetCursor

/-! ## A page -/

/-- SOURCE: core/src/domain/user.rs:53-56 -/
structure UserPage : Type where
  users : List User
  nextCursor : Option String

/-- How a store gives a row back, and where in the listing it places a creation time and an
identifier. -/
structure UserOrder (κ : Type) : Type where
  read : User → User
  place : Instant → String → κ

namespace UserOrder

variable {κ : Type} (order : UserOrder κ)

/-- The place of a row that was read. -/
def key (user : User) : κ := order.place user.createdAt user.id

/-- All rows, as they are read. -/
def rows (users : Table String User) : List User :=
  users.entries.map fun e => order.read e.2

end UserOrder

section Listing

variable {Bytes κ : Type} [LinearOrder κ] (codec : CursorCodec Bytes) (order : UserOrder κ)

/-- The page after a cursor. One row more than the limit is read; where it is there, more follow.
SOURCE: adapters/src/sqlite/mod.rs:712-775, adapters/src/postgres/mod.rs:706-769 -/
def listUsers (users : Table String User) (cursor : Option String) (limit : UInt32) :
    Answer UserPage :=
  if ¬(1 ≤ limit ∧ limit ≤ maxAdminPageSize) then .error .panic
  else do
    let resumeAfter ← cursor.mapM (KeysetCursor.decode codec)
    let rows := Keyset.select order.key (order.rows users)
      (resumeAfter.map fun position => order.place position.createdAt position.id)
      (limit.toNat + 1)
    let hasMore := decide (limit.toNat < rows.length)
    let page := if hasMore then rows.take limit.toNat else rows
    if hasMore then
      match page.getLast? with
      | some last =>
        let next ← KeysetCursor.encode codec { createdAt := last.createdAt, id := last.id }
        .ok { users := page, nextCursor := some next }
      | none => .error .panic
    else .ok { users := page, nextCursor := none }

/-- SOURCE: core/src/service/user_admin.rs:622-652 -/
def adminListUsers (users : Table String User) (cursor : Option String) (limit : Option UInt32) :
    Answer UserPage := do
  let effectiveLimit ← match limit with
    | some requested => clampAdminPageLimit requested
    | none => .ok defaultAdminPageSize
  if effectiveLimit < 1 ∨ maxAdminPageSize < effectiveLimit then .error .panic
  else
    let page ← listUsers codec order users cursor effectiveLimit
    if effectiveLimit.toNat < page.users.length then .error .panic
    else .ok page

end Listing

/-! ## The two stores -/

/-- Instants are kept as texts and compared as texts.
SOURCE: adapters/src/sqlite/mod.rs:724-741 -/
def Sqlite.userOrder : UserOrder (String ×ₗ String) where
  read user := user
  place createdAt id := toLex (rfc3339 createdAt, id)

/-- Instants are kept to the microsecond; identifiers are compared under a collation.
SOURCE: adapters/src/postgres/mod.rs:718-744 -/
def Postgres.userOrder {α : Type} (collate : String → α) : UserOrder (ℤ ×ₗ α) where
  read user :=
    { user with
      createdAt := user.createdAt / resolution * resolution
      updatedAt := user.updatedAt / resolution * resolution }
  place createdAt id := toLex (createdAt / resolution, collate id)

end OidcExchange
