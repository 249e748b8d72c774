import OidcExchange.Adapters.SessionCodecs
import OidcExchange.Texts.Bytewise

/-!
# Instants in the columns of SQLite

The statements of the SQLite adapter that compare a column of texts with the text of an instant,
or sort by such a column, and the statements that write the columns. How a column is compared is a
parameter of the statements; SQLite compares texts byte by byte.

Left out: the other columns of the users, and the errors of the database.
-/

set_option autoImplicit false

namespace OidcExchange

namespace Sqlite

open Storage Texts

/-! ## Tables -/

/-- The columns of a user that a page is read by. SOURCE: adapters/src/sqlite/mod.rs:24-36 -/
structure UserRow : Type where
  id : String
  createdAt : String

/-- SOURCE: adapters/src/sqlite/mod.rs:24-81 -/
structure Tables : Type where
  users : Table String UserRow
  rows : Rows
  singleUse : Table String String

def Tables.empty : Tables := ⟨∅, ⟨∅, ∅⟩, ∅⟩

/-! ## Comparing columns -/

/-- How a column that holds instants is compared: with an instant bound to the statement, and with
the same column of another row. -/
structure Comparison : Type where
  lt : String → Instant → Bool
  gt : String → Instant → Bool
  eq : String → Instant → Bool
  le : String → String → Bool

/-- The order of texts in SQLite: `memcmp` of their bytes. -/
def binaryLt (a b : String) : Bool := decide (bytes a < bytes b)

/-- The instant is bound as its text, and texts are compared. -/
def textual : Comparison where
  lt column t := binaryLt column (rfc3339 t)
  gt column t := binaryLt (rfc3339 t) column
  eq column t := column == rfc3339 t
  le a b := !binaryLt b a

/-! ## Reading -/

namespace Tables

variable (C : Comparison) (T : Tables)

/-- `SELECT COUNT(*) … WHERE expires_at > ?`. SOURCE: adapters/src/sqlite/mod.rs:1008-1021 -/
def countActiveSessions (now : Instant) : ℕ :=
  T.rows.sessions.countWhere fun _ row => C.gt row.expiresAt now

/-- The rows of the live sessions of a user, the newest first. -/
def liveRows (userId : String) (now : Instant) (limit : ℕ) : List SessionRow :=
  (((T.rows.sessions.entries.map (·.2)).filter fun row =>
    row.userId == userId && C.gt row.expiresAt now).mergeSort fun a b =>
      C.le b.createdAt a.createdAt).take limit

/-- SOURCE: adapters/src/sqlite/mod.rs:1023-1046 -/
def listLiveSessions (R : Readers) (userId : String) (now : Instant) (limit : ℕ) :
    Answer (List Session) :=
  (T.liveRows C userId now limit).mapM (rowToSession R)

/-- SOURCE: adapters/src/sqlite/mod.rs:1083-1119 -/
def cleanupExpiredSessions (now : Instant) : ℕ × Tables :=
  (T.rows.sessions.countWhere (fun _ row => C.lt row.expiresAt now) +
      T.rows.retired.countWhere (fun _ row => C.lt row.expiresAt now) +
      T.singleUse.countWhere (fun _ expiresAt => C.lt expiresAt now),
    { T with
      rows :=
        { sessions := T.rows.sessions.deleteWhere fun _ row => C.lt row.expiresAt now
          retired := T.rows.retired.deleteWhere fun _ row => C.lt row.expiresAt now }
      singleUse := T.singleUse.deleteWhere fun _ expiresAt => C.lt expiresAt now })

/-- SOURCE: adapters/src/sqlite/mod.rs:1121-1144 -/
def putSingleUse (now : Instant) (key : String) (expiresAt : Instant) : Answer Bool × Tables :=
  let claimed := { T with singleUse := T.singleUse.insert key (rfc3339 expiresAt) }
  if key = "" then (.error .panic, T)
  else
    match T.singleUse.lookup key with
    | none => (.ok true, claimed)
    | some existing => if C.lt existing now then (.ok true, claimed) else (.ok false, T)

/-- SOURCE: adapters/src/sqlite/mod.rs:1146-1162 -/
def takeSingleUse (now : Instant) (key : String) : Answer Bool × Tables :=
  if key = "" then (.error .panic, T)
  else
    match T.singleUse.lookup key with
    | none => (.ok false, T)
    | some existing =>
      if C.gt existing now then (.ok true, { T with singleUse := T.singleUse.erase key })
      else (.ok false, T)

/-! ## Writing -/

/-- `INSERT INTO users`; an identifier that is taken fails.
SOURCE: adapters/src/sqlite/mod.rs:535-571 -/
def createUser (id : String) (now : Instant) : Tables :=
  if (T.users.lookup id).isSome then T
  else { T with users := T.users.insert id ⟨id, rfc3339 now⟩ }

/-- The rows that a revocation deletes.
SOURCE: adapters/src/sqlite/mod.rs:949-1004 and 1048-1081 -/
def deleteRows (sessions : SessionRow → Bool) (retired : RetiredRow → Bool) : Tables :=
  { T with
    rows :=
      { sessions := T.rows.sessions.deleteWhere fun _ row => sessions row
        retired := T.rows.retired.deleteWhere fun _ row => retired row } }

/-- SOURCE: adapters/src/sqlite/mod.rs:949-961 -/
def revokeSession (tokenHash : String) : Tables :=
  T.deleteRows (fun row => row.refreshTokenHash == tokenHash) fun _ => false

/-- SOURCE: adapters/src/sqlite/mod.rs:967-1004 -/
def revokeFamily (familyId : String) : Tables :=
  if isValidFamilyId familyId then
    T.deleteRows (fun row => row.familyId == some familyId) fun row => row.familyId == familyId
  else T

/-- SOURCE: adapters/src/sqlite/mod.rs:1048-1081 -/
def revokeAllUserSessions (userId : String) : Tables :=
  if userId = "" then T
  else T.deleteRows (fun row => row.userId == userId) fun row => row.userId == userId

end Tables

/-- A write of the adapter, with the clock it reads. -/
inductive Write : Type
  | createUser (id : String) (now : Instant)
  | storeRefreshToken (session : Session)
  | rotateRefreshToken (now : Instant) (liveHash : String) (replacement : Session)
  | revokeSession (tokenHash : String)
  | revokeFamily (familyId : String)
  | revokeAllUserSessions (userId : String)
  | cleanupExpiredSessions (now : Instant)
  | putSingleUse (now : Instant) (key : String) (expiresAt : Instant)
  | takeSingleUse (now : Instant) (key : String)

/-- The tables after a write. -/
def Tables.write (R : Readers) (reuseRetentionSecs : UInt64) (T : Tables) : Write → Tables
  | .createUser id now => T.createUser id now
  | .storeRefreshToken session => { T with rows := (T.rows.storeRefreshToken R session).2 }
  | .rotateRefreshToken now liveHash replacement =>
    { T with rows := (T.rows.rotateRefreshToken R reuseRetentionSecs now liveHash replacement).2 }
  | .revokeSession tokenHash => T.revokeSession tokenHash
  | .revokeFamily familyId => T.revokeFamily familyId
  | .revokeAllUserSessions userId => T.revokeAllUserSessions userId
  | .cleanupExpiredSessions now => (T.cleanupExpiredSessions textual now).2
  | .putSingleUse now key expiresAt => (T.putSingleUse textual now key expiresAt).2
  | .takeSingleUse now key => (T.takeSingleUse textual now key).2

end Sqlite

end OidcExchange
