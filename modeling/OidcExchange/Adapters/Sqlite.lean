import Mathlib.Data.String.Basic
import OidcExchange.Adapters.Timestamps

/-!
# The session store on SQLite

Every call of the session port as the SQLite adapter performs it, one call after the other.
Instants are columns of text, and a condition on them compares texts; rows are kept here as the
records they are read back as.

Left out: the encoding of the other columns, and the column of a session's location.
-/

set_option autoImplicit false

namespace OidcExchange

namespace Sqlite

open Storage

/-- The tables of the session port. SOURCE: adapters/src/sqlite/mod.rs:47-81 -/
structure Database : Type where
  sessions : Table String Session
  retired : Table String RetiredRefreshToken
  singleUse : Table String String

def Database.empty : Database := ⟨∅, ∅, ∅⟩

/-- The error of an insertion under a primary key that is taken. -/
def uniqueViolation (table : String) : Fault Error :=
  .error (.storeError ("error returned from database: (code: 1555) UNIQUE constraint failed: " ++
    table ++ ".refresh_token_hash"))

namespace Database

variable (db : Database)

/-- `INSERT OR REPLACE INTO sessions`. SOURCE: adapters/src/sqlite/mod.rs:783-785 -/
def storeRefreshToken (session : Session) : Answer Unit × Database :=
  (.ok (), { db with sessions := db.sessions.insert session.refreshTokenHash session })

/-- SOURCE: adapters/src/sqlite/mod.rs:813-846 -/
def resolveRefreshToken (now : Instant) (tokenHash : String) : Answer RefreshResolution :=
  if tokenHash.isEmpty then .error .panic else
  match db.sessions.lookup tokenHash with
  | some session => .ok (.live session)
  | none =>
    match db.retired.lookup tokenHash with
    | none => .ok .unknown
    | some record =>
      if record.expiresAt ≤ now then .ok .unknown else
      match db.sessions.lookup record.successorHash with
      | some successor => .ok (.superseded successor record.retiredAt)
      | none => .ok (.retired record.familyId record.userId record.retiredAt)

/-- `INSERT INTO sessions`. SOURCE: adapters/src/sqlite/mod.rs:441-488 -/
def insertSession (session : Session) : Answer Database :=
  if (db.sessions.lookup session.refreshTokenHash).isSome then
    .error (uniqueViolation "sessions")
  else .ok { db with sessions := db.sessions.insert session.refreshTokenHash session }

/-- `INSERT INTO retired_refresh_tokens`. SOURCE: adapters/src/sqlite/mod.rs:922-938 -/
def insertRetired (record : RetiredRefreshToken) : Answer Database :=
  if (db.retired.lookup record.refreshTokenHash).isSome then
    .error (uniqueViolation "retired_refresh_tokens")
  else .ok { db with retired := db.retired.insert record.refreshTokenHash record }

/-- The statements after the live row was deleted; a failure rolls the transaction back.
SOURCE: adapters/src/sqlite/mod.rs:912-946 -/
def installReplacement (reuseRetentionSecs : UInt64) (now : Instant) (liveHash : String)
    (live replacement : Session) : Answer Database :=
  if live.familyId = "" then db.insertSession replacement
  else
    match World.retirementRecord liveHash live replacement reuseRetentionSecs now with
    | none => .error .panic
    | some record => db.insertRetired record >>= fun db => db.insertSession replacement

/-- SOURCE: adapters/src/sqlite/mod.rs:848-947 -/
def rotateRefreshToken (reuseRetentionSecs : UInt64) (now : Instant) (liveHash : String)
    (replacement : Session) : Answer Bool × Database :=
  if liveHash = replacement.refreshTokenHash ∨ isValidFamilyId replacement.familyId = false then
    (.error .panic, db)
  else
    match db.sessions.lookup liveHash with
    | none => (.ok false, db)
    | some live =>
      if (live.familyId ≠ "" ∧ live.familyId ≠ replacement.familyId) ∨
          live.userId ≠ replacement.userId then
        (.error .panic, db)
      else
        match ({ db with sessions := db.sessions.erase liveHash }).installReplacement
            reuseRetentionSecs now liveHash live replacement with
        | .ok db' => (.ok true, db')
        | .error e => (.error e, db)

/-- SOURCE: adapters/src/sqlite/mod.rs:949-961 -/
def revokeSession (tokenHash : String) : Answer Unit × Database :=
  (.ok (), { db with sessions := db.sessions.erase tokenHash })

/-- SOURCE: adapters/src/sqlite/mod.rs:967-1004 -/
def revokeFamily (familyId : String) : Answer ℕ × Database :=
  if isValidFamilyId familyId = false then (.error .panic, db)
  else
    (.ok (db.sessions.countWhere (fun _ s => s.familyId == familyId) +
        db.retired.countWhere (fun _ r => r.familyId == familyId)),
      { db with
        sessions := db.sessions.deleteWhere fun _ s => s.familyId == familyId
        retired := db.retired.deleteWhere fun _ r => r.familyId == familyId })

/-- `ORDER BY created_at DESC`, for rows of equal times in the order they are read. -/
def newestFirst (sessions : List Session) : List Session :=
  sessions.mergeSort fun a b => rfc3339 b.createdAt ≤ rfc3339 a.createdAt

theorem perm_newestFirst (l : List Session) : (newestFirst l).Perm l := List.mergeSort_perm l _

theorem pairwise_newestFirst (l : List Session) :
    (newestFirst l).Pairwise fun a b => rfc3339 b.createdAt ≤ rfc3339 a.createdAt := by
  refine (List.pairwise_mergeSort ?_ ?_ l).imp fun h => of_decide_eq_true h
  · intro a b c hab hbc
    exact decide_eq_true ((of_decide_eq_true hbc).trans (of_decide_eq_true hab))
  · intro a b
    rw [← Bool.decide_or, decide_eq_true_iff]
    exact le_total _ _

/-- SOURCE: adapters/src/sqlite/mod.rs:1023-1046 -/
def listLiveSessions (userId : String) (now : Instant) (limit : ℕ) : Answer (List Session) :=
  .ok ((newestFirst ((db.sessions.entries.map (·.2)).filter fun s =>
    s.userId == userId && rfc3339 now < rfc3339 s.expiresAt)).take limit)

/-- SOURCE: adapters/src/sqlite/mod.rs:1048-1081 -/
def revokeAllUserSessions (userId : String) : Answer ℕ × Database :=
  if userId = "" then (.error .panic, db)
  else
    (.ok (db.sessions.countWhere fun _ s => s.userId == userId),
      { db with
        sessions := db.sessions.deleteWhere fun _ s => s.userId == userId
        retired := db.retired.deleteWhere fun _ r => r.userId == userId })

/-- SOURCE: adapters/src/sqlite/mod.rs:1083-1119 -/
def cleanupExpiredSessions (now : Instant) : Answer ℕ × Database :=
  (.ok (db.sessions.countWhere (fun _ s => rfc3339 s.expiresAt < rfc3339 now) +
      db.retired.countWhere (fun _ r => rfc3339 r.expiresAt < rfc3339 now) +
      db.singleUse.countWhere (fun _ expiresAt => expiresAt < rfc3339 now)),
    { sessions := db.sessions.deleteWhere fun _ s => rfc3339 s.expiresAt < rfc3339 now
      retired := db.retired.deleteWhere fun _ r => rfc3339 r.expiresAt < rfc3339 now
      singleUse := db.singleUse.deleteWhere fun _ expiresAt => expiresAt < rfc3339 now })

def putSingleUse (now : Instant) (key : String) (expiresAt : Instant) : Answer Bool × Database :=
  let done := Sqlite.putSingleUse rfc3339 now key expiresAt db.singleUse
  (done.1, { db with singleUse := done.2 })

def takeSingleUse (now : Instant) (key : String) : Answer Bool × Database :=
  let done := Sqlite.takeSingleUse rfc3339 now key db.singleUse
  (done.1, { db with singleUse := done.2 })

end Database

end Sqlite

end OidcExchange
