import OidcExchange.Adapters.Adapter
import OidcExchange.Storage.Versions

/-!
# The session store on PostgreSQL

The writes of the session port as the Postgres adapter performs them: every statement
runs at the default isolation level, read committed, in the transaction of its call. A
`DELETE` is a snapshot followed by one visit for each row of it.

Left out: the columns of `users` and `single_use`, the reads of the port, and storing
and cleaning up sessions.
-/

set_option autoImplicit false

namespace OidcExchange

namespace Postgres

open Interleaving Storage

/-- A row of `sessions` or of `retired_refresh_tokens`.
SOURCE: adapters/src/postgres/mod.rs:48-84 -/
inductive Row : Type
  | session (session : Session)
  | retired (record : RetiredRefreshToken)
  deriving DecidableEq

/-- The `WHERE` clauses of the adapter's deletions. -/
inductive Selector : Type
  | sessionHash (tokenHash : String)
  | sessionFamily (familyId : String)
  | sessionUser (userId : String)
  | retiredFamily (familyId : String)
  | retiredUser (userId : String)
  deriving DecidableEq

/-- The row meets the `WHERE` clause. -/
def Selector.selects : Selector → Row → Bool
  | .sessionHash h, .session s => s.refreshTokenHash == h
  | .sessionFamily f, .session s => s.familyId == f
  | .sessionUser u, .session s => s.userId == u
  | .retiredFamily f, .retired r => r.familyId == f
  | .retiredUser u, .retired r => r.userId == u
  | _, _ => false

/-- Two rows of one table have the same primary key. -/
def Row.sameKey : Row → Row → Bool
  | .session s, .session t => s.refreshTokenHash == t.refreshTokenHash
  | .retired s, .retired t => s.refreshTokenHash == t.refreshTokenHash
  | _, _ => false

/-- The statements of the adapter. -/
inductive Sql : Type
  | now
  | begin
  /-- `SELECT * FROM sessions WHERE refresh_token_hash = $1` -/
  | selectSession (tokenHash : String)
  /-- A `DELETE` starts and takes its snapshot. -/
  | deleteScan (selector : Selector)
  /-- A `DELETE` comes to one row of its snapshot. -/
  | deleteRow (place : ℕ)
  /-- `INSERT INTO sessions` or `INSERT INTO retired_refresh_tokens` -/
  | insertRow (row : Row)
  | commit
  | rollback

/-- The type of the answer to a statement. -/
abbrev Ans : Sql → Type
  | .now => Instant
  | .begin => Answer Unit
  | .selectSession _ => Answer (Option Session)
  | .deleteScan _ => Answer (List ℕ)
  | .deleteRow _ => Answer Bool
  | .insertRow _ => Answer Unit
  | .commit => Answer Unit
  | .rollback => Answer Unit

/-- What the environment decides for one statement. -/
inductive Choice : Type
  | proceed
  | fail (e : Error)
  /-- The commit takes place and its acknowledgement is lost. -/
  | lost (e : Error)

/-- The database and the clock of the service. -/
structure Database : Type where
  heap : Heap Row
  clock : Instant

/-- The sessions that a query of transaction `c` returns for a hash. -/
def findSession (heap : Heap Row) (c : ℕ) (tokenHash : String) : Option Session :=
  heap.versions.findSome? fun v =>
    match v.row with
    | .session s => if heap.sees c v && s.refreshTokenHash == tokenHash then some s else none
    | .retired _ => none

/-- The error of an insertion under a primary key that is taken. -/
def duplicateKey : Fault Error :=
  .error (.storeError
    "error returned from database: duplicate key value violates unique constraint")

/-- A statement of a transaction that has not ended has its effect, or it fails and the
transaction is rolled back. -/
def transact {α : Type} (x : Choice) (c : ℕ) (db : Database)
    (effect : Option (Answer α × Heap Row)) : Option (Answer α × Database) :=
  if db.heap.status c = .active then
    match x with
    | .proceed => effect.map fun r => (r.1, { db with heap := r.2 })
    | .fail e => some (.error (.error e), { db with heap := db.heap.finish c .aborted })
    | .lost _ => none
  else none

/-- One statement of call `c`, whose transaction bears its number. -/
def exec (x : Choice) (c : ℕ) : (o : Sql) → Database → Option (Ans o × Database)
  | .now, db => some (db.clock, db)
  | .begin, db => transact x c db (some (.ok (), db.heap))
  | .selectSession h, db => transact x c db (some (.ok (findSession db.heap c h), db.heap))
  | .deleteScan sel, db => transact x c db (some (.ok (db.heap.scan c sel.selects), db.heap))
  | .deleteRow i, db =>
    transact x c db ((db.heap.remove c i).map fun r => (.ok r.1, r.2))
  | .insertRow row, db =>
    transact x c db ((db.heap.insertUnique c row.sameKey row).map fun inserted =>
      match inserted with
      | some heap => (.ok (), heap)
      | none => (.error duplicateKey, db.heap.finish c .aborted))
  | .commit, db =>
    let heap := db.heap.finish c .committed
    match x with
    | .lost e => transact .proceed c db (some (.error (.error e), heap))
    | x => transact x c db (some (.ok (), heap))
  | .rollback, db => transact x c db (some (.ok (), db.heap.finish c .aborted))

/-- Time passes. -/
inductive Drift : Type
  | tick (clock : Instant)

def drift : Drift → Database → Option Database
  | .tick t, db => if db.clock ≤ t then some { db with clock := t } else none

def semantics : Semantics Ans Database Choice Drift where
  exec := exec
  drift := drift

/-! ## The adapter -/

/-- One statement of the call, whose failure ends the call. -/
abbrev begin : Adapter Ans Unit := Adapter.await (Program.ask Sql.begin)

abbrev selectSession (tokenHash : String) : Adapter Ans (Option Session) :=
  Adapter.await (Program.ask (Sql.selectSession tokenHash))

abbrev insertRow (row : Row) : Adapter Ans Unit := Adapter.await (Program.ask (Sql.insertRow row))

abbrev commit : Adapter Ans Unit := Adapter.await (Program.ask Sql.commit)

abbrev rollback : Adapter Ans Unit := Adapter.await (Program.ask Sql.rollback)

/-- A failed assertion unwinds the call, and dropping its transaction rolls it back. -/
def unwind {α : Type} : Adapter Ans α := .perform .rollback fun _ => .raise .panic

/-- A `DELETE` visits the rows of its snapshot and counts those it deletes. -/
def deleteRows : List ℕ → ℕ → Adapter Ans ℕ
  | [], count => .done count
  | i :: rest, count => do
    let deleted ← Adapter.await (Program.ask (Sql.deleteRow i))
    deleteRows rest (if deleted then count + 1 else count)

/-- `DELETE FROM … WHERE …`, with the number of rows it deleted. -/
def delete (selector : Selector) : Adapter Ans ℕ := do
  let places ← Adapter.await (Program.ask (Sql.deleteScan selector))
  deleteRows places 0

/-- SOURCE: adapters/src/postgres/mod.rs:854-936 -/
def rotateRefreshToken (reuseRetentionSecs : UInt64) (liveHash : String)
    (replacement : Session) : Adapter Ans Bool := do
  Adapter.assert (liveHash != replacement.refreshTokenHash)
  Adapter.assert (isValidFamilyId replacement.familyId)
  begin
  match ← selectSession liveHash with
  | none =>
    rollback
    return false
  | some live =>
    if live.familyId ≠ "" ∧ live.familyId ≠ replacement.familyId then unwind else
    if live.userId ≠ replacement.userId then unwind else
    let deleted ← delete (.sessionHash liveHash)
    if deleted = 0 then
      rollback
      return false
    else
      if live.familyId = "" then
        insertRow (.session replacement)
        commit
        return true
      else
        let now ← Program.ask Sql.now
        match World.retirementRecord liveHash live replacement reuseRetentionSecs now with
        | none => unwind
        | some record =>
          insertRow (.retired record)
          insertRow (.session replacement)
          commit
          return true

/-- A `DELETE` on its own commits when it is done.
SOURCE: adapters/src/postgres/mod.rs:939-949 -/
def revokeSession (tokenHash : String) : Adapter Ans Unit := do
  let _ ← delete (.sessionHash tokenHash)
  commit

/-- SOURCE: adapters/src/postgres/mod.rs:955-975 -/
def revokeFamily (familyId : String) : Adapter Ans ℕ := do
  Adapter.assert (isValidFamilyId familyId)
  begin
  let live ← delete (.sessionFamily familyId)
  let retired ← delete (.retiredFamily familyId)
  commit
  return live + retired

/-- SOURCE: adapters/src/postgres/mod.rs:1011-1035 -/
def revokeAllUserSessions (userId : String) : Adapter Ans ℕ := do
  Adapter.assert (userId != "")
  begin
  let live ← delete (.sessionUser userId)
  let _ ← delete (.retiredUser userId)
  commit
  return live

/-- A write of the session port. -/
inductive Request : Type
  | rotate (liveHash : String) (replacement : Session)
  | revokeSession (tokenHash : String)
  | revokeFamily (familyId : String)
  | revokeAllUserSessions (userId : String)

/-- What a write returns. -/
inductive Response : Type
  | swapped (won : Bool)
  | done
  | revoked (count : ℕ)

/-- The call a request starts. -/
def serve (reuseRetentionSecs : UInt64) : Request → Adapter Ans Response
  | .rotate h r => .swapped <$> rotateRefreshToken reuseRetentionSecs h r
  | .revokeSession h => (fun _ => .done) <$> revokeSession h
  | .revokeFamily f => .revoked <$> revokeFamily f
  | .revokeAllUserSessions u => .revoked <$> revokeAllUserSessions u

abbrev StorePool : Type := Pool Ans Request (Fault Error) Response Database

abbrev StoreAct : Type := Act Request Choice Drift

abbrev StoreMoment : Type := Moment Ans Request Database

/-- The adapter as a transition system: any calls, statement by statement, in any order. -/
def store (reuseRetentionSecs : UInt64) : System StorePool StoreAct :=
  Pool.system semantics (serve reuseRetentionSecs)

/-- The store before any call, with committed rows. -/
def StorePool.start (rows : List Row) (clock : Instant) : StorePool :=
  Pool.initial { heap := .ofRows rows, clock := clock }

end Postgres

end OidcExchange
