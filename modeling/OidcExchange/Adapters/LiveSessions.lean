import OidcExchange.Adapters.Dynamo
import OidcExchange.Adapters.Lmdb
import OidcExchange.Adapters.Postgres
import OidcExchange.Adapters.Sqlite
import OidcExchange.Adapters.Valkey

/-!
# Listing a user's sessions in five stores

Each listing goes its own way to the sessions of a user, compares their expiry with the instant it
is given, sorts them and cuts the list; each reads one state of its store. PostgreSQL keeps
microseconds. Also the cleanup of PostgreSQL, whose rows are those one transaction sees.

Left out: the batches in which DynamoDB reads the items, and their retries.
-/

set_option autoImplicit false

namespace OidcExchange

open Storage

/-- `sort_by_key(|s| Reverse(s.created_at))` -/
def newestFirst (sessions : List Session) : List Session :=
  sessions.mergeSort fun a b => b.createdAt ≤ a.createdAt

theorem perm_newestFirst (l : List Session) : (newestFirst l).Perm l := List.mergeSort_perm l _

theorem pairwise_newestFirst (l : List Session) :
    (newestFirst l).Pairwise fun a b => b.createdAt ≤ a.createdAt := by
  refine (List.pairwise_mergeSort ?_ ?_ l).imp fun h => of_decide_eq_true h
  · intro a b c hab hbc
    exact decide_eq_true ((of_decide_eq_true hbc).trans (of_decide_eq_true hab))
  · intro a b
    rw [← Bool.decide_or, decide_eq_true_iff]
    exact Int.le_total _ _

/-- The session with its instants cut to multiples of a number of nanoseconds. -/
def Session.atResolution (unit : ℤ) (s : Session) : Session :=
  { s with
    expiresAt := s.expiresAt / unit * unit
    rotatedAt := s.rotatedAt.map fun t => t / unit * unit
    createdAt := s.createdAt / unit * unit }

/-! ## LMDB -/

/-- SOURCE: adapters/src/lmdb/mod.rs:643-685 -/
def Lmdb.Tables.listLiveSessions (t : Lmdb.Tables) (userId : String) (now : Instant)
    (limit : ℕ) : Answer (List Session) :=
  let named := (Lmdb.prefixIter t.userSessions (userId ++ ":")).filterMap fun e =>
    t.sessions.lookup e.1
  .ok ((newestFirst (named.filter fun s => s.userId == userId && now < s.expiresAt)).take limit)

/-! ## PostgreSQL -/

namespace Postgres

/-- Nanoseconds in the resolution of `TIMESTAMPTZ`. -/
def resolution : ℤ := 1000

/-- The largest `LIMIT`. -/
def maxLimit : ℕ := 2 ^ 63 - 1

/-- The sessions among the rows, as they are read. -/
def readSessions (rows : List Row) : List Session :=
  rows.filterMap fun row =>
    match row with
    | .session s => some (s.atResolution resolution)
    | .retired _ => none

/-- SOURCE: adapters/src/postgres/mod.rs:989-1008 -/
def listLiveSessions (rows : List Row) (userId : String) (now : Instant) (limit : ℕ) :
    Answer (List Session) :=
  if maxLimit < limit then
    .error (.error (.storeError "error returned from database: LIMIT must not be negative"))
  else
    .ok ((newestFirst ((readSessions rows).filter fun s =>
      s.userId == userId && now / resolution * resolution < s.expiresAt)).take limit)

/-- The rows `DELETE … WHERE expires_at < NOW()` takes. -/
def expiredAt (now : Instant) : Row → Bool
  | .session s => (s.expiresAt / resolution : ℤ) < now / resolution
  | .retired r => (r.expiresAt / resolution : ℤ) < now / resolution

/-- The rows of sessions and retirement records a cleanup leaves.
SOURCE: adapters/src/postgres/mod.rs:1037-1060 -/
def cleanupExpiredSessions (now : Instant) (rows : List Row) : List Row :=
  rows.filter fun row => !expiredAt now row

end Postgres

/-! ## Valkey -/

/-- SOURCE: adapters/src/valkey/mod.rs:663-693 -/
def Valkey.Keyspace.listLiveSessions (ks : Valkey.Keyspace) (userId : String) (now : Instant)
    (limit : ℕ) : Answer (List Session) :=
  let named := (ks.purge.sets.members (.userSessions userId)).filterMap fun h =>
    ks.purge.sessions.lookup h
  .ok ((newestFirst (named.filter fun s => s.userId == userId && now < s.expiresAt)).take limit)

/-! ## DynamoDB -/

namespace Dynamo

/-- The sessions a user's roster names as live. -/
def Store.rosterSessions (w : Store) (userId : String) : List Session :=
  let named := (w.roster userId).liveHashes.filter (· != "")
  named.filterMap fun h => w.sessions.lookup h

/-- SOURCE: adapters/src/dynamo/mod.rs:1873-1946 -/
def Store.listLiveSessions (w : Store) (userId : String) (now : Instant) (limit : ℕ) :
    Answer (List Session) :=
  .ok ((newestFirst ((w.rosterSessions userId).filter fun s => now < s.expiresAt)).take limit)

end Dynamo

end OidcExchange
