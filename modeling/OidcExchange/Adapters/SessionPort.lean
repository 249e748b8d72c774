import OidcExchange.Adapters.LiveSessions
import OidcExchange.Interleaving.Alone

/-!
# The session port on LMDB and on SQLite

Every call of the port, made one after the other: what the LMDB and the SQLite adapter answer at a
reading of the clock, and the store they leave.

Left out: `get_session_by_refresh_token` and `count_active_sessions`.
-/

set_option autoImplicit false

namespace OidcExchange

open Storage Interleaving

/-- A call of the session port. SOURCE: core/src/ports/repository.rs:83-179 -/
inductive SessionCall : Type
  | storeRefreshToken (session : Session)
  | rotateRefreshToken (liveHash : String) (replacement : Session)
  | resolveRefreshToken (tokenHash : String)
  | revokeSession (tokenHash : String)
  | revokeFamily (familyId : String)
  | revokeAllUserSessions (userId : String)
  | listLiveSessions (userId : String) (now : Instant) (limit : ℕ)
  | cleanupExpiredSessions
  | putSingleUse (key : String) (expiresAt : Instant)
  | takeSingleUse (key : String)

/-- What a call returns. -/
inductive SessionResult : Type
  | done
  | flag (b : Bool)
  | count (n : ℕ)
  | classified (resolution : RefreshResolution)
  | listed (sessions : List Session)
  deriving DecidableEq

/-- A call at a reading of the clock. -/
structure TimedCall : Type where
  now : Instant
  call : SessionCall

/-- An answer and the store it leaves, as the port returns them. -/
def asResult {α σ : Type} (f : α → SessionResult) (done : Answer α × σ) :
    Answer SessionResult × σ := (done.1.map f, done.2)

/-! ## LMDB -/

namespace Lmdb

/-- SOURCE: adapters/src/lmdb/mod.rs:381-450 -/
def Tables.resolveRefreshToken (t : Tables) (now : Instant) (tokenHash : String) :
    Answer RefreshResolution :=
  if tokenHash.isEmpty then .error .panic else
  match t.sessions.lookup tokenHash with
  | some session => .ok (.live session)
  | none =>
    match t.retiredTokens.lookup tokenHash with
    | none => .ok .unknown
    | some record =>
      if record.expiresAt ≤ now then .ok .unknown else
      match t.sessions.lookup record.successorHash with
      | some successor =>
        if successor.familyId = record.familyId then .ok (.superseded successor record.retiredAt)
        else .error taskPanicked
      | none => .ok (.retired record.familyId record.userId record.retiredAt)

/-- The result of a call that runs alone, with every transaction taking place. -/
def runAlone {α : Type} (reuseRetentionSecs : UInt64) (p : Adapter Ans α) (env : Env) :
    Option (Except (Fault Error) α × Env) :=
  p.alone (semantics reuseRetentionSecs) .proceed env

/-- What the adapter answers to a call. -/
def answer (reuseRetentionSecs : UInt64) (call : SessionCall) (env : Env) :
    Option (Answer SessionResult × Env) :=
  match call with
  | .storeRefreshToken s =>
    (runAlone reuseRetentionSecs (storeRefreshToken s) env).map (asResult fun _ => .done)
  | .rotateRefreshToken h r =>
    (runAlone reuseRetentionSecs (rotateRefreshToken h r) env).map (asResult .flag)
  | .resolveRefreshToken h =>
    some (asResult .classified (env.tables.resolveRefreshToken env.clock h, env))
  | .revokeSession h =>
    (runAlone reuseRetentionSecs (revokeSession h) env).map (asResult fun _ => .done)
  | .revokeFamily f => (runAlone reuseRetentionSecs (revokeFamily f) env).map (asResult .count)
  | .revokeAllUserSessions u =>
    (runAlone reuseRetentionSecs (revokeAllUserSessions u) env).map (asResult .count)
  | .listLiveSessions u now limit =>
    some (asResult .listed (env.tables.listLiveSessions u now limit, env))
  | .cleanupExpiredSessions =>
    (runAlone reuseRetentionSecs cleanupExpiredSessions env).map (asResult .count)
  | .putSingleUse key e =>
    (runAlone reuseRetentionSecs (Adapter.await (Program.ask (Txn.putSingleUse key e))) env).map
      (asResult .flag)
  | .takeSingleUse key =>
    (runAlone reuseRetentionSecs (Adapter.await (Program.ask (Txn.takeSingleUse key))) env).map
      (asResult .flag)

/-- The adapter at the reading of the clock a call is made at. -/
def server (reuseRetentionSecs : UInt64) : Server TimedCall (Answer SessionResult) Env :=
  fun i env => answer reuseRetentionSecs i.call { env with clock := i.now }

end Lmdb

/-! ## SQLite -/

namespace Sqlite

/-- What the adapter answers to a call. -/
def Database.answer (reuseRetentionSecs : UInt64) (now : Instant) (call : SessionCall)
    (db : Database) : Answer SessionResult × Database :=
  match call with
  | .storeRefreshToken s => asResult (fun _ => .done) (db.storeRefreshToken s)
  | .rotateRefreshToken h r => asResult .flag (db.rotateRefreshToken reuseRetentionSecs now h r)
  | .resolveRefreshToken h => asResult .classified (db.resolveRefreshToken now h, db)
  | .revokeSession h => asResult (fun _ => .done) (db.revokeSession h)
  | .revokeFamily f => asResult .count (db.revokeFamily f)
  | .revokeAllUserSessions u => asResult .count (db.revokeAllUserSessions u)
  | .listLiveSessions u now limit => asResult .listed (db.listLiveSessions u now limit, db)
  | .cleanupExpiredSessions => asResult .count (db.cleanupExpiredSessions now)
  | .putSingleUse key e => asResult .flag (db.putSingleUse now key e)
  | .takeSingleUse key => asResult .flag (db.takeSingleUse now key)

def server (reuseRetentionSecs : UInt64) : Server TimedCall (Answer SessionResult) Database :=
  fun i db => some (db.answer reuseRetentionSecs i.now i.call)

end Sqlite

end OidcExchange
