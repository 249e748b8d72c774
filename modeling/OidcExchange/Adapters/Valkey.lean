import OidcExchange.Adapters.Adapter
import OidcExchange.Storage.Table

/-!
# The session store on Valkey

The writes of the session port as the Valkey adapter performs them. Each command, and
the rotation script as a whole, is one atomic operation; a pipeline is a batch of commands
without atomicity. A key with a deadline is dropped before the first command that runs
after it.

Left out: the hash encoding of a session, the reads of the port, the single-use records
and the periodic clean-up.
-/

set_option autoImplicit false

namespace OidcExchange

namespace Valkey

open Interleaving Storage

/-- The keys of the adapter; the prefix and the kind make them different texts.
SOURCE: adapters/src/valkey/mod.rs:155-173 -/
inductive Key : Type
  | session (tokenHash : String)
  | retired (tokenHash : String)
  | family (familyId : String)
  | userSessions (userId : String)
  | activeSessions
  deriving DecidableEq

/-- The keyspace of the server and its clock. -/
structure Keyspace : Type where
  sessions : Table String Session
  retired : Table String RetiredRefreshToken
  sets : Sets Key String
  activeSessions : ℤ
  deadlines : Table Key Instant
  clock : Instant

namespace Keyspace

/-- The keyspace with no key. -/
def empty (clock : Instant) : Keyspace :=
  { sessions := ∅, retired := ∅, sets := ∅, activeSessions := 0, deadlines := ∅, clock := clock }

variable (ks : Keyspace)

/-- `EXISTS` -/
def has : Key → Bool
  | .session h => (ks.sessions.lookup h).isSome
  | .retired h => (ks.retired.lookup h).isSome
  | .activeSessions => true
  | k => (ks.sets.lookup k).isSome

/-- The deadline of the key has passed. -/
def expired (k : Key) : Bool := (ks.deadlines.lookup k).any fun t => t ≤ ks.clock

/-- The keyspace without the keys whose deadline has passed. -/
def purge : Keyspace :=
  { ks with
    sessions := ks.sessions.deleteWhere fun h _ => ks.expired (.session h),
    retired := ks.retired.deleteWhere fun h _ => ks.expired (.retired h),
    sets := ks.sets.deleteWhere fun k _ => ks.expired k,
    deadlines := ks.deadlines.deleteWhere fun k _ => ks.expired k }

/-- `DEL` of one key. -/
def delKey (k : Key) : Keyspace :=
  let ks := { ks with deadlines := ks.deadlines.erase k }
  match k with
  | .session h => { ks with sessions := ks.sessions.erase h }
  | .retired h => { ks with retired := ks.retired.erase h }
  | .activeSessions => { ks with activeSessions := 0 }
  | k => { ks with sets := ks.sets.erase k }

/-- `DEL`, with the number of keys that existed. -/
def del (keys : List Key) : ℕ × Keyspace :=
  (keys.countP ks.has, keys.foldl delKey ks)

/-- `HSET` of every field of a session. -/
def hset (s : Session) : Keyspace :=
  { ks with sessions := ks.sessions.insert s.refreshTokenHash s }

/-- `SADD` -/
def sadd (k : Key) (tokenHash : String) : Keyspace :=
  { ks with sets := ks.sets.add k tokenHash }

/-- `SREM`; a set without members is no key. -/
def srem (k : Key) (tokenHash : String) : Keyspace :=
  let sets := ks.sets.discard k tokenHash
  { ks with
    sets := sets,
    deadlines := if (sets.lookup k).isSome then ks.deadlines else ks.deadlines.erase k }

/-- `EXPIRE` with a number of seconds. -/
def expire (k : Key) (secs : ℕ) : Keyspace :=
  if ks.has k then
    { ks with deadlines := ks.deadlines.insert k (ks.clock + secs * nanosPerSec) }
  else ks

/-- `EXPIRE … NX`, for a key without a deadline. -/
def expireNX (k : Key) (secs : ℕ) : Keyspace :=
  if (ks.deadlines.lookup k).isNone then ks.expire k secs else ks

/-- `EXPIRE … GT`, for a key with an earlier deadline. -/
def expireGT (k : Key) (secs : ℕ) : Keyspace :=
  match ks.deadlines.lookup k with
  | some t => if t < ks.clock + secs * nanosPerSec then ks.expire k secs else ks
  | none => ks

/-- `TTL` in whole seconds, rounded to the nearest; `none` without a deadline. -/
def ttl (k : Key) : Option ℤ :=
  (ks.deadlines.lookup k).map fun t => (t - ks.clock + nanosPerSec / 2) / nanosPerSec

/-- `bump_ttl` of the rotation script. SOURCE: adapters/src/valkey/mod.rs:59-64 -/
def bumpTtl (k : Key) (secs : ℕ) : Keyspace :=
  match ks.ttl k with
  | some current => if (secs : ℤ) > current then ks.expire k secs else ks
  | none => ks.expire k secs

end Keyspace

/-- The arguments of the rotation script. -/
structure Rotation : Type where
  liveHash : String
  replacement : Session
  ttlSeconds : ℕ
  retiredTtlSeconds : ℕ
  retiredAt : Instant
  retiredExpiresAt : Instant
  deriving DecidableEq

/-- What the script answers: `0`, `-1`, `1` or an error. -/
inductive Outcome : Type
  | moved
  | taken
  | swapped
  | otherUser
  deriving DecidableEq

/-- The live session the script replaces, when it replaces one. -/
def Keyspace.swapped? (ks : Keyspace) (a : Rotation) : Option Session :=
  (ks.sessions.lookup a.liveHash).filter fun live =>
    live.userId == a.replacement.userId && !ks.has (.session a.replacement.refreshTokenHash)

/-- The record the script writes for the session it replaces. -/
def Rotation.record (a : Rotation) (live : Session) : RetiredRefreshToken where
  refreshTokenHash := a.liveHash
  familyId := live.familyId
  userId := live.userId
  successorHash := a.replacement.refreshTokenHash
  retiredAt := a.retiredAt
  expiresAt := a.retiredExpiresAt

/-- The writes of a rotation script that replaces `live`.
SOURCE: adapters/src/valkey/mod.rs:77-103 -/
def Keyspace.swap (ks : Keyspace) (a : Rotation) (live : Session) : Keyspace :=
  let user := Key.userSessions a.replacement.userId
  let family := Key.family a.replacement.familyId
  let ks := (ks.delKey (.session a.liveHash)).srem user a.liveHash
  let ks := (ks.hset a.replacement).expire (.session a.replacement.refreshTokenHash) a.ttlSeconds
  let ks := (ks.sadd user a.replacement.refreshTokenHash).bumpTtl user a.ttlSeconds
  let ks :=
    if live.familyId = "" then ks
    else
      (({ ks with retired := ks.retired.insert a.liveHash (a.record live) }).expire
        (.retired a.liveHash) a.retiredTtlSeconds).sadd family a.liveHash
  (ks.sadd family a.replacement.refreshTokenHash).bumpTtl family a.ttlSeconds

/-- The rotation script. SOURCE: adapters/src/valkey/mod.rs:58-104 -/
def Keyspace.rotate (ks : Keyspace) (a : Rotation) : Outcome × Keyspace :=
  match ks.sessions.lookup a.liveHash with
  | none => (.moved, ks)
  | some live =>
    if live.userId ≠ a.replacement.userId then (.otherUser, ks)
    else if ks.has (.session a.replacement.refreshTokenHash) then (.taken, ks)
    else (.swapped, ks.swap a live)

/-- The commands of the adapter. -/
inductive Command : Type
  | now
  | hset (session : Session)
  | expire (key : Key) (secs : ℕ)
  | expireNX (key : Key) (secs : ℕ)
  | expireGT (key : Key) (secs : ℕ)
  | sadd (key : Key) (tokenHash : String)
  | srem (key : Key) (tokenHash : String)
  | smembers (key : Key)
  | scard (key : Key)
  | incr
  | decrBy (amount : ℕ)
  | resetCounter
  /-- `HGET … user_id` of a session. -/
  | hgetUserId (tokenHash : String)
  /-- `HGETALL` of a retirement record. -/
  | hgetallRetired (tokenHash : String)
  /-- `SCAN` over the retirement records; its pages are read at once. -/
  | scanRetired
  | del (keys : List Key)
  | eval (rotation : Rotation)

/-- The type of the answer to a command. -/
abbrev Ans : Command → Type
  | .now => Instant
  | .hset _ => Answer Unit
  | .expire _ _ => Answer Unit
  | .expireNX _ _ => Answer Unit
  | .expireGT _ _ => Answer Unit
  | .sadd _ _ => Answer Unit
  | .srem _ _ => Answer Unit
  | .smembers _ => Answer (List String)
  | .scard _ => Answer ℕ
  | .incr => Answer Unit
  | .decrBy _ => Answer ℤ
  | .resetCounter => Answer Unit
  | .hgetUserId _ => Answer (Option String)
  | .hgetallRetired _ => Answer (Option RetiredRefreshToken)
  | .scanRetired => Answer (List String)
  | .del _ => Answer ℕ
  | .eval _ => Answer Outcome

/-- What the environment decides for one command. -/
inductive Choice : Type
  | proceed
  | fail (e : Error)
  /-- The command takes place and its reply is lost. -/
  | lost (e : Error)

/-- A command takes place, fails, or takes place without a reply. -/
def reply {α : Type} (x : Choice) (ks : Keyspace) (result : α × Keyspace) :
    Option (Answer α × Keyspace) :=
  match x with
  | .proceed => some (.ok result.1, result.2)
  | .fail e => some (.error (.error e), ks)
  | .lost e => some (.error (.error e), result.2)

/-- One command; the keys whose deadline has passed are dropped first. -/
def exec (x : Choice) (_c : ℕ) (o : Command) (ks : Keyspace) : Option (Ans o × Keyspace) :=
  let ks := ks.purge
  match o with
  | .now => some (ks.clock, ks)
  | .hset s => reply x ks ((), ks.hset s)
  | .expire k secs => reply x ks ((), ks.expire k secs)
  | .expireNX k secs => reply x ks ((), ks.expireNX k secs)
  | .expireGT k secs => reply x ks ((), ks.expireGT k secs)
  | .sadd k h => reply x ks ((), ks.sadd k h)
  | .srem k h => reply x ks ((), ks.srem k h)
  | .smembers k => reply x ks (ks.sets.members k, ks)
  | .scard k => reply x ks ((ks.sets.members k).length, ks)
  | .incr => reply x ks ((), { ks with activeSessions := ks.activeSessions + 1 })
  | .decrBy n =>
    reply x ks (ks.activeSessions - n, { ks with activeSessions := ks.activeSessions - n })
  | .resetCounter => reply x ks ((), { ks with activeSessions := 0 })
  | .hgetUserId h => reply x ks ((ks.sessions.lookup h).map fun s => s.userId, ks)
  | .hgetallRetired h => reply x ks (ks.retired.lookup h, ks)
  | .scanRetired => reply x ks (ks.retired.keys, ks)
  | .del keys => reply x ks (ks.del keys)
  | .eval a => reply x ks (ks.rotate a)

/-- Time passes on the server. -/
inductive Drift : Type
  | tick (clock : Instant)

def drift : Drift → Keyspace → Option Keyspace
  | .tick t, ks => if ks.clock ≤ t then some { ks with clock := t } else none

def semantics : Semantics Ans Keyspace Choice Drift where
  exec := exec
  drift := drift

/-! ## The adapter -/

abbrev hset (session : Session) : Adapter Ans Unit :=
  Adapter.await (Program.ask (Command.hset session))

abbrev expire (key : Key) (secs : ℕ) : Adapter Ans Unit :=
  Adapter.await (Program.ask (Command.expire key secs))

abbrev expireNX (key : Key) (secs : ℕ) : Adapter Ans Unit :=
  Adapter.await (Program.ask (Command.expireNX key secs))

abbrev expireGT (key : Key) (secs : ℕ) : Adapter Ans Unit :=
  Adapter.await (Program.ask (Command.expireGT key secs))

abbrev sadd (key : Key) (tokenHash : String) : Adapter Ans Unit :=
  Adapter.await (Program.ask (Command.sadd key tokenHash))

abbrev srem (key : Key) (tokenHash : String) : Adapter Ans Unit :=
  Adapter.await (Program.ask (Command.srem key tokenHash))

abbrev smembers (key : Key) : Adapter Ans (List String) :=
  Adapter.await (Program.ask (Command.smembers key))

abbrev scard (key : Key) : Adapter Ans ℕ := Adapter.await (Program.ask (Command.scard key))

abbrev incr : Adapter Ans Unit := Adapter.await (Program.ask Command.incr)

abbrev hgetUserId (tokenHash : String) : Adapter Ans (Option String) :=
  Adapter.await (Program.ask (Command.hgetUserId tokenHash))

abbrev hgetallRetired (tokenHash : String) : Adapter Ans (Option RetiredRefreshToken) :=
  Adapter.await (Program.ask (Command.hgetallRetired tokenHash))

abbrev scanRetired : Adapter Ans (List String) :=
  Adapter.await (Program.ask Command.scanRetired)

abbrev del (keys : List Key) : Adapter Ans ℕ := Adapter.await (Program.ask (Command.del keys))

abbrev eval (rotation : Rotation) : Adapter Ans Outcome :=
  Adapter.await (Program.ask (Command.eval rotation))

/-- The whole seconds from one instant to another, rounded toward zero. -/
def numSeconds (start stop : Instant) : ℤ := (stop - start).tdiv nanosPerSec

/-- SOURCE: adapters/src/valkey/mod.rs:17 -/
def sessionTtlSecondsMin : ℤ := 1

/-- SOURCE: adapters/src/valkey/mod.rs:183-211 -/
def decrCounterClamped (amount : ℕ) : Adapter Ans Unit := do
  let counter ← Adapter.await (Program.ask (Command.decrBy amount))
  Adapter.when (counter < 0) (Adapter.await (Program.ask Command.resetCounter))

/-- Add a hash to an index set and let the set live as long as its longest member. -/
def indexUnder (key : Key) (tokenHash : String) (ttl : ℕ) : Adapter Ans Unit := do
  sadd key tokenHash
  expireNX key ttl
  expireGT key ttl

/-- SOURCE: adapters/src/valkey/mod.rs:266-385 -/
def storeRefreshToken (session : Session) : Adapter Ans Unit := do
  let now ← Program.ask Command.now
  let ttlSeconds := numSeconds now session.expiresAt
  if ttlSeconds < sessionTtlSecondsMin then
    .raise (.error (.storeError
      s!"refusing to store session with non-future expires_at (ttl_seconds={ttlSeconds})"))
  else
    Adapter.assert (session.familyId == "" || isValidFamilyId session.familyId)
    let ttl := ttlSeconds.toNat
    hset session
    expire (.session session.refreshTokenHash) ttl
    indexUnder (.userSessions session.userId) session.refreshTokenHash ttl
    incr
    Adapter.when (session.familyId != "")
      (indexUnder (.family session.familyId) session.refreshTokenHash ttl)

/-- SOURCE: adapters/src/valkey/mod.rs:558-663 -/
def rotateRefreshToken (reuseRetentionSecs : UInt64) (liveHash : String)
    (replacement : Session) : Adapter Ans Bool := do
  Adapter.assert (isValidFamilyId replacement.familyId)
  Adapter.assert (liveHash != replacement.refreshTokenHash)
  let start ← Program.ask Command.now
  let ttlSeconds := numSeconds start replacement.expiresAt
  if ttlSeconds < sessionTtlSecondsMin then
    .raise (.error (.storeError
      (s!"refusing to rotate to a session with non-future expires_at " ++
        s!"(ttl_seconds={ttlSeconds})")))
  else
    let now ← Program.ask Command.now
    match World.retentionDeadline now reuseRetentionSecs replacement.expiresAt with
    | none => .raise .panic
    | some retiredExpiresAt =>
      let outcome ← eval
        { liveHash := liveHash
          replacement := replacement
          ttlSeconds := ttlSeconds.toNat
          retiredTtlSeconds := (max (numSeconds now retiredExpiresAt) sessionTtlSecondsMin).toNat
          retiredAt := now
          retiredExpiresAt := retiredExpiresAt }
      match outcome with
      | .moved => return false
      | .swapped => return true
      | .taken =>
        .raise (.error (.storeError
          "rotate_refresh_token: proposed replacement already exists in the store"))
      | .otherUser =>
        .raise (.error (.storeError
          "rotate_refresh_token: live row belongs to a different user"))

/-- Take a hash out of its owner's index. -/
def unindexOwner (owner : Option String) (tokenHash : String) : Adapter Ans Unit :=
  match owner with
  | some userId => srem (.userSessions userId) tokenHash
  | none => .done ()

/-- SOURCE: adapters/src/valkey/mod.rs:702-745 -/
def revokeSession (tokenHash : String) : Adapter Ans Unit := do
  let owner ← hgetUserId tokenHash
  let deleted ← del [.session tokenHash]
  Adapter.when (deleted == 1) (decrCounterClamped 1)
  unindexOwner owner tokenHash

/-- One member of the family: the number of records and of live sessions removed.
SOURCE: adapters/src/valkey/mod.rs:767-829 -/
def revokeMember (familyId tokenHash : String) : Adapter Ans (ℕ × ℕ) := do
  let owner ← hgetUserId tokenHash
  let deletedLive ← del [.session tokenHash]
  if deletedLive = 1 then
    unindexOwner owner tokenHash
    srem (.family familyId) tokenHash
    return (1, 1)
  else
    let deletedRetired ← del [.retired tokenHash]
    srem (.family familyId) tokenHash
    return (if deletedRetired = 1 then 1 else 0, 0)

/-- The members one after another. -/
def revokeMembers (familyId : String) : List String → ℕ × ℕ → Adapter Ans (ℕ × ℕ)
  | [], counts => .done counts
  | tokenHash :: rest, (removed, liveDeleted) => do
    let (r, l) ← revokeMember familyId tokenHash
    revokeMembers familyId rest (removed + r, liveDeleted + l)

/-- SOURCE: adapters/src/valkey/mod.rs:747-855 -/
def revokeFamily (familyId : String) : Adapter Ans ℕ := do
  Adapter.assert (isValidFamilyId familyId)
  let members ← smembers (.family familyId)
  let (removed, liveDeleted) ← revokeMembers familyId members (0, 0)
  Adapter.when (0 < liveDeleted) (decrCounterClamped liveDeleted)
  let remaining ← scard (.family familyId)
  Adapter.when (remaining == 0) do
    let _ ← del [.family familyId]
  return removed

/-- One retirement record: it goes when it names the user.
SOURCE: adapters/src/valkey/mod.rs:1168-1200 -/
def sweepRecord (userId tokenHash : String) : Adapter Ans Unit := do
  match ← hgetallRetired tokenHash with
  | none => return ()
  | some record =>
    Adapter.when (record.userId == userId) do
      let deleted ← del [.retired tokenHash]
      Adapter.when (deleted == 1) (srem (.family record.familyId) tokenHash)

/-- The records one after another. -/
def sweepRecords (userId : String) : List String → Adapter Ans Unit
  | [] => .done ()
  | tokenHash :: rest => do
    sweepRecord userId tokenHash
    sweepRecords userId rest

/-- Delete the sessions of a user set at once; there is no `DEL` without a key. -/
def delSessions : List String → Adapter Ans ℕ
  | [] => .done 0
  | tokenHashes => del (tokenHashes.map .session)

/-- SOURCE: adapters/src/valkey/mod.rs:1100-1208 -/
def revokeAllUserSessions (userId : String) : Adapter Ans ℕ := do
  let tokenHashes ← smembers (.userSessions userId)
  let deleted ← delSessions tokenHashes
  Adapter.assert (deleted ≤ tokenHashes.length)
  Adapter.when (0 < deleted) (decrCounterClamped deleted)
  let _ ← del [.userSessions userId]
  let retired ← scanRetired
  sweepRecords userId retired
  return deleted

/-- A write of the session port. -/
inductive Request : Type
  | store (session : Session)
  | rotate (liveHash : String) (replacement : Session)
  | revokeSession (tokenHash : String)
  | revokeFamily (familyId : String)
  | revokeAllUserSessions (userId : String)

/-- What a write returns. -/
inductive Response : Type
  | done
  | swapped (won : Bool)
  | revoked (count : ℕ)

/-- The call a request starts. -/
def serve (reuseRetentionSecs : UInt64) : Request → Adapter Ans Response
  | .store s => (fun _ => .done) <$> storeRefreshToken s
  | .rotate h r => .swapped <$> rotateRefreshToken reuseRetentionSecs h r
  | .revokeSession h => (fun _ => .done) <$> revokeSession h
  | .revokeFamily f => .revoked <$> revokeFamily f
  | .revokeAllUserSessions u => .revoked <$> revokeAllUserSessions u

abbrev StorePool : Type := Pool Ans Request (Fault Error) Response Keyspace

abbrev StoreAct : Type := Act Request Choice Drift

abbrev StoreMoment : Type := Moment Ans Request Keyspace

/-- The adapter as a transition system: any calls, command by command, in any order. -/
def store (reuseRetentionSecs : UInt64) : System StorePool StoreAct :=
  Pool.system semantics (serve reuseRetentionSecs)

/-- The store before any call. -/
def StorePool.start (clock : Instant) : StorePool := Pool.initial (.empty clock)

end Valkey

end OidcExchange
