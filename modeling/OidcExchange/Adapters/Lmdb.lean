import OidcExchange.Adapters.Adapter
import OidcExchange.Adapters.SingleUse

/-!
# The session store on LMDB

Write transactions are exclusive, so each is one atomic operation; a read transaction is one as
well. A cleanup call lists what has expired in a read transaction and deletes it in later write
transactions, a batch at a time.

Left out: reading and classifying a token, and the map that backs the store (a transaction the
environment refuses has no effect).
-/

set_option autoImplicit false

namespace OidcExchange

namespace Lmdb

open Interleaving Storage

/-! ## Tables -/

/-- SOURCE: adapters/src/lmdb/mod.rs:33-39 -/
inductive FamilyIndexKind : Type
  | live
  | retired
  deriving DecidableEq

/-- The databases of sessions and their indexes. SOURCE: adapters/src/lmdb/mod.rs:177-193 -/
structure Tables : Type where
  sessions : Table String Session
  userSessions : Table String Unit
  retiredTokens : Table String RetiredRefreshToken
  familyIndex : Table String FamilyIndexKind

def Tables.empty : Tables := ⟨∅, ∅, ∅, ∅⟩

/-- SOURCE: adapters/src/lmdb/mod.rs:214-216 -/
def userSessionKey (userId tokenHash : String) : String := userId ++ (":" ++ tokenHash)

/-- SOURCE: adapters/src/lmdb/mod.rs:219-221 -/
def familyIndexKey (familyId tokenHash : String) : String := familyId ++ ("\x00" ++ tokenHash)

/-- The rest of a key that starts with the prefix. SOURCE: `str::strip_prefix` -/
def stripPrefix (start key : String) : Option String :=
  if start.toList.isPrefixOf key.toList then
    some (String.ofList (key.toList.drop start.toList.length))
  else none

/-- The entries whose key starts with the prefix, under the rest of their key.
SOURCE: `Database::prefix_iter` -/
def prefixIter {ν : Type} (t : Table String ν) (start : String) : List (String × ν) :=
  t.entries.filterMap fun e => (stripPrefix start e.1).map fun rest => (rest, e.2)

/-- SOURCE: adapters/src/lmdb/mod.rs:41-46 -/
inductive Expired : Type
  | live (session : Session)
  | retired (record : RetiredRefreshToken)

namespace Tables

variable (t : Tables)

/-- SOURCE: adapters/src/lmdb/mod.rs:88-102 -/
def removeLiveEntry (tokenHash : String) (session : Session) : Tables :=
  { t with
    sessions := t.sessions.erase tokenHash
    userSessions := t.userSessions.erase (userSessionKey session.userId tokenHash)
    familyIndex :=
      if session.familyId = "" then t.familyIndex
      else t.familyIndex.erase (familyIndexKey session.familyId tokenHash) }

/-- SOURCE: adapters/src/lmdb/mod.rs:107-118 -/
def removeRetiredEntry (record : RetiredRefreshToken) : Tables :=
  { t with
    retiredTokens := t.retiredTokens.erase record.refreshTokenHash
    familyIndex := t.familyIndex.erase (familyIndexKey record.familyId record.refreshTokenHash) }

/-- SOURCE: adapters/src/lmdb/mod.rs:1209-1233 -/
def installLiveEntry (session : Session) : Tables :=
  { t with
    sessions := t.sessions.insert session.refreshTokenHash session
    userSessions :=
      t.userSessions.insert (userSessionKey session.userId session.refreshTokenHash) ()
    familyIndex :=
      if session.familyId = "" then t.familyIndex
      else t.familyIndex.insert (familyIndexKey session.familyId session.refreshTokenHash) .live }

/-- The part of a rotation that files the retirement record.
SOURCE: adapters/src/lmdb/mod.rs:529-546 -/
def fileRetired (record : RetiredRefreshToken) : Tables :=
  { t with
    retiredTokens := t.retiredTokens.insert record.refreshTokenHash record
    familyIndex :=
      t.familyIndex.insert (familyIndexKey record.familyId record.refreshTokenHash) .retired }

/-! ### Transactions -/

/-- What an empty key is refused with. SOURCE: `MDB_BAD_VALSIZE` -/
def badValSize : Fault Error :=
  .error (.storeError
    "MDB_BAD_VALSIZE: Unsupported size of key/DB name/data, or wrong DUPFIXED size")

/-- SOURCE: adapters/src/lmdb/mod.rs:487-561 -/
def rotate (reuseRetentionSecs : UInt64) (now : Instant) (liveHash : String)
    (replacement : Session) : Answer Bool × Tables :=
  if liveHash = "" ∨ replacement.refreshTokenHash = "" then (.error badValSize, t) else
  match t.sessions.lookup liveHash with
  | none => (.ok false, t)
  | some live =>
    if (live.familyId ≠ "" ∧ live.familyId ≠ replacement.familyId) ∨
        live.userId ≠ replacement.userId ∨
        (t.sessions.lookup replacement.refreshTokenHash).isSome ∨
        (t.retiredTokens.lookup replacement.refreshTokenHash).isSome then
      (.error taskPanicked, t)
    else if live.familyId = "" then
      (.ok true, (t.removeLiveEntry liveHash live).installLiveEntry replacement)
    else
      match World.retirementRecord liveHash live replacement reuseRetentionSecs now with
      | none => (.error taskPanicked, t)
      | some record =>
        (.ok true,
          ((t.removeLiveEntry liveHash live).fileRetired record).installLiveEntry replacement)

/-- SOURCE: adapters/src/lmdb/mod.rs:583-606 -/
def revokeSession (tokenHash : String) : Tables :=
  match t.sessions.lookup tokenHash with
  | some session => t.removeLiveEntry tokenHash session
  | none => t

/-- One live entry of a family goes. SOURCE: adapters/src/lmdb/mod.rs:1272-1289 -/
def revokeLive (familyId tokenHash : String) : Answer Tables :=
  match t.sessions.lookup tokenHash with
  | none => storeError ("family_index names live session " ++ tokenHash ++ " but none is stored")
  | some session =>
    if session.familyId = familyId then .ok (t.removeLiveEntry tokenHash session)
    else .error taskPanicked

/-- One retired entry of a family goes. SOURCE: adapters/src/lmdb/mod.rs:1290-1308 -/
def revokeRetired (familyId tokenHash : String) : Answer Tables :=
  match t.retiredTokens.lookup tokenHash with
  | none => storeError ("family_index names retired record " ++ tokenHash ++ " but none is stored")
  | some record =>
    if record.familyId = familyId then .ok (t.removeRetiredEntry record) else .error taskPanicked

/-- The hashes a family's filings of one kind name. -/
def filed (familyId : String) (kind : FamilyIndexKind) : List String :=
  ((prefixIter t.familyIndex (familyId ++ "\x00")).filter fun e => e.2 = kind).map (·.1)

/-- SOURCE: adapters/src/lmdb/mod.rs:1239-1311 -/
def revokeFamilyWtxn (familyId : String) : Answer (ℕ × Tables) := do
  let liveHashes := t.filed familyId .live
  let retiredHashes := t.filed familyId .retired
  let t₁ ← liveHashes.foldlM (fun t h => t.revokeLive familyId h) t
  let t₂ ← retiredHashes.foldlM (fun t h => t.revokeRetired familyId h) t₁
  .ok (liveHashes.length + retiredHashes.length, t₂)

/-- A user's entry, checked against the stored session.
SOURCE: adapters/src/lmdb/mod.rs:866-888 -/
def namedSession (userId tokenHash : String) : Answer (String × Session) :=
  match t.sessions.lookup tokenHash with
  | none => storeError ("user_sessions names live session " ++ tokenHash ++ " but none is stored")
  | some session =>
    if session.userId = userId then .ok (tokenHash, session) else .error taskPanicked

/-- SOURCE: adapters/src/lmdb/mod.rs:852-917 -/
def revokeAllWtxn (userId : String) : Answer (ℕ × Tables) := do
  let named := (prefixIter t.userSessions (userId ++ ":")).map (·.1)
  let live ← named.mapM (t.namedSession userId)
  let retired := (t.retiredTokens.entries.map (·.2)).filter fun r => r.userId = userId
  let t₁ := live.foldl (fun t e => t.removeLiveEntry e.1 e.2) t
  let t₂ := retired.foldl removeRetiredEntry t₁
  .ok (live.length, t₂)

/-- What cleanup lists as expired. SOURCE: adapters/src/lmdb/mod.rs:733-759 -/
def listExpired (now : Instant) : List Expired :=
  ((t.sessions.entries.map (·.2)).filter fun s => s.expiresAt ≤ now).map .live ++
    ((t.retiredTokens.entries.map (·.2)).filter fun r => r.expiresAt ≤ now).map .retired

/-- One entry of a batch goes; whether it was there. -/
def removeExpired : Expired → Bool × Tables
  | .live s => ((t.sessions.lookup s.refreshTokenHash).isSome,
      t.removeLiveEntry s.refreshTokenHash s)
  | .retired r => ((t.retiredTokens.lookup r.refreshTokenHash).isSome, t.removeRetiredEntry r)

/-- SOURCE: adapters/src/lmdb/mod.rs:124-138 -/
def commitDeletionBatch (batch : List Expired) : ℕ × Tables :=
  batch.foldl (fun done entry =>
    let (existed, t) := done.2.removeExpired entry
    (done.1 + existed.toNat, t)) (0, t)

end Tables

/-- The keys cleanup lists among the single-use records.
SOURCE: adapters/src/lmdb/mod.rs:800-820 -/
def listSingleUse (now : Instant) (t : Table String Instant) : Answer (List String) :=
  t.entries.foldlM (fun keys e =>
    match reread e.2 with
    | .ok expiresAt => .ok (if expiresAt ≤ now then keys ++ [e.1] else keys)
    | .error text =>
      storeError ("single_use record has unparsable expiry (key withheld): " ++ text)) []

/-! ## Operations -/

/-- The transactions of the adapter, and its reading of the clock. -/
inductive Txn : Type
  | now
  | store (session : Session)
  | rotate (liveHash : String) (replacement : Session)
  | revokeSession (tokenHash : String)
  | revokeFamily (familyId : String)
  | revokeAll (userId : String)
  | listExpired (now : Instant)
  | deleteBatch (batch : List Expired)
  | listSingleUse (now : Instant)
  | deleteSingleUse (keys : List String)
  | putSingleUse (key : String) (expiresAt : Instant)
  | takeSingleUse (key : String)

/-- How a batch fails: the map is full, or otherwise. -/
inductive BatchError : Type
  | mapFull
  | other (e : Error)

/-- The type of the answer to a transaction. -/
abbrev Ans : Txn → Type
  | .now => Instant
  | .store _ => Answer Unit
  | .rotate _ _ => Answer Bool
  | .revokeSession _ => Answer Unit
  | .revokeFamily _ => Answer ℕ
  | .revokeAll _ => Answer ℕ
  | .listExpired _ => Answer (List Expired)
  | .deleteBatch _ => Except BatchError ℕ
  | .listSingleUse _ => Answer (List String)
  | .deleteSingleUse _ => Answer Unit
  | .putSingleUse _ _ => Answer Bool
  | .takeSingleUse _ => Answer Bool

/-- What the environment decides for one transaction. -/
inductive Choice : Type
  | proceed
  | fail (e : Error)
  | mapFull

/-- The store, and the clock of the service. -/
structure Env : Type where
  clock : Instant
  tables : Tables
  singleUse : Table String Instant

def Env.empty (clock : Instant) : Env := ⟨clock, .empty, ∅⟩

namespace Env

variable (env : Env)

/-- A transaction takes place or is refused without effect. -/
def transact {α : Type} (x : Choice) (done : Answer α × Env) : Option (Answer α × Env) :=
  match x with
  | .proceed => some done
  | .fail e => some (.error (.error e), env)
  | .mapFull => none

theorem transact_eq_some {α : Type} {env env' : Env} {x : Choice} {done : Answer α × Env}
    {ans : Answer α} (h : env.transact x done = some (ans, env')) :
    done = (ans, env') ∨ ((∃ e, ans = .error (.error e)) ∧ env' = env) := by
  cases x with
  | proceed => exact .inl (Option.some.inj h)
  | fail e =>
    obtain ⟨rfl, rfl⟩ := Prod.mk.inj (Option.some.inj h)
    exact .inr ⟨⟨e, rfl⟩, rfl⟩
  | mapFull => exact absurd h (by simp [transact])

/-- A transaction that fails has no effect. -/
def commit {α : Type} : Answer (α × Tables) → Answer α × Env
  | .ok (a, t) => (.ok a, { env with tables := t })
  | .error e => (.error e, env)

/-- One transaction. -/
def exec (reuseRetentionSecs : UInt64) (x : Choice) (_c : ℕ) (o : Txn) (env : Env) :
    Option (Ans o × Env) :=
  match o with
  | .now => some (env.clock, env)
  | .store s => env.transact x (.ok (), { env with tables := env.tables.installLiveEntry s })
  | .rotate h r =>
    let done := env.tables.rotate reuseRetentionSecs env.clock h r
    env.transact x (done.1, { env with tables := done.2 })
  | .revokeSession h =>
    env.transact x (.ok (), { env with tables := env.tables.revokeSession h })
  | .revokeFamily f => env.transact x (env.commit (env.tables.revokeFamilyWtxn f))
  | .revokeAll u => env.transact x (env.commit (env.tables.revokeAllWtxn u))
  | .listExpired now => env.transact x (.ok (env.tables.listExpired now), env)
  | .deleteBatch batch =>
    match x with
    | .proceed =>
      let done := env.tables.commitDeletionBatch batch
      some (.ok done.1, { env with tables := done.2 })
    | .fail e => some (.error (.other e), env)
    | .mapFull => some (.error .mapFull, env)
  | .listSingleUse now => env.transact x (Lmdb.listSingleUse now env.singleUse, env)
  | .deleteSingleUse keys =>
    env.transact x (.ok (), { env with singleUse := keys.foldl (fun t k => t.erase k) env.singleUse })
  | .putSingleUse key expiresAt =>
    let done := Lmdb.putSingleUse env.clock key expiresAt env.singleUse
    env.transact x (done.1, { env with singleUse := done.2 })
  | .takeSingleUse key =>
    let done := Lmdb.takeSingleUse env.clock key env.singleUse
    env.transact x (done.1, { env with singleUse := done.2 })

/-- Time passes. -/
def drift (nanos : ℕ) (env : Env) : Option Env := some { env with clock := env.clock + nanos }

end Env

def semantics (reuseRetentionSecs : UInt64) : Semantics Ans Env Choice ℕ where
  exec := Env.exec reuseRetentionSecs
  drift := Env.drift

/-! ## Calls -/

/-- SOURCE: adapters/src/lmdb/mod.rs:276-330 -/
def storeRefreshToken (session : Session) : Adapter Ans Unit := do
  Adapter.assert (session.familyId == "" || isValidFamilyId session.familyId)
  Adapter.assert (session.refreshTokenHash != "")
  Adapter.await (Program.ask (Txn.store session))

/-- SOURCE: adapters/src/lmdb/mod.rs:464-567 -/
def rotateRefreshToken (liveHash : String) (replacement : Session) : Adapter Ans Bool := do
  Adapter.assert (isValidFamilyId replacement.familyId)
  Adapter.assert (liveHash != replacement.refreshTokenHash)
  Adapter.await (Program.ask (Txn.rotate liveHash replacement))

/-- SOURCE: adapters/src/lmdb/mod.rs:570-612 -/
def revokeSession (tokenHash : String) : Adapter Ans Unit := do
  Adapter.assert (tokenHash != "")
  Adapter.await (Program.ask (Txn.revokeSession tokenHash))

/-- SOURCE: adapters/src/lmdb/mod.rs:618-640 -/
def revokeFamily (familyId : String) : Adapter Ans ℕ := do
  Adapter.assert (isValidFamilyId familyId)
  Adapter.await (Program.ask (Txn.revokeFamily familyId))

/-- SOURCE: adapters/src/lmdb/mod.rs:839-919 -/
def revokeAllUserSessions (userId : String) : Adapter Ans ℕ := do
  Adapter.assert (userId != "")
  Adapter.await (Program.ask (Txn.revokeAll userId))

/-- SOURCE: adapters/src/lmdb/mod.rs:20-28 -/
def cleanupBatchSize : ℕ := 256

def cleanupMaxBatchHalvings : ℕ := 8

/-- A batch, halved as long as it does not fit; how many entries went, and the width that
fitted. SOURCE: adapters/src/lmdb/mod.rs:771-796 -/
def deleteFitting (queue : List Expired) : ℕ → ℕ → Adapter Ans (ℕ × ℕ)
  | 0, width => do
    match ← Program.ask (Txn.deleteBatch (queue.take width)) with
    | .ok removed => .done (removed, width)
    | .error .mapFull => .raise (.error (.storeError "MDB_MAP_FULL: Environment mapsize limit reached"))
    | .error (.other e) => .raise (.error e)
  | halvings + 1, width => do
    match ← Program.ask (Txn.deleteBatch (queue.take width)) with
    | .ok removed => .done (removed, width)
    | .error .mapFull =>
      if 1 < width then deleteFitting queue halvings (max (width / 2) 1)
      else .raise (.error (.storeError "MDB_MAP_FULL: Environment mapsize limit reached"))
    | .error (.other e) => .raise (.error e)

/-- The delete phase over what is left of the queue; every batch takes at least one entry, so the
length of the queue is fuel enough. SOURCE: adapters/src/lmdb/mod.rs:768-798 -/
def deleteQueue : ℕ → List Expired → ℕ → Adapter Ans ℕ
  | 0, _, deleted => .done deleted
  | fuel + 1, queue, deleted =>
    if queue = [] then .done deleted
    else do
      let (removed, width) ←
        deleteFitting queue cleanupMaxBatchHalvings (min cleanupBatchSize queue.length)
      deleteQueue fuel (queue.drop width) (deleted + removed)

/-- SOURCE: adapters/src/lmdb/mod.rs:725-836 -/
def cleanupExpiredSessions : Adapter Ans ℕ := do
  let now ← Program.ask Txn.now
  let expired ← Adapter.await (Program.ask (Txn.listExpired now))
  let deleted ← deleteQueue expired.length expired 0
  let keys ← Adapter.await (Program.ask (Txn.listSingleUse now))
  if keys = [] then .done deleted
  else do
    Adapter.await (Program.ask (Txn.deleteSingleUse keys))
    .done (deleted + keys.length)

/-- A call of the session port. -/
inductive Request : Type
  | store (session : Session)
  | rotate (liveHash : String) (replacement : Session)
  | revokeSession (tokenHash : String)
  | revokeFamily (familyId : String)
  | revokeAllUserSessions (userId : String)
  | cleanup
  | putSingleUse (key : String) (expiresAt : Instant)
  | takeSingleUse (key : String)

/-- What a call returns. -/
inductive Response : Type
  | done
  | flag (b : Bool)
  | count (n : ℕ)

/-- The call a request starts. -/
def serve : Request → Adapter Ans Response
  | .store s => (fun _ => .done) <$> storeRefreshToken s
  | .rotate h r => .flag <$> rotateRefreshToken h r
  | .revokeSession h => (fun _ => .done) <$> revokeSession h
  | .revokeFamily f => .count <$> revokeFamily f
  | .revokeAllUserSessions u => .count <$> revokeAllUserSessions u
  | .cleanup => .count <$> cleanupExpiredSessions
  | .putSingleUse key e => .flag <$> Adapter.await (Program.ask (Txn.putSingleUse key e))
  | .takeSingleUse key => .flag <$> Adapter.await (Program.ask (Txn.takeSingleUse key))

abbrev StorePool : Type := Pool Ans Request (Fault Error) Response Env

abbrev StoreAct : Type := Act Request Choice ℕ

abbrev StoreMoment : Type := Moment Ans Request Env

/-- The adapter as a transition system: any calls, transaction by transaction, in any order. -/
def store (reuseRetentionSecs : UInt64) : System StorePool StoreAct :=
  Pool.system (semantics reuseRetentionSecs) serve

/-- The store before any call. -/
def StorePool.start (clock : Instant) : StorePool := Pool.initial (.empty clock)

/-! ## A small store -/

namespace Sample

/-- A day of retention. -/
def retention : UInt64 := 86400

def start : StorePool := .start 0

/-- A call goes on with its next `n` transactions. -/
def advance (c n : ℕ) : List StoreAct := List.replicate n (.advance c .proceed)

/-- Call `c` performs a request of one transaction. -/
def once (c : ℕ) (request : Request) : List StoreAct := .begin c request :: advance c 1

end Sample

end Lmdb

end OidcExchange
