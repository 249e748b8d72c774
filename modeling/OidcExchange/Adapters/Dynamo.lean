import OidcExchange.Adapters.Adapter
import Mathlib.Data.List.Lattice

/-!
# The session store on DynamoDB

The session port as the DynamoDB adapter performs it. Each request is one atomic operation: a
consistent read, an update of one item, a transaction, one page of a scan, one round of a batch
of deletions, which may leave any of its keys unprocessed.

Left out: the profile, the uniqueness guard and the counter that `create_user` writes in the same
transaction as the roster, the waits between two attempts, and the operations that only list or
count sessions.
-/

set_option autoImplicit false

namespace OidcExchange

namespace Dynamo

open Interleaving Storage

/-! ## Items -/

/-- The item of a generation. SOURCE: adapters/src/dynamo/mod.rs:431-445 -/
inductive Key : Type
  | session (tokenHash : String)
  | retired (tokenHash : String)
  deriving DecidableEq

/-- SOURCE: adapters/src/dynamo/schema.rs:497-504 -/
structure FamilyRoster : Type where
  live : String
  members : List String
  deriving DecidableEq

/-- What a read of the user item gives. SOURCE: adapters/src/dynamo/schema.rs:554-560 -/
structure UserRoster : Type where
  sessions : List String
  families : Table String FamilyRoster

/-- The user item. A string set without members is no attribute, so `sessions` is never absent
and empty at once; `families` can be an empty map or be absent. -/
structure RosterItem : Type where
  sessions : List String
  families : Option (Table String FamilyRoster)

/-- SOURCE: adapters/src/dynamo/schema.rs:566-597 -/
def UserRoster.fromItem (item : RosterItem) : UserRoster where
  sessions := item.sessions
  families := item.families.getD ∅

/-- The table and the clock. `removals` remembers which call removed which item; no request
reads it. -/
structure Store : Type where
  clock : Instant
  sessions : Table String Session
  retired : Table String RetiredRefreshToken
  rosters : Table String RosterItem
  removals : List (ℕ × Key)

def Store.empty (clock : Instant) : Store where
  clock := clock
  sessions := ∅
  retired := ∅
  rosters := ∅
  removals := []

/-- SOURCE: adapters/src/dynamo/mod.rs:497-516 -/
def Store.roster (w : Store) (userId : String) : UserRoster :=
  match w.rosters.lookup userId with
  | some item => .fromItem item
  | none => { sessions := [], families := ∅ }

/-! ## Updates of the user item

An update with a path below an absent attribute is rejected, and is `none` here. -/

namespace RosterItem

variable (item : RosterItem)

/-- `ADD sessions :hash SET families.#f = :family` -/
def file (tokenHash familyId : String) : Option RosterItem :=
  item.families.map fun families =>
    { sessions := item.sessions.insert tokenHash
      families := some (families.insert familyId { live := tokenHash, members := [tokenHash] }) }

/-- `SET #s = :sess, families.#f = :fresh` -/
def refileLegacy (sessions : List String) (tokenHash familyId : String) : Option RosterItem :=
  item.families.map fun families =>
    { sessions := sessions
      families := some (families.insert familyId { live := tokenHash, members := [tokenHash] }) }

/-- `SET #s = :sess, families.#f.live = :newhash ADD families.#f.members :joined` -/
def refile (sessions : List String) (liveHash tokenHash familyId : String) : Option RosterItem :=
  item.families.bind fun families =>
    (families.lookup familyId).map fun family =>
      { sessions := sessions
        families := some (families.insert familyId
          { live := tokenHash, members := family.members ∪ [liveHash, tokenHash] }) }

/-- `DELETE sessions :old SET families.#f.live = :none`, or the first half for a session
without a family. -/
def unfile (tokenHash familyId : String) : Option RosterItem :=
  let sessions := item.sessions.filter (· != tokenHash)
  if familyId = "" then some { item with sessions := sessions }
  else
    item.families.bind fun families =>
      (families.lookup familyId).map fun family =>
        { sessions := sessions
          families := some (families.insert familyId { family with live := "" }) }

/-- `DELETE #s :live REMOVE families.#f`; there is nothing to remove where the path is absent. -/
def dropFamily (familyId live : String) : RosterItem where
  sessions := item.sessions.filter (· != live)
  families := item.families.map fun families => families.erase familyId

end RosterItem

/-! ## Requests -/

/-- A rotation's transaction: the retirement record, which a session without a family does not
leave, and the whole set of sessions it writes. -/
structure Rotation : Type where
  liveHash : String
  replacement : Session
  record : Option RetiredRefreshToken
  sessions : List String

/-- The update of the user item in a rotation. -/
def Rotation.refile (a : Rotation) (item : RosterItem) : Option RosterItem :=
  match a.record with
  | none => item.refileLegacy a.sessions a.replacement.refreshTokenHash a.replacement.familyId
  | some _ =>
    item.refile a.sessions a.liveHash a.replacement.refreshTokenHash a.replacement.familyId

/-- How a transaction ends; a cancelled one says of every statement whether it failed. -/
inductive Outcome : Type
  | committed
  | cancelled (failed : List Bool)
  deriving DecidableEq

/-- The requests of the adapter. -/
inductive Command : Type
  | now
  /-- `GetItem` of a session. -/
  | getSession (tokenHash : String)
  /-- `GetItem` of a retirement record. -/
  | getRetired (tokenHash : String)
  /-- `GetItem` of the user item. -/
  | getRoster (userId : String)
  | createUser (userId : String)
  | store (session : Session)
  | rotate (rotation : Rotation)
  | revoke (tokenHash userId familyId : String)
  /-- One round of `BatchWriteItem`. -/
  | batchDelete (keys : List Key)
  | clearFamily (userId familyId live : String)
  | clearRoster (userId : String)
  /-- How many pages follow the first one of a scan; no request, the table's size decides. -/
  | scanPages
  /-- One page of a scan for the items of a family, from a place of the table on. -/
  | scanPage (familyId : String) (start : ℕ) (last : Bool)

/-- The keys of a round that it has not processed. -/
abbrev Leftover (keys : List Key) : Type := {left : List Key // left ⊆ keys}

abbrev Ans : Command → Type
  | .now => Instant
  | .getSession _ => Answer (Option Session)
  | .getRetired _ => Answer (Option RetiredRefreshToken)
  | .getRoster _ => Answer UserRoster
  | .createUser _ => Answer Outcome
  | .store _ => Answer Outcome
  | .rotate _ => Answer Outcome
  | .revoke _ _ _ => Answer Outcome
  | .batchDelete keys => Answer (Leftover keys)
  | .clearFamily _ _ _ => Answer Unit
  | .clearRoster _ => Answer Unit
  | .scanPages => ℕ
  | .scanPage _ _ _ => Answer (List String × ℕ)

/-- What the environment decides for one request. -/
inductive Choice : Type
  | proceed
  | fail (e : Error)
  /-- The request takes place and its answer is lost. -/
  | lost (e : Error)
  /-- A batch processes some of its keys. -/
  | process (done : List Key)
  | processLost (done : List Key) (e : Error)
  | pages (count : ℕ)
  /-- A page ends at a place of the table. -/
  | page (stop : ℕ)

namespace Store

variable (w : Store)

/-- A transaction commits when none of its statements fails. -/
def transact (failed : List Bool) (committed : Store) : Outcome × Store :=
  if true ∈ failed then (.cancelled failed, w) else (.committed, committed)

/-- The update of the user item, where there is one and the update is not rejected. -/
def updated (userId : String) (update : RosterItem → Option RosterItem) : Option RosterItem :=
  (w.rosters.lookup userId).bind update

def withRoster (userId : String) (item : Option RosterItem) : Store :=
  { w with rosters := item.elim w.rosters (w.rosters.insert userId) }

/-- The transaction of `create_user`. SOURCE: adapters/src/dynamo/mod.rs:989-1081 -/
def createUser (userId : String) : Outcome × Store :=
  w.transact [(w.rosters.lookup userId).isSome]
    (w.withRoster userId (some { sessions := [], families := some ∅ }))

/-- The transaction of `store_refresh_token`. SOURCE: adapters/src/dynamo/mod.rs:1481-1520 -/
def storeSession (s : Session) : Outcome × Store :=
  let item := w.updated s.userId fun item => item.file s.refreshTokenHash s.familyId
  w.transact [(w.sessions.lookup s.refreshTokenHash).isSome, item.isNone]
    { w.withRoster s.userId item with sessions := w.sessions.insert s.refreshTokenHash s }

/-- The transaction of `rotate_refresh_token`. SOURCE: adapters/src/dynamo/mod.rs:1640-1749 -/
def rotate (a : Rotation) : Outcome × Store :=
  let item := w.updated a.replacement.userId a.refile
  let retiredTaken := a.record.map fun _ => (w.retired.lookup a.liveHash).isSome
  w.transact
    ([(w.sessions.lookup a.liveHash).isNone,
      (w.sessions.lookup a.replacement.refreshTokenHash).isSome] ++ retiredTaken.toList ++
      [item.isNone])
    { w.withRoster a.replacement.userId item with
      sessions :=
        (w.sessions.erase a.liveHash).insert a.replacement.refreshTokenHash a.replacement
      retired := a.record.elim w.retired (w.retired.insert a.liveHash) }

/-- The transaction of `revoke_session`. SOURCE: adapters/src/dynamo/mod.rs:1783-1832 -/
def revoke (tokenHash userId familyId : String) : Outcome × Store :=
  let item := w.updated userId fun item => item.unfile tokenHash familyId
  w.transact [(w.sessions.lookup tokenHash).isNone, item.isNone]
    { w.withRoster userId item with sessions := w.sessions.erase tokenHash }

def has : Key → Bool
  | .session h => (w.sessions.lookup h).isSome
  | .retired h => (w.retired.lookup h).isSome

def erase : Key → Store
  | .session h => { w with sessions := w.sessions.erase h }
  | .retired h => { w with retired := w.retired.erase h }

/-- Call `c` deletes an item, if it is there. -/
def remove (c : ℕ) (k : Key) : Store :=
  if w.has k then { w.erase k with removals := (c, k) :: w.removals } else w

/-- One round of deletions by call `c` that processes the keys in `done`: the keys left, and the
table. -/
def batchDelete (c : ℕ) (keys done : List Key) : Leftover keys × Store :=
  (⟨keys.filter (· ∉ done), List.filter_subset_self keys⟩,
    (keys.filter (· ∈ done)).foldl (·.remove c) w)

/-- An update of a user item that must be there. -/
def updateItem (userId : String) (update : RosterItem → RosterItem) : Answer Unit × Store :=
  match w.rosters.lookup userId with
  | none => (.error (.error (.storeError "ConditionalCheckFailedException")), w)
  | some item => (.ok (), w.withRoster userId (some (update item)))

/-- The owners of the items of a family that lie between two places of the table. -/
def ownersBetween (place : Key → ℕ) (familyId : String) (start : ℕ) (stop : Option ℕ) :
    List String :=
  let inside (k : Key) : Bool := start ≤ place k && stop.all fun stop => place k < stop
  ((w.sessions.entries.filter fun e => e.2.familyId == familyId && inside (.session e.1)).map
      fun e => e.2.userId) ++
    (w.retired.entries.filter fun e => e.2.familyId == familyId && inside (.retired e.1)).map
      fun e => e.2.userId

end Store

/-- A request takes place, fails, or takes place without an answer. -/
def reply {α : Type} (x : Choice) (w : Store) (result : α × Store) : Option (Answer α × Store) :=
  match x with
  | .proceed => some (.ok result.1, result.2)
  | .fail e => some (.error (.error e), w)
  | .lost e => some (.error (.error e), result.2)
  | _ => none

/-- An update that can be rejected takes place, fails, or takes place without an answer. -/
def replyAnswer {α : Type} (x : Choice) (w : Store) (result : Answer α × Store) :
    Option (Answer α × Store) :=
  match x with
  | .proceed => some result
  | .fail e => some (.error (.error e), w)
  | .lost e => some (.error (.error e), result.2)
  | _ => none

/-- One request of call `c`; `place` is where the items lie in the table. -/
def exec (place : Key → ℕ) (x : Choice) (c : ℕ) (o : Command) (w : Store) :
    Option (Ans o × Store) :=
  match o with
  | .now => some (w.clock, w)
  | .getSession h => reply x w (w.sessions.lookup h, w)
  | .getRetired h => reply x w (w.retired.lookup h, w)
  | .getRoster u => reply x w (w.roster u, w)
  | .createUser u => if u = "" then none else reply x w (w.createUser u)
  | .store s => reply x w (w.storeSession s)
  | .rotate a => reply x w (w.rotate a)
  | .revoke h u f => reply x w (w.revoke h u f)
  | .batchDelete keys =>
    match x with
    | .process done => some (.ok (w.batchDelete c keys done).1, (w.batchDelete c keys done).2)
    | .processLost done e => some (.error (.error e), (w.batchDelete c keys done).2)
    | .fail e => some (.error (.error e), w)
    | _ => none
  | .clearFamily u f live => replyAnswer x w (w.updateItem u fun item => item.dropFamily f live)
  | .clearRoster u =>
    replyAnswer x w (w.updateItem u fun _ => { sessions := [], families := none })
  | .scanPages =>
    match x with
    | .pages count => some (count, w)
    | _ => none
  | .scanPage f start last =>
    match last, x with
    | _, .fail e => some (.error (.error e), w)
    | true, .proceed => some (.ok (w.ownersBetween place f start none, start), w)
    | false, .page stop =>
      some (.ok (w.ownersBetween place f start (some stop), max start stop), w)
    | _, _ => none

/-- Time passes. -/
inductive Drift : Type
  | tick (clock : Instant)

def drift : Drift → Store → Option Store
  | .tick t, w => if w.clock ≤ t then some { w with clock := t } else none

def semantics (place : Key → ℕ) : Semantics Ans Store Choice Drift where
  exec := exec place
  drift := drift

/-! ## The adapter -/

abbrev getSessionItem (tokenHash : String) : Adapter Ans (Option Session) :=
  Adapter.await (Program.ask (Command.getSession tokenHash))

abbrev getRetiredRecord (tokenHash : String) : Adapter Ans (Option RetiredRefreshToken) :=
  Adapter.await (Program.ask (Command.getRetired tokenHash))

abbrev getUserRoster (userId : String) : Adapter Ans UserRoster :=
  Adapter.await (Program.ask (Command.getRoster userId))

/-- The error of a cancelled transaction. -/
def cancelled : Fault Error := .error (.storeError "TransactionCanceledException")

/-- A cancelled transaction is an error. -/
def committed : Outcome → Adapter Ans Unit
  | .committed => .done ()
  | .cancelled _ => .raise cancelled

/-- SOURCE: adapters/src/dynamo/mod.rs:549-561 -/
def lostRaceReason (failed : List Bool) (statementIndex : ℕ) : Bool :=
  failed.getD statementIndex false

/-- SOURCE: adapters/src/dynamo/mod.rs:989-1081 -/
def createUser (userId : String) : Adapter Ans Unit := do
  committed (← Adapter.await (Program.ask (Command.createUser userId)))

/-- SOURCE: adapters/src/dynamo/mod.rs:1470-1522 -/
def storeRefreshToken (session : Session) : Adapter Ans Unit := do
  Adapter.assert (isValidFamilyId session.familyId)
  Adapter.assert (session.refreshTokenHash != "")
  committed (← Adapter.await (Program.ask (Command.store session)))

/-- SOURCE: adapters/src/dynamo/mod.rs:1545-1573 -/
def resolveRefreshToken (tokenHash : String) : Adapter Ans RefreshResolution := do
  Adapter.assert (tokenHash != "")
  match ← getSessionItem tokenHash with
  | some session => return .live session
  | none =>
    match ← getRetiredRecord tokenHash with
    | none => return .unknown
    | some record =>
      let now ← Program.ask Command.now
      if record.expiresAt ≤ now then return .unknown
      else
        match ← getSessionItem record.successorHash with
        | some successor => return .superseded successor record.retiredAt
        | none => return .retired record.familyId record.userId record.retiredAt

/-- The record of a rotation; a session without a family leaves none, and a record that cannot
be built is a panic. SOURCE: adapters/src/dynamo/mod.rs:329-357, 1634-1643 -/
def retirementRecord (liveHash : String) (live replacement : Session)
    (reuseRetentionSecs : UInt64) (now : Instant) :
    Adapter Ans (Option RetiredRefreshToken) :=
  if live.familyId = "" then .done none
  else
    match World.retirementRecord liveHash live replacement reuseRetentionSecs now with
    | some record => .done (some record)
    | none => .raise .panic

/-- SOURCE: adapters/src/dynamo/mod.rs:1591-1758 -/
def rotateRefreshToken (reuseRetentionSecs : UInt64) (liveHash : String)
    (replacement : Session) : Adapter Ans Bool := do
  Adapter.assert (isValidFamilyId replacement.familyId)
  Adapter.assert (liveHash != replacement.refreshTokenHash)
  match ← getSessionItem liveHash with
  | none => return false
  | some live =>
    Adapter.assert (live.familyId == "" || live.familyId == replacement.familyId)
    Adapter.assert (live.userId == replacement.userId)
    let now ← Program.ask Command.now
    let record ← retirementRecord liveHash live replacement reuseRetentionSecs now
    let roster ← getUserRoster replacement.userId
    Adapter.assert (live.familyId == "" || roster.sessions.contains liveHash)
    let newSessions := roster.sessions.filter (· != liveHash)
    Adapter.assert (!newSessions.contains replacement.refreshTokenHash)
    let outcome ← Adapter.await (Program.ask (Command.rotate
      { liveHash := liveHash
        replacement := replacement
        record := record
        sessions := newSessions ++ [replacement.refreshTokenHash] }))
    match outcome with
    | .committed => return true
    | .cancelled failed => if lostRaceReason failed 0 then return false else .raise cancelled

/-- SOURCE: adapters/src/dynamo/mod.rs:1765-1835 -/
def revokeSession (tokenHash : String) : Adapter Ans Unit := do
  Adapter.assert (tokenHash != "")
  match ← getSessionItem tokenHash with
  | none => return ()
  | some session =>
    Adapter.assert (session.familyId == "" || isValidFamilyId session.familyId)
    committed
      (← Adapter.await (Program.ask (Command.revoke tokenHash session.userId session.familyId)))

/-! ## Batches of deletions -/

/-- SOURCE: adapters/src/dynamo/mod.rs:258 -/
def batchWriteMaxAttempts : ℕ := 8

/-- SOURCE: adapters/src/dynamo/mod.rs:266 -/
def batchWriteMaxItems : ℕ := 25

/-- SOURCE: adapters/src/dynamo/mod.rs:272 -/
def revocationMaxAttempts : ℕ := 5

/-- The rounds that are left. SOURCE: adapters/src/dynamo/mod.rs:296-315 -/
def drainRounds : ℕ → List Key → Adapter Ans Unit
  | 0, pending =>
    .raise (.error (.storeError
      (s!"BatchWriteItem retry budget ({batchWriteMaxAttempts} attempts) exhausted with " ++
        s!"{pending.length} item(s) still unprocessed")))
  | n + 1, pending => do
    let left ← Adapter.await (Program.ask (Command.batchDelete pending))
    if left.1 = [] then return () else drainRounds n left.1

/-- SOURCE: adapters/src/dynamo/mod.rs:284-316 -/
def drainUnprocessed (requests : List Key) : Adapter Ans ℕ :=
  if requests = [] then .done 0
  else do
    drainRounds batchWriteMaxAttempts requests
    return requests.length

/-- The batches one after another. -/
def deleteChunks : List (List Key) → Adapter Ans Unit
  | [] => .done ()
  | chunk :: rest => do
    let _ ← drainUnprocessed chunk
    deleteChunks rest

/-! ## Revocation of a family -/

/-- The error of a revocation that has used up its attempts. -/
def exhausted (operation subject : String) : Fault Error :=
  .error (.storeError
    (s!"{operation} for {subject} exhausted its retry budget " ++
      s!"({revocationMaxAttempts} attempts) racing concurrent session mutations"))

/-- Every owner is taken up once. SOURCE: adapters/src/dynamo/mod.rs:777-798 -/
def collectOwners (userIds owners : List String) : Adapter Ans (List String) := do
  Adapter.assert (owners.all (· != ""))
  return owners.foldl (fun ids u => if u ∈ ids then ids else ids ++ [u]) userIds

/-- The pages of the scan that are left, the last one included. -/
def scanFrom (familyId : String) : ℕ → ℕ → List String → Adapter Ans (List String)
  | 0, start, userIds => do
    let (owners, _) ← Adapter.await (Program.ask (Command.scanPage familyId start true))
    collectOwners userIds owners
  | n + 1, start, userIds => do
    let (owners, next) ← Adapter.await (Program.ask (Command.scanPage familyId start false))
    let userIds ← collectOwners userIds owners
    scanFrom familyId n next userIds

/-- SOURCE: adapters/src/dynamo/mod.rs:751-806 -/
def userIdsForFamily (familyId : String) : Adapter Ans (List String) := do
  Adapter.assert (familyId != "")
  let pages ← Program.ask Command.scanPages
  scanFrom familyId pages 0 []

/-- SOURCE: adapters/src/dynamo/mod.rs:320-322 -/
def sameMembers (a b : List String) : Bool :=
  a.length == b.length && a.all fun h => b.contains h

/-- The items that an entry of the roster names. SOURCE: adapters/src/dynamo/mod.rs:829-845 -/
def FamilyRoster.entries (family : FamilyRoster) : List Key :=
  (if family.live = "" then [] else [.session family.live]) ++
    (family.members.filter (· != family.live)).map .retired

/-- SOURCE: adapters/src/dynamo/mod.rs:873-876 -/
def FamilyRoster.same (fresh family : FamilyRoster) : Bool :=
  fresh.live == family.live && sameMembers fresh.members family.members

/-- The attempts that are left. SOURCE: adapters/src/dynamo/mod.rs:812-906 -/
def revokeFamilyAttempts (familyId userId : String) : ℕ → List Key → Adapter Ans ℕ
  | 0, _ => .raise (exhausted "revoke_family" familyId)
  | n + 1, counted => do
    let roster ← getUserRoster userId
    match roster.families.lookup familyId with
    | none => return counted.length
    | some family =>
      Adapter.assert (family.live == "" || roster.sessions.contains family.live)
      let counted := family.entries ∪ counted
      deleteChunks (family.entries.toChunks batchWriteMaxItems)
      let fresh ← getUserRoster userId
      if (fresh.families.lookup familyId).any fun f => f.same family then do
        Adapter.await (Program.ask (Command.clearFamily userId familyId family.live))
        return counted.length
      else revokeFamilyAttempts familyId userId n counted

/-- SOURCE: adapters/src/dynamo/mod.rs:807-907 -/
def revokeFamilyForUser (familyId userId : String) : Adapter Ans ℕ :=
  revokeFamilyAttempts familyId userId revocationMaxAttempts []

/-- The users one after another. -/
def revokeFamilyForUsers (familyId : String) : List String → ℕ → Adapter Ans ℕ
  | [], removed => .done removed
  | userId :: rest, removed => do
    let n ← revokeFamilyForUser familyId userId
    revokeFamilyForUsers familyId rest (removed + n)

/-- SOURCE: adapters/src/dynamo/mod.rs:1856-1871 -/
def revokeFamily (familyId : String) : Adapter Ans ℕ := do
  Adapter.assert (isValidFamilyId familyId)
  let userIds ← userIdsForFamily familyId
  revokeFamilyForUsers familyId userIds 0

/-! ## Revocation of all sessions of a user -/

namespace UserRoster

variable (roster : UserRoster)

def isEmpty : Bool := roster.sessions.isEmpty && roster.families.entries.isEmpty

/-- The entries of the families. -/
def values : List FamilyRoster := roster.families.entries.map fun e => e.2

def liveHashes : List String := roster.values.map fun family => family.live

/-- SOURCE: adapters/src/dynamo/mod.rs:2085-2101 -/
def deleteKeys : List Key :=
  roster.sessions.map .session ++ roster.values.flatMap fun family =>
    (family.members.filter (· ∉ roster.liveHashes)).map .retired

/-- SOURCE: adapters/src/dynamo/mod.rs:2109-2117 -/
def sessionsRemoved : ℕ :=
  roster.values.countP (fun family => family.live != "") +
    roster.sessions.countP (· ∉ roster.liveHashes)

/-- SOURCE: adapters/src/dynamo/mod.rs:2141-2151 -/
def unchanged (fresh : UserRoster) : Bool :=
  fresh.sessions.length == roster.sessions.length &&
    (fresh.sessions.all fun h => roster.sessions.contains h) &&
    fresh.families.entries.length == roster.families.entries.length &&
    roster.families.entries.all fun e => (fresh.families.lookup e.1).any fun f => f.same e.2

end UserRoster

/-- The attempts that are left. SOURCE: adapters/src/dynamo/mod.rs:2075-2175 -/
def revokeAllAttempts (userId : String) : ℕ → Adapter Ans ℕ
  | 0 => .raise (exhausted "revoke_all_user_sessions" userId)
  | n + 1 => do
    let roster ← getUserRoster userId
    if roster.isEmpty then return 0
    else
      Adapter.assert (roster.deleteKeys ≠ [])
      deleteChunks (roster.deleteKeys.toChunks batchWriteMaxItems)
      let fresh ← getUserRoster userId
      if roster.unchanged fresh then do
        Adapter.await (Program.ask (Command.clearRoster userId))
        return roster.sessionsRemoved
      else revokeAllAttempts userId n

/-- SOURCE: adapters/src/dynamo/mod.rs:2069-2177 -/
def revokeAllUserSessions (userId : String) : Adapter Ans ℕ := do
  Adapter.assert (userId != "")
  revokeAllAttempts userId revocationMaxAttempts

/-! ## Calls -/

inductive Request : Type
  | createUser (userId : String)
  | store (session : Session)
  | rotate (liveHash : String) (replacement : Session)
  | revokeSession (tokenHash : String)
  | revokeFamily (familyId : String)
  | revokeAllUserSessions (userId : String)
  | resolve (tokenHash : String)

inductive Response : Type
  | done
  | swapped (won : Bool)
  | revoked (count : ℕ)
  | resolved (resolution : RefreshResolution)

/-- The call a request starts. -/
def serve (reuseRetentionSecs : UInt64) : Request → Adapter Ans Response
  | .createUser u => (fun _ => .done) <$> createUser u
  | .store s => (fun _ => .done) <$> storeRefreshToken s
  | .rotate h r => .swapped <$> rotateRefreshToken reuseRetentionSecs h r
  | .revokeSession h => (fun _ => .done) <$> revokeSession h
  | .revokeFamily f => .revoked <$> revokeFamily f
  | .revokeAllUserSessions u => .revoked <$> revokeAllUserSessions u
  | .resolve h => .resolved <$> resolveRefreshToken h

abbrev StorePool : Type := Pool Ans Request (Fault Error) Response Store

abbrev StoreAct : Type := Act Request Choice Drift

abbrev StoreMoment : Type := Moment Ans Request Store

/-- The adapter as a transition system: any calls, request by request, in any order. -/
def store (place : Key → ℕ) (reuseRetentionSecs : UInt64) : System StorePool StoreAct :=
  Pool.system (semantics place) (serve reuseRetentionSecs)

def StorePool.start (clock : Instant) : StorePool := Pool.initial (.empty clock)

end Dynamo

end OidcExchange
