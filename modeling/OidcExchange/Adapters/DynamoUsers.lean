import OidcExchange.Adapters.Dynamo
import OidcExchange.Program.UserAdmin

/-!
# The user store on DynamoDB

Creating, updating and deleting users as the DynamoDB adapter performs it. A user is an item of
its own; another item guards the identity of the user, and one item counts the users of every
status. They are kept in step by transactions, each one atomic operation here like every read.

A version counts without bound. Items written before there were versions or guards are left out,
and so are the lookups and listings, which write nothing.
-/

set_option autoImplicit false

namespace OidcExchange

namespace DynamoUsers

open Interleaving Storage

/-! ## Items -/

/-- SOURCE: adapters/src/dynamo/schema.rs:110-112 -/
def guardPk (provider externalId : String) : String := "EXT#" ++ provider ++ "#" ++ externalId

/-- The table and the clock: profiles by identifier, the owners that the guards name by the key
of the guard, the rosters, and the counters. -/
structure Directory : Type where
  clock : Instant
  users : Table String User
  guards : Table String String
  rosters : Table String Dynamo.RosterItem
  counts : UserStatus → ℤ

def Directory.empty (clock : Instant) : Directory where
  clock := clock
  users := ∅
  guards := ∅
  rosters := ∅
  counts _ := 0

/-- `ADD` to an attribute, which is zero where it is absent. -/
def addTo (counts : UserStatus → ℤ) (status : UserStatus) (n : ℤ) : UserStatus → ℤ :=
  Function.update counts status (counts status + n)

/-- SOURCE: adapters/src/dynamo/mod.rs:173-218 -/
def counterAdjustment (source : Option UserStatus) (target : UserStatus)
    (counts : UserStatus → ℤ) : UserStatus → ℤ :=
  match source with
  | some status => addTo (addTo counts status (-1)) target 1
  | none => addTo counts target 1

/-! ## Requests -/

/-- The write of an update: the item, the version that was read, the counters to move and
whether the guard goes. SOURCE: adapters/src/dynamo/mod.rs:1137-1213 -/
structure Update : Type where
  user : User
  readVersion : ℕ
  transition : Option (UserStatus × UserStatus)
  dropsGuard : Bool

/-- The requests of the adapter. -/
inductive Command : Type
  | now
  /-- No request: a fresh identifier is generated. -/
  | generateId
  /-- `GetItem` of a profile. -/
  | getUser (userId : String)
  /-- The transaction of `create_user`. -/
  | create (user : User)
  /-- The conditional write of an update, alone or in a transaction. -/
  | update (update : Update)

abbrev Ans : Command → Type
  | .now => Instant
  | .generateId => String
  | .getUser _ => Answer (Option User)
  | .create _ => Answer Dynamo.Outcome
  | .update _ => Answer Dynamo.Outcome

/-- What the environment decides for one request. -/
inductive Choice : Type
  | proceed
  | draw (text : String)
  | fail (e : Error)
  /-- The request takes place and its answer is lost. -/
  | lost (e : Error)

namespace Directory

variable (w : Directory)

/-- A transaction commits when none of its statements fails. -/
def transact (failed : List Bool) (committed : Directory) : Dynamo.Outcome × Directory :=
  if true ∈ failed then (.cancelled failed, w) else (.committed, committed)

/-- SOURCE: adapters/src/dynamo/mod.rs:1008-1057 -/
def create (user : User) : Dynamo.Outcome × Directory :=
  let guard := guardPk user.provider user.externalId
  w.transact [(w.users.lookup user.id).isSome, (w.guards.lookup guard).isSome,
      (w.rosters.lookup user.id).isSome, false]
    { w with
      users := w.users.insert user.id user
      guards := w.guards.insert guard user.id
      rosters := w.rosters.insert user.id { sessions := [], families := some ∅ }
      counts := counterAdjustment none .active w.counts }

/-- `version = :read_version OR attribute_not_exists(version)` -/
def stale (a : Update) : Bool := (w.users.lookup a.user.id).any fun u => u.version != a.readVersion

/-- Whether the guard of an identity names another user or nobody. -/
def guardLost (user : User) : Bool :=
  w.guards.lookup (guardPk user.provider user.externalId) != some user.id

/-- SOURCE: adapters/src/dynamo/mod.rs:1165-1245 -/
def update (a : Update) : Dynamo.Outcome × Directory :=
  w.transact ([w.stale a] ++ (a.transition.map fun _ => false).toList ++
      if a.dropsGuard then [w.guardLost a.user] else [])
    { w with
      users := w.users.insert a.user.id a.user
      guards := if a.dropsGuard then w.guards.erase (guardPk a.user.provider a.user.externalId)
        else w.guards
      counts := a.transition.elim w.counts fun t => counterAdjustment (some t.1) t.2 w.counts }

end Directory

/-- A request takes place, fails, or takes place without an answer. -/
def reply {α : Type} (x : Choice) (w : Directory) (result : α × Directory) :
    Option (Answer α × Directory) :=
  match x with
  | .proceed => some (.ok result.1, result.2)
  | .fail e => some (.error (.error e), w)
  | .lost e => some (.error (.error e), result.2)
  | .draw _ => none

def exec (x : Choice) (_c : ℕ) (o : Command) (w : Directory) : Option (Ans o × Directory) :=
  match o with
  | .now => some (w.clock, w)
  | .generateId =>
    match x with
    | .draw text => some (text, w)
    | _ => none
  | .getUser userId => reply x w (w.users.lookup userId, w)
  | .create user => reply x w (w.create user)
  | .update a => reply x w (w.update a)

/-- Time passes. -/
inductive Drift : Type
  | tick (clock : Instant)

def drift : Drift → Directory → Option Directory
  | .tick t, w => if w.clock ≤ t then some { w with clock := t } else none

def semantics : Semantics Ans Directory Choice Drift where
  exec := exec
  drift := drift

/-! ## The adapter -/

abbrev getUserById (userId : String) : Adapter Ans (Option User) :=
  Adapter.await (Program.ask (Command.getUser userId))

/-- SOURCE: adapters/src/dynamo/mod.rs:989-1081 -/
def createUser (user : NewUser) : Adapter Ans User := do
  let now ← Program.ask Command.now
  let id ← Program.ask Command.generateId
  let fullUser : User :=
    { id := id, externalId := user.externalId, provider := user.provider, email := user.email
      displayName := user.displayName, metadata := ∅, claims := ∅, status := .active
      version := initialUserVersion, createdAt := now, updatedAt := now }
  match ← Adapter.await (Program.ask (Command.create fullUser)) with
  | .committed => return fullUser
  | .cancelled _ =>
    .raise (.error (.conflict ("user already exists for external_id=" ++ user.externalId ++
      " provider=" ++ user.provider)))

/-- What a patch writes over the record that was read. SOURCE: adapters/src/dynamo/mod.rs:1097-1162 -/
def updateOf (patch : UserPatch) (now : Instant) (read : User) : Update where
  user := applyPatch patch now read
  readVersion := read.version
  transition := (patch.status.filter (· != read.status)).map fun target => (read.status, target)
  dropsGuard := patch.status == some .deleted && read.status != .deleted

/-- SOURCE: adapters/src/dynamo/mod.rs:1091-1274 -/
def updateAttempt (userId : String) (patch : UserPatch) : Adapter Ans (Option User) := do
  match ← getUserById userId with
  | none => .raise (.error (.storeError ("user not found: " ++ userId)))
  | some read =>
    let now ← Program.ask Command.now
    let a := updateOf patch now read
    Adapter.assert (a.transition.all fun t => t.1 != t.2)
    match ← Adapter.await (Program.ask (Command.update a)) with
    | .committed => return some a.user
    | .cancelled _ => return none

/-- SOURCE: adapters/src/dynamo/mod.rs:227 -/
def updateMaxAttempts : ℕ := 5

/-- SOURCE: adapters/src/dynamo/mod.rs:236-253 -/
def retryOnVersionConflict (userId : String) (attempt : Adapter Ans (Option User)) :
    ℕ → Adapter Ans User
  | 0 => .raise (.error (.conflict ("update_user for " ++ userId ++
      " exhausted the retry budget (" ++ updateMaxAttempts.repr ++
      " attempts) racing concurrent version conflicts")))
  | budget + 1 => do
    match ← attempt with
    | some user => return user
    | none => retryOnVersionConflict userId attempt budget

/-- SOURCE: adapters/src/dynamo/mod.rs:1084-1276 -/
def updateUser (userId : String) (patch : UserPatch) : Adapter Ans User :=
  retryOnVersionConflict userId (updateAttempt userId patch) updateMaxAttempts

/-- The patch of a deletion. SOURCE: adapters/src/dynamo/mod.rs:1282-1288 -/
def deletion : UserPatch where
  email := none
  displayName := none
  metadata := none
  claims := none
  status := some .deleted

/-- SOURCE: adapters/src/dynamo/mod.rs:1279-1292 -/
def deleteUser (userId : String) : Adapter Ans Unit := do
  let _ ← updateUser userId deletion
  return ()

/-! ## Counts -/

/-- SOURCE: adapters/src/dynamo/mod.rs:178-184 -/
def statusAttr : UserStatus → String
  | .active => "active"
  | .suspended => "suspended"
  | .deleted => "deleted"

/-- SOURCE: `str::parse::<u64>`, of the text of a number -/
def parseCount (n : ℤ) : Except String ℕ :=
  if n < 0 then .error "invalid digit found in string"
  else if 2 ^ 64 ≤ n then .error "number too large to fit in target type"
  else .ok n.toNat

/-- The counters as one read shows them; an item that is not there shows zeros.
SOURCE: adapters/src/dynamo/mod.rs:1307-1342 -/
def Directory.countByStatus (w : Directory) : Except Error (Table String ℕ) :=
  [UserStatus.active, .suspended, .deleted].foldlM (fun counts status =>
    match parseCount (w.counts status) with
    | .ok n => .ok (counts.insert (statusAttr status) n)
    | .error e => .error (.storeError ("counter attribute " ++ statusAttr status ++
        " is not a count: " ++ e))) ∅

/-- SOURCE: core/src/service/user_admin.rs:661-667 -/
structure UserStats : Type where
  total : ℕ
  active : ℕ
  suspended : ℕ
  deleted : ℕ

/-- What the dashboard shows of the counts. SOURCE: core/src/service/user_admin.rs:592-611 -/
def userStats (counts : Table String ℕ) : UserStats :=
  let active := (counts.lookup "active").getD 0
  let suspended := (counts.lookup "suspended").getD 0
  let deleted := (counts.lookup "deleted").getD 0
  { total := active + suspended + deleted, active := active, suspended := suspended,
    deleted := deleted }

/-! ## Calls -/

inductive Request : Type
  | create (user : NewUser)
  | update (userId : String) (patch : UserPatch)
  | delete (userId : String)

inductive Response : Type
  | written (user : User)
  | done

/-- The call a request starts. -/
def serve : Request → Adapter Ans Response
  | .create user => .written <$> createUser user
  | .update userId patch => .written <$> updateUser userId patch
  | .delete userId => (fun _ => .done) <$> deleteUser userId

abbrev UsersPool : Type := Pool Ans Request (Fault Error) Response Directory

abbrev UsersMoment : Type := Moment Ans Request Directory

/-- The adapter as a transition system: any calls, request by request, in any order. -/
def users : System UsersPool (Act Request Choice Drift) := Pool.system semantics serve

def UsersPool.start (clock : Instant) : UsersPool := Pool.initial (.empty clock)

end DynamoUsers

end OidcExchange
