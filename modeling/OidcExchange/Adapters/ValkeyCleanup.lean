import OidcExchange.Adapters.Valkey
import OidcExchange.Interleaving.Handler

/-!
# Periodic cleanup on Valkey

Cleanup reads the index sets one after another, probes their members, takes the dead ones out and
drops a set that has none left, then recounts the live sessions. It runs beside the writes of the
session port, command by command.

The pages of a `SCAN` are read at once; which keys they gather is up to the environment, as a key
that comes or goes during the scan may be seen or not.
-/

set_option autoImplicit false

namespace OidcExchange

namespace Valkey

open Interleaving Storage

/-- The commands of the writes, and those that only cleanup sends. -/
inductive SweepCommand : Type
  | write (o : Command)
  /-- `SCAN` over the sets of the users. -/
  | scanUserSets
  /-- `SCAN` over the sets of the families. -/
  | scanFamilySets
  /-- `SCAN` over the sessions. -/
  | scanSessions
  /-- `EXISTS` -/
  | probe (k : Key)
  /-- `SREM` of several members. -/
  | sremAll (k : Key) (tokenHashes : List String)
  | setCounter (count : ℕ)
  | getCounter

abbrev SweepAns : SweepCommand → Type
  | .write o => Ans o
  | .scanUserSets => Answer (List String)
  | .scanFamilySets => Answer (List String)
  | .scanSessions => Answer (List String)
  | .probe _ => Answer Bool
  | .sremAll _ _ => Answer ℕ
  | .setCounter _ => Answer Unit
  | .getCounter => Answer ℕ

/-- What the environment decides: as for the writes, or what a scan gathers. -/
inductive SweepChoice : Type
  | write (x : Choice)
  | gathered (names : List String)

namespace Keyspace

variable (ks : Keyspace)

/-- `SREM` of several members, with the number that were there. -/
def sremAll (k : Key) (tokenHashes : List String) : ℕ × Keyspace :=
  (tokenHashes.countP fun h => decide (h ∈ ks.sets.members k), tokenHashes.foldl (·.srem k) ks)

/-- `GET` of the counter as an unsigned number; a negative one is refused by the client. -/
def getCounter (x : Choice) : Option (Answer ℕ × Keyspace) :=
  match x with
  | .proceed => if 0 ≤ ks.activeSessions then some (.ok ks.activeSessions.toNat, ks) else none
  | .fail e => some (.error (.error e), ks)
  | .lost e => some (.error (.error e), ks)

end Keyspace

/-- A scan gathers some names or fails. -/
def gather (x : SweepChoice) (ks : Keyspace) : Option (Answer (List String) × Keyspace) :=
  match x with
  | .gathered names => some (.ok names, ks)
  | .write (.fail e) => some (.error (.error e), ks)
  | .write _ => none

/-- One command; the keys whose deadline has passed are dropped first. -/
def sweepExec (x : SweepChoice) (c : ℕ) (o : SweepCommand) (ks : Keyspace) :
    Option (SweepAns o × Keyspace) :=
  match o, x with
  | .write o, .write x => exec x c o ks
  | .scanUserSets, x => gather x ks.purge
  | .scanFamilySets, x => gather x ks.purge
  | .scanSessions, x => gather x ks.purge
  | .probe k, .write x => reply x ks.purge (ks.purge.has k, ks.purge)
  | .sremAll k hs, .write x => reply x ks.purge (ks.purge.sremAll k hs)
  | .setCounter n, .write x => reply x ks.purge ((), { ks.purge with activeSessions := n })
  | .getCounter, .write x => ks.purge.getCounter x
  | _, .gathered _ => none

/-- A command that the writes send as well. -/
abbrev sent {α : Type} (p : Adapter Ans α) : Adapter SweepAns α :=
  p.interp fun o => Program.ask (SweepCommand.write o)

abbrev probe (k : Key) : Adapter SweepAns Bool :=
  Adapter.await (Program.ask (SweepCommand.probe k))

/-- The members that the test calls dead. -/
def deadMembers (isDead : String → Adapter SweepAns Bool) :
    List String → List String → Adapter SweepAns (List String)
  | [], dead => .done dead
  | member :: rest, dead => do
    if ← isDead member then deadMembers isDead rest (dead ++ [member])
    else deadMembers isDead rest dead

/-- Dead members go; how many were removed. -/
def removeDead (k : Key) (dead : List String) : Adapter SweepAns ℕ :=
  if dead = [] then .done 0
  else do
    let removed ← Adapter.await (Program.ask (SweepCommand.sremAll k dead))
    Adapter.assert (removed ≤ dead.length)
    return removed

/-- One set: its dead members go, and the set when none is left; how many members were removed
and how many there were. SOURCE: adapters/src/valkey/mod.rs:907-959 -/
def pruneSet (isDead : String → Adapter SweepAns Bool) (k : Key) : Adapter SweepAns (ℕ × ℕ) := do
  let members ← sent (smembers k)
  let dead ← deadMembers isDead members []
  let removed ← removeDead k dead
  let remaining ← sent (scard k)
  Adapter.when (remaining == 0) do
    let _ ← sent (del [k])
  return (removed, members.length)

/-- The sets one after another. -/
def pruneSets (isDead : String → Adapter SweepAns Bool) :
    List Key → ℕ × ℕ → Adapter SweepAns (ℕ × ℕ)
  | [], counts => .done counts
  | k :: rest, (removed, scanned) => do
    let (r, n) ← pruneSet isDead k
    pruneSets isDead rest (removed + r, scanned + n)

/-- A member of a user's set is dead without a session.
SOURCE: adapters/src/valkey/mod.rs:920-932 -/
def sessionGone (tokenHash : String) : Adapter SweepAns Bool := do
  return !(← probe (.session tokenHash))

/-- A member of a family's set is dead without a session and without a retirement record.
SOURCE: adapters/src/valkey/mod.rs:997-1019 -/
def generationGone (tokenHash : String) : Adapter SweepAns Bool := do
  if ← probe (.session tokenHash) then return false
  else return !(← probe (.retired tokenHash))

/-- SOURCE: adapters/src/valkey/mod.rs:885-1098 -/
def cleanupExpiredSessions : Adapter SweepAns ℕ := do
  let users ← Adapter.await (Program.ask SweepCommand.scanUserSets)
  let (removed, scanned) ← pruneSets sessionGone (users.map .userSessions) (0, 0)
  Adapter.assert (removed ≤ scanned)
  let families ← Adapter.await (Program.ask SweepCommand.scanFamilySets)
  let (removed, _) ← pruneSets generationGone (families.map .family) (removed, scanned)
  let live ← Adapter.await (Program.ask SweepCommand.scanSessions)
  Adapter.await (Program.ask (SweepCommand.setCounter live.length))
  let reconciled ← Adapter.await (Program.ask SweepCommand.getCounter)
  Adapter.assert (reconciled == live.length)
  return removed

/-- A write of the session port, or cleanup. -/
inductive SweepRequest : Type
  | write (request : Request)
  | cleanup

abbrev SweepPool : Type := Pool SweepAns SweepRequest (Fault Error) Response Keyspace

abbrev SweepAct : Type := Act SweepRequest SweepChoice Drift

abbrev SweepMoment : Type := Moment SweepAns SweepRequest Keyspace

def SweepPool.start (clock : Instant) : SweepPool := Pool.initial (.empty clock)

end Valkey

end OidcExchange
