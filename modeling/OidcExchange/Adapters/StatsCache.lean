import OidcExchange.Adapters.Adapter

/-!
# The cached count of active sessions

The DynamoDB adapter counts the active sessions in a walk over the table and keeps the count with
an instant. A caller that finds it too old stamps it anew and walks, so that whoever comes meanwhile
is served the old count. Callers run concurrently; what one does under the guard of the cache is one
operation. The instant that is stored with a count is read before the guard is taken.

Instants are in nanoseconds. Left out: the pages of a walk, which may answer any count.
-/

set_option autoImplicit false

namespace OidcExchange

namespace StatsCache

open Interleaving

/-- One millisecond. SOURCE: adapters/src/dynamo/mod.rs:379-383 -/
def minStatsCacheTtl : ℕ := 10 ^ 6

/-- One hour. SOURCE: adapters/src/dynamo/mod.rs:48-51 -/
def maxStatsCacheTtl : ℕ := 3600 * 10 ^ 9

/-- What the constructor guarantees. SOURCE: adapters/src/dynamo/mod.rs:385-420 -/
structure Config : Type where
  statsCacheTtl : ℕ
  usable : minStatsCacheTtl ≤ statsCacheTtl ∧ statsCacheTtl ≤ maxStatsCacheTtl

/-! ## Operations -/

/-- What a caller finds under the guard, and when it matters the instant at which it looks: a count
to serve, a count that is too old and is stamped anew, no count, or a count from the future. -/
inductive Found : Type
  | served (count now : ℕ)
  | elected (now : ℕ)
  | cold
  | ahead

/-- A look at the cache, the walk over the table, a reading of the clock, and the store of a count. -/
inductive Command : Type
  | consult
  | walk
  | now
  | store (fetchedAt count : ℕ)

abbrev Ans : Command → Type
  | .consult => Found
  | .walk => Except Error ℕ
  | .now => ℕ
  | .store _ _ => Unit

/-- The clock, and the count with its instant. -/
structure World : Type where
  clock : ℕ
  cache : Option (ℕ × ℕ)

/-- What the environment decides: what a walk finds, or that it fails. -/
inductive Choice : Type
  | proceed
  | answer (count : ℕ)
  | fail (e : Error)

/-- SOURCE: adapters/src/dynamo/mod.rs:1967-1982 -/
def World.consult (config : Config) (w : World) : Found × World :=
  match w.cache with
  | none => (.cold, w)
  | some (fetchedAt, count) =>
    if w.clock < fetchedAt then (.ahead, w)
    else if w.clock - fetchedAt < config.statsCacheTtl then (.served count w.clock, w)
    else (.elected w.clock, { w with cache := some (w.clock, count) })

def exec (config : Config) (x : Choice) (_c : ℕ) (o : Command) (w : World) :
    Option (Ans o × World) :=
  match o, x with
  | .consult, .proceed => some (w.consult config)
  | .walk, .answer count => some (.ok count, w)
  | .walk, .fail e => some (.error e, w)
  | .now, .proceed => some (w.clock, w)
  | .store fetchedAt count, .proceed => some ((), { w with cache := some (fetchedAt, count) })
  | _, _ => none

/-- Time passes. -/
inductive Drift : Type
  | tick (later : ℕ)

def drift : Drift → World → Option World
  | .tick later, w => if w.clock ≤ later then some { w with clock := later } else none

def semantics (config : Config) : Semantics Ans World Choice Drift where
  exec := exec config
  drift := drift

/-! ## The adapter -/

/-- A walk, and the store of what it counted. SOURCE: adapters/src/dynamo/mod.rs:1984-1990 -/
def refresh (config : Config) : Adapter Ans ℕ := do
  match ← Program.ask Command.walk with
  | .error e => .raise (.error e)
  | .ok count =>
    Adapter.assert (decide (minStatsCacheTtl ≤ config.statsCacheTtl))
    let fetchedAt ← Program.ask Command.now
    Program.perform (Command.store fetchedAt count) fun _ => .done count

/-- SOURCE: adapters/src/dynamo/mod.rs:1966-1991 -/
def countActiveSessions (config : Config) : Adapter Ans ℕ := do
  match ← Program.ask Command.consult with
  | .served count _ => .done count
  | .elected _ => refresh config
  | .cold => refresh config
  | .ahead => .raise .panic

abbrev StatsPool : Type := Pool Ans Unit (Fault Error) ℕ World

abbrev StatsMoment : Type := Moment Ans Unit World

abbrev StatsAct : Type := Act Unit Choice Drift

/-- The callers of the cache as a transition system. -/
abbrev stats (config : Config) : System StatsPool StatsAct :=
  Pool.system (semantics config) fun _ => countActiveSessions config

/-- An empty cache. SOURCE: adapters/src/dynamo/mod.rs:400 -/
def StatsPool.start (clock : ℕ) : StatsPool := Pool.initial { clock := clock, cache := none }

end StatsCache

end OidcExchange
