import OidcExchange.Adapters.SingleUse

/-!
# Single-use claims of Valkey in two steps

A claim reads the clock and turns what is left until the expiry into whole seconds; the command
that it then sends is carried out at a later instant. The server drops a key exactly when its time
to live has passed.

Left out: a command that is carried out although its answer is lost.
-/

set_option autoImplicit false

namespace OidcExchange

open Storage Interleaving

namespace Valkey.SingleUse

/-- What a call does to the clock and to the server. -/
inductive Command : Type
  | clock
  | setNxEx (key : String) (value : Instant) (ttlSeconds : ℤ)
  | getDel (key : String)

/-- The type of the answer to a command. -/
abbrev CommandAns : Command → Type
  | .clock => Instant
  | .setNxEx _ _ _ => Answer Bool
  | .getDel _ => Answer Bool

/-- A step of a call. -/
abbrev Steps (α : Type) : Type := Program CommandAns (Fault Error) α

/-- A command, as a step of a call. -/
abbrev send (o : Command) : Steps (CommandAns o) := Program.ask o

/-- The time to live in whole seconds. SOURCE: adapters/src/valkey/mod.rs:1214-1222 -/
def ttlSeconds (expiresAt now : Instant) : Answer ℤ :=
  let ttlSeconds := (expiresAt - now).tdiv nanosPerSec
  if ttlSeconds < singleUseTtlSecondsMin then
    storeError ("refusing to store single-use record with non-future expires_at (ttl_seconds=" ++
      toString ttlSeconds ++ ")")
  else .ok ttlSeconds

/-- SOURCE: adapters/src/valkey/mod.rs:1211-1244 -/
def putSingleUseSteps (key : String) (expiresAt : Instant) : Steps Bool := do
  Program.ofExcept (assertThat (decide (key ≠ "")))
  let now ← send .clock
  let ttlSeconds ← Program.ofExcept (ttlSeconds expiresAt now)
  let outcome ← send (.setNxEx key expiresAt ttlSeconds)
  Program.ofExcept outcome

/-- SOURCE: adapters/src/valkey/mod.rs:1247-1270 -/
def takeSingleUseSteps (key : String) : Steps Bool := do
  Program.ofExcept (assertThat (decide (key ≠ "")))
  let removed ← send (.getDel key)
  Program.ofExcept removed

/-- `SET … NX EX` on the server. -/
def setNxEx (now : Instant) (key : String) (ttlSeconds : ℤ) (keys : Table String Instant) :
    Bool × Table String Instant :=
  match (aliveAt now keys).lookup key with
  | some _ => (false, aliveAt now keys)
  | none => (true, (aliveAt now keys).insert key (now + ttlSeconds * nanosPerSec))

/-- A command that the server has carried out. -/
inductive Served : Type
  | claim (call : ℕ) (key : String) (expiresAt : Instant) (ttlSeconds : ℤ) (servedAt : Instant)
    (claimed : Bool)
  | burn (call : ℕ) (key : String) (servedAt : Instant) (burned : Bool)
  deriving DecidableEq

/-- The clock, the deadlines of the keys, and what has been carried out, newest first. -/
structure World : Type where
  clock : Instant
  keys : Table String Instant
  served : List Served

/-- Whether a command reaches the server. -/
inductive Delivery : Type
  | answered
  | undelivered (detail : String)

/-- One command. -/
def exec (x : Delivery) (c : ℕ) (o : Command) (w : World) : Option (CommandAns o × World) :=
  match o with
  | .clock =>
    match x with
    | .answered => some (w.clock, w)
    | .undelivered _ => none
  | .setNxEx key value ttlSeconds =>
    match x with
    | .answered =>
      let done := setNxEx w.clock key ttlSeconds w.keys
      some (.ok done.1, { w with
        keys := done.2
        served := .claim c key value ttlSeconds w.clock done.1 :: w.served })
    | .undelivered detail => some (storeError detail, w)
  | .getDel key =>
    match x with
    | .answered =>
      let burned := ((aliveAt w.clock w.keys).lookup key).isSome
      some (.ok burned, { w with
        keys := (aliveAt w.clock w.keys).erase key
        served := .burn c key w.clock burned :: w.served })
    | .undelivered detail => some (storeError detail, w)

/-- Time passes. -/
def drift (later : Instant) (w : World) : Option World :=
  if w.clock ≤ later then some { w with clock := later } else none

/-- The server and its clients. -/
def semantics : Semantics CommandAns World Delivery Instant where
  exec := exec
  drift := drift

/-- What a client asks for. -/
inductive SingleUseRequest : Type
  | claim (key : String) (expiresAt : Instant)
  | burn (key : String)
  deriving DecidableEq

def singleUseBody : SingleUseRequest → Steps Bool
  | .claim key expiresAt => putSingleUseSteps key expiresAt
  | .burn key => takeSingleUseSteps key

/-- Nothing has been claimed. -/
def freshWorld (clock : Instant) : World := ⟨clock, ∅, []⟩

/-- The answers of a world that does not move. -/
def World.answers (w : World) : (o : Command) → CommandAns o
  | .clock => w.clock
  | .setNxEx key _ ttlSeconds => .ok (setNxEx w.clock key ttlSeconds w.keys).1
  | .getDel key => .ok ((aliveAt w.clock w.keys).lookup key).isSome

/-- Both steps of a claim at one instant are the claim of the adapter. -/
theorem putSingleUseSteps_at_once (key : String) (expiresAt : Instant) (w : World) :
    (putSingleUseSteps key expiresAt).run w.answers =
      (putSingleUse w.clock key expiresAt w.keys).1 := by
  by_cases hkey : key = ""
  · simp [putSingleUseSteps, putSingleUse, hkey, assertThat]
  · by_cases httl : (expiresAt - w.clock).tdiv nanosPerSec < singleUseTtlSecondsMin
    · simp [putSingleUseSteps, putSingleUse, hkey, assertThat, ttlSeconds, httl, storeError,
        World.answers]
    · simp only [putSingleUse, hkey, httl, if_false]
      cases hkept : (aliveAt w.clock w.keys).lookup key with
      | some deadline =>
        simp [putSingleUseSteps, hkey, assertThat, ttlSeconds, httl, World.answers, setNxEx, hkept]
      | none =>
        simp [putSingleUseSteps, hkey, assertThat, ttlSeconds, httl, World.answers, setNxEx, hkept]

end Valkey.SingleUse

end OidcExchange
