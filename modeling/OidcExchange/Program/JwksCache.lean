import OidcExchange.Interleaving.Program
import OidcExchange.Model.Ports

/-!
# The cache of a provider's published keys

Callers of the cache look keys up concurrently. An expired set is refilled by the one caller that
holds the permit, and a key that is not found forces a fetch, at most one in an interval. What a
caller does without giving way is one operation: no lock is held across a fetch.

Key sets are any type with a lookup. Every fetch carries a ticket, which is kept for the statements
alone: how many fetches were started before it, when it was started, and how many sets had been
published by then. Left out: the error of a semaphore that is closed, which never happens, the
order in which callers wait for the permit, and callers that are dropped.
-/

set_option autoImplicit false

namespace OidcExchange

open Interleaving

/-- What the cache is configured with, in nanoseconds, and the lookup in a key set.
SOURCE: adapters/src/shared/jwks.rs:54-66, adapters/src/shared/keys.rs:120-123 -/
structure JwksConfig (Keys Key : Type) : Type where
  ttl : ℕ
  get : Keys → String → Option Key

/-- SOURCE: adapters/src/shared/jwks.rs:18 -/
def minRefreshInterval : ℕ := 30 * 10 ^ 9

/-- The ticket of a fetch. -/
structure Fetch : Type where
  number : ℕ
  startedAt : ℕ
  mark : ℕ
  deriving DecidableEq

/-- A cached set, with the ticket of the fetch that brought it.
SOURCE: adapters/src/shared/jwks.rs:68-71 -/
structure CachedJwks (Keys : Type) : Type where
  keys : Keys
  fetchedAt : ℕ
  fetch : Fetch
  deriving DecidableEq

/-! ## Operations -/

/-- What a caller does: read a fresh set, try for the permit, read any set, wait for the permit,
check again and start a refill, wait for the answer to a fetch, store a set, give the permit back,
ask whether a fetch was forced lately, and record that one is forced now and start it. -/
inductive JwksOp (Keys : Type) : Type
  | freshCached
  | tryAcquire
  | anyCached
  | acquire
  | recheck
  | fetchKeys (fetch : Fetch)
  | store (fetch : Fetch) (keys : Keys)
  | release
  | forcedLately
  | recordForced

/-- A check that finds no fresh set starts a fetch, as does an attempt that is recorded; a set is
stored at an instant. -/
abbrev JwksAns (Keys : Type) : JwksOp Keys → Type
  | .freshCached => Option Keys
  | .tryAcquire => Bool
  | .anyCached => Option Keys
  | .acquire => Unit
  | .recheck => Keys ⊕ Fetch
  | .fetchKeys _ => Except Error Keys
  | .store _ _ => ℕ
  | .release => Unit
  | .forcedLately => Bool
  | .recordForced => Option Fetch

/-- The clock, the sets that were published, newest first, the cache with its permit and the
instant of the last forced fetch, and the number of fetches started. -/
structure JwksWorld (Keys : Type) : Type where
  clock : ℕ
  published : List Keys
  cache : Option (CachedJwks Keys)
  lastForced : Option ℕ
  permit : Option ℕ
  started : ℕ

/-- What the environment decides: which of the sets published since a fetch was started it is
answered with, or that it fails. -/
inductive JwksChoice : Type
  | proceed
  | answer (back : ℕ)
  | fail (e : Error)

namespace JwksWorld

variable {Keys Key : Type} (config : JwksConfig Keys Key) (w : JwksWorld Keys)

/-- A cache that nothing was fetched for. SOURCE: adapters/src/shared/jwks.rs:76-85 -/
def new (clock : ℕ) (published : List Keys) : JwksWorld Keys where
  clock := clock
  published := published
  cache := none
  lastForced := none
  permit := none
  started := 0

/-- The sets that were published at some time since a fetch was started. -/
def publishedSince (fetch : Fetch) : List Keys :=
  w.published.take (w.published.length - fetch.mark + 1)

/-- SOURCE: adapters/src/shared/jwks.rs:108-116 -/
def freshEntry : Option (CachedJwks Keys) :=
  w.cache.filter fun cached => w.clock - cached.fetchedAt < config.ttl

/-- SOURCE: adapters/src/shared/jwks.rs:241-246, 252-258 -/
def recentlyForced : Bool := w.lastForced.any fun last => w.clock - last < minRefreshInterval

/-- The ticket of a fetch that is started now. -/
def ticket : Fetch where
  number := w.started
  startedAt := w.clock
  mark := w.published.length

/-- A fetch is started. -/
def start : JwksWorld Keys := { w with started := w.started + 1 }

/-- One operation. -/
def exec (x : JwksChoice) (c : ℕ) (o : JwksOp Keys) (w : JwksWorld Keys) :
    Option (JwksAns Keys o × JwksWorld Keys) :=
  match o, x with
  | .freshCached, .proceed => some ((w.freshEntry config).map (·.keys), w)
  | .tryAcquire, .proceed =>
    match w.permit with
    | none => some (true, { w with permit := some c })
    | some _ => some (false, w)
  | .anyCached, .proceed => some (w.cache.map (·.keys), w)
  | .acquire, .proceed =>
    match w.permit with
    | none => some ((), { w with permit := some c })
    | some _ => none
  | .recheck, .proceed =>
    match w.freshEntry config with
    | some cached => some (.inl cached.keys, w)
    | none => some (.inr w.ticket, w.start)
  | .fetchKeys fetch, .answer back =>
    (w.publishedSince fetch)[back]?.map fun keys => (.ok keys, w)
  | .fetchKeys _, .fail e => some (.error e, w)
  | .store fetch keys, .proceed =>
    some (w.clock, { w with cache := some ⟨keys, w.clock, fetch⟩ })
  | .release, .proceed => some ((), { w with permit := none })
  | .forcedLately, .proceed => some (w.recentlyForced, w)
  | .recordForced, .proceed =>
    if w.recentlyForced then some (none, w)
    else some (some w.ticket, { w.start with lastForced := some w.clock })
  | _, _ => none

end JwksWorld

/-- How the world moves on: time passes, or the provider publishes another set. -/
inductive JwksDrift (Keys : Type) : Type
  | tick (later : ℕ)
  | publish (keys : Keys)

def JwksWorld.drift {Keys : Type} (k : JwksDrift Keys) (w : JwksWorld Keys) :
    Option (JwksWorld Keys) :=
  match k with
  | .tick later => if w.clock ≤ later then some { w with clock := later } else none
  | .publish keys => some { w with published := keys :: w.published }

/-! ## The cache -/

/-- A call of the cache. -/
abbrev JwksCall (Keys α : Type) : Type := Program (JwksAns Keys) (Fault Error) α

namespace JwksCache

variable {Keys Key : Type}

/-- The answer to a fetch that the holder of the permit has started: what it brings is stored
before the permit is given back. SOURCE: adapters/src/shared/jwks.rs:182-191 -/
def concludeRefill (fetch : Fetch) : Except Error Keys → JwksCall Keys Keys
  | .error e => Program.perform JwksOp.release fun _ => .raise (.error e)
  | .ok keys => Program.perform (JwksOp.store fetch keys) fun _ =>
      Program.perform JwksOp.release fun _ => .done keys

/-- The holder of the permit checks again before it spends a request.
SOURCE: adapters/src/shared/jwks.rs:169-191 -/
def refill : JwksCall Keys Keys := do
  match ← Program.ask JwksOp.recheck with
  | .inl keys => Program.perform JwksOp.release fun _ => .done keys
  | .inr fetch => Program.ask (JwksOp.fetchKeys fetch) >>= concludeRefill fetch

/-- A caller that does not get the permit takes any set there is, and waits where there is none.
SOURCE: adapters/src/shared/jwks.rs:145-167 -/
def queueForRefill : JwksCall Keys Keys := do
  match ← Program.ask JwksOp.anyCached with
  | some stale => pure stale
  | none => Program.perform JwksOp.acquire fun _ => refill

/-- SOURCE: adapters/src/shared/jwks.rs:133-192 -/
def getKeys : JwksCall Keys Keys := do
  match ← Program.ask JwksOp.freshCached with
  | some keys => pure keys
  | none => do
    match ← Program.ask JwksOp.tryAcquire with
    | true => refill
    | false => queueForRefill

/-- The answer to a fetch that was forced. SOURCE: adapters/src/shared/jwks.rs:273-281 -/
def concludeForced (fetch : Fetch) : Except Error Keys → JwksCall Keys Unit
  | .error e => .raise (.error e)
  | .ok keys => Program.perform (JwksOp.store fetch keys) fun _ => .done ()

/-- SOURCE: adapters/src/shared/jwks.rs:235-282 -/
def refresh : JwksCall Keys Unit := do
  match ← Program.ask JwksOp.forcedLately with
  | true => pure ()
  | false => do
    match ← Program.ask JwksOp.recordForced with
    | none => pure ()
    | some fetch => Program.ask (JwksOp.fetchKeys fetch) >>= concludeForced fetch

/-- A key that is still missing after a forced fetch. SOURCE: adapters/src/shared/jwks.rs:219-221 -/
def noMatchingKey (kid : String) : Error :=
  .invalidGrant ("No matching key for kid: " ++ kid ++ " (after forced refetch)")

/-- The lookup that follows a forced fetch. SOURCE: adapters/src/shared/jwks.rs:216-221 -/
def getKeyAfterRefresh (config : JwksConfig Keys Key) (kid : String) : JwksCall Keys Key := do
  refresh
  let keys ← getKeys
  match config.get keys kid with
  | some key => pure key
  | none => .raise (.error (noMatchingKey kid))

/-- SOURCE: adapters/src/shared/jwks.rs:204-222 -/
def getKey (config : JwksConfig Keys Key) (kid : String) : JwksCall Keys Key := do
  Program.ofExcept (assertThat (kid ≠ ""))
  let keys ← getKeys
  match config.get keys kid with
  | some key => pure key
  | none => getKeyAfterRefresh config kid

end JwksCache

/-- What the cache is asked for. -/
inductive JwksRequest : Type
  | getKeys
  | getKey (kid : String)
  | refresh
  deriving DecidableEq

/-- What the cache answers. -/
inductive JwksResult (Keys Key : Type) : Type
  | keys (keys : Keys)
  | key (key : Key)
  | refreshed
  deriving DecidableEq

/-- Every request of the cache. -/
def JwksConfig.serve {Keys Key : Type} (config : JwksConfig Keys Key) :
    JwksRequest → JwksCall Keys (JwksResult Keys Key)
  | .getKeys => JwksResult.keys <$> JwksCache.getKeys
  | .getKey kid => JwksResult.key <$> JwksCache.getKey config kid
  | .refresh => (fun _ => JwksResult.refreshed) <$> JwksCache.refresh

end OidcExchange
