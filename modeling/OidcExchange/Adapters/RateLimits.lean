import OidcExchange.Model.Ports
import OidcExchange.Storage.Table
import OidcExchange.Throttling.FixedWindow
import Mathlib.Data.List.MinMax
import OidcExchange.Interleaving.Service

/-!
# Rate limiters

Both limiters keep a bounded table of buckets and read a monotonic clock, in nanoseconds; a
difference of two of its readings is cut off at zero. The public limiter counts requests in fixed
windows. The limiter of the operator plane counts failures in a window, and locks out from the
failure that spends the budget until window and lockout have run since the window began.

Left out: the lock of the public limiter, under which nothing panics.
-/

set_option autoImplicit false

namespace OidcExchange

open Storage Throttling

deriving instance DecidableEq for RateLimitDecision

/-- Whole seconds still ahead, at least one. SOURCE: adapters/src/rate_limit/mod.rs:273-275 -/
def remainingSecs (lifetime elapsed : ℕ) : ℕ :=
  max ((lifetime - elapsed) / nanosPerSec.toNat) 1

/-- The first entry, in the table's own order, with the earliest start. -/
def oldestKey {κ : Type} (t : Table κ Bucket) : Option κ :=
  (t.entries.argmin fun e => e.2.startedAt).map fun e => e.1

/-! ## The public limiter -/

deriving instance DecidableEq for RateLimitKey

/-- The keys of the public limiter; those of the core flows stand beside the two of a client
address. SOURCE: core/src/domain/audit.rs:314-330 -/
inductive ThrottleKey : Type
  | clientAddr (address : String)
  | clientAddrFailure (address : String)
  | core (key : RateLimitKey)
  deriving DecidableEq

/-- SOURCE: server/src/middleware/throttle.rs:55-63 -/
structure RateLimitBudgets : Type where
  perIp : UInt64
  perIpFailures : UInt64
  perSubject : UInt64
  perProvider : UInt64

/-- SOURCE: server/src/middleware/throttle.rs:65-79 -/
def RateLimitBudgets.forKey (b : RateLimitBudgets) : ThrottleKey → UInt64
  | .clientAddr _ => b.perIp
  | .clientAddrFailure _ => b.perIpFailures
  | .core (.subject _ _) => b.perSubject
  | .core (.provider _) => b.perProvider

/-- What the constructor guarantees. SOURCE: server/src/middleware/throttle.rs:12-115 -/
structure FixedWindowRateLimiter : Type where
  window : ℕ
  budgets : RateLimitBudgets
  maxEntries : ℕ
  window_pos : 0 < window
  maxEntries_pos : 0 < maxEntries

namespace FixedWindowRateLimiter

variable (l : FixedWindowRateLimiter)

/-- The buckets whose window is open. SOURCE: server/src/middleware/throttle.rs:128 -/
def retain (now : ℕ) (state : Table ThrottleKey Bucket) : Table ThrottleKey Bucket :=
  state.deleteWhere fun _ bucket => !decide (now - bucket.startedAt < l.window)

/-- Whether a new key has to displace another one. SOURCE: server/src/middleware/throttle.rs:130 -/
def full (key : ThrottleKey) (state : Table ThrottleKey Bucket) : Bool :=
  (state.lookup key).isNone && state.entries.length == l.maxEntries

/-- Room for a new key. SOURCE: server/src/middleware/throttle.rs:130-137 -/
def evict (key : ThrottleKey) (state : Table ThrottleKey Bucket) : Table ThrottleKey Bucket :=
  if l.full key state then (oldestKey state).elim state state.erase else state

/-- SOURCE: server/src/middleware/throttle.rs:119-152 -/
def checkAt (key : ThrottleKey) (now : ℕ) (state : Table ThrottleKey Bucket) :
    RateLimitDecision × Table ThrottleKey Bucket :=
  let budget := (l.budgets.forKey key).toNat
  if budget = 0 then (.allow, state)
  else
    let state := l.evict key (l.retain now state)
    let bucket := (state.lookup key).getD { startedAt := now, consumed := 0 }
    if bucket.consumed < budget then
      (.allow, state.insert key { bucket with consumed := bucket.consumed + 1 })
    else (.deny (remainingSecs l.window (now - bucket.startedAt)), state.insert key bucket)

end FixedWindowRateLimiter

/-! ## The limiter of the operator plane -/

/-- SOURCE: adapters/src/rate_limit/mod.rs:28 -/
def maxTrackedPeers : ℕ := 4096

/-- The longest time span, in nanoseconds. SOURCE: `Duration::MAX` -/
def maxDuration : ℕ := 2 ^ 64 * nanosPerSec.toNat - 1

theorem second_pos : 0 < nanosPerSec.toNat := by decide

theorem minute_pos : 0 < 60 * nanosPerSec.toNat := by decide

theorem longest_pos : 0 < (2 ^ 64 - 1) * nanosPerSec.toNat := by decide

/-- What the constructor guarantees. SOURCE: adapters/src/rate_limit/mod.rs:38-93 -/
structure AdminAuthRateLimiter : Type where
  failureWindow : ℕ
  lockout : ℕ
  maxAuthFailures : ℕ
  maxAuthFailures_pos : 0 < maxAuthFailures
  failureWindow_pos : 0 < failureWindow
  lockout_pos : 0 < lockout

/-- The buckets by peer, and whether an update panicked under the lock. -/
structure PeerBuckets : Type where
  peers : Table String Bucket
  poisoned : Bool

namespace AdminAuthRateLimiter

variable (l : AdminAuthRateLimiter)

/-- The sum panics where it has no representation. SOURCE: adapters/src/rate_limit/mod.rs:96-98 -/
def bucketLifetime : Option ℕ :=
  if l.failureWindow + l.lockout ≤ maxDuration then some (l.failureWindow + l.lockout) else none

/-- The buckets after a new peer has been entered: none where the new bucket itself is the one
that would be displaced. SOURCE: adapters/src/rate_limit/mod.rs:128-148 -/
def enter (peer : String) (now : ℕ) (peers : Table String Bucket) : Option (Table String Bucket) :=
  let entered := peers.insert peer { startedAt := now, consumed := 0 }
  if maxTrackedPeers < entered.entries.length then
    match oldestKey entered with
    | some oldest => if oldest = peer then none else some (entered.erase oldest)
    | none => none
  else some entered

/-- The buckets that have not run out, with one for the peer.
SOURCE: adapters/src/rate_limit/mod.rs:117-161 -/
def liveBuckets (lifetime : ℕ) (peer : String) (now : ℕ) (peers : Table String Bucket) :
    Option (Table String Bucket × Bucket) :=
  let live := peers.deleteWhere fun _ bucket => !decide (now - bucket.startedAt < lifetime)
  match live.lookup peer with
  | some bucket => some (live, bucket)
  | none => do
    let entered ← enter peer now live
    let bucket ← entered.lookup peer
    some (entered, bucket)

/-- SOURCE: adapters/src/rate_limit/mod.rs:223-237 -/
def decisionAt (bucket : Bucket) (now lifetime : ℕ) : RateLimitDecision :=
  let elapsed := now - bucket.startedAt
  if bucket.consumed < l.maxAuthFailures ∨ lifetime ≤ elapsed then .allow
  else .deny (remainingSecs lifetime elapsed)

/-- The bucket that one failure is recorded in. SOURCE: adapters/src/rate_limit/mod.rs:188-196 -/
def rolled (bucket : Bucket) (now lifetime : ℕ) : Bucket :=
  let elapsed := now - bucket.startedAt
  if lifetime ≤ elapsed ∨ (l.failureWindow ≤ elapsed ∧ bucket.consumed < l.maxAuthFailures) then
    { startedAt := now, consumed := 0 }
  else bucket

/-- The decision and the bucket after one failure; the time reported is measured from the start
that the bucket had before. SOURCE: adapters/src/rate_limit/mod.rs:176-215 -/
def recorded (bucket : Bucket) (now lifetime : ℕ) : RateLimitDecision × Bucket :=
  let elapsed := now - bucket.startedAt
  let bucket := l.rolled bucket now lifetime
  if bucket.consumed < l.maxAuthFailures then
    let bucket := { bucket with consumed := bucket.consumed + 1 }
    if l.maxAuthFailures ≤ bucket.consumed then (.deny (remainingSecs lifetime elapsed), bucket)
    else (.allow, bucket)
  else (.deny (remainingSecs lifetime elapsed), bucket)

/-- An update under the lock: after a panic the lock is poisoned, and from then on nothing is
limited; the update that panics has no answer. SOURCE: adapters/src/rate_limit/mod.rs:100-115 -/
def withState (f : Table String Bucket → Option (RateLimitDecision × Table String Bucket))
    (state : PeerBuckets) : Option RateLimitDecision × PeerBuckets :=
  if state.poisoned then (some .allow, state)
  else
    match f state.peers with
    | some (decision, peers) => (some decision, { state with peers := peers })
    | none => (none, { state with poisoned := true })

/-- SOURCE: adapters/src/rate_limit/mod.rs:164-172 -/
def checkAt (peer : String) (now : ℕ) (state : PeerBuckets) : Option RateLimitDecision × PeerBuckets :=
  withState (fun peers => do
    let lifetime ← l.bucketLifetime
    let (live, bucket) ← liveBuckets lifetime peer now peers
    some (l.decisionAt bucket now lifetime, live)) state

/-- SOURCE: adapters/src/rate_limit/mod.rs:174-216 -/
def consumeAt (peer : String) (now : ℕ) (state : PeerBuckets) : Option RateLimitDecision × PeerBuckets :=
  withState (fun peers => do
    let lifetime ← l.bucketLifetime
    let (live, bucket) ← liveBuckets lifetime peer now peers
    let (decision, bucket) := l.recorded bucket now lifetime
    some (decision, live.insert peer bucket)) state

/-- From the start of a counting phase to the end of its lockout. -/
def span : ℕ := l.failureWindow + l.lockout

/-- The units that count against the budget at an instant. -/
def spentUnits (now : ℕ) (kept : Option Bucket) : ℕ :=
  kept.elim 0 fun bucket => (l.rolled bucket now l.span).consumed

end AdminAuthRateLimiter

/-! ## Calls on the limiters

The two limiters as services that answer one call after another. A call brings the instant that was
read before the lock was taken. The buckets are kept in a hash map, whose order may be any one at
any time.
-/

section

open Storage Interleaving Throttling

/-- Two hash maps with the same entries. -/
def Rehashed {κ : Type} (t t' : Table κ Bucket) : Prop := t.entries.Perm t'.entries

instance {κ : Type} [DecidableEq κ] (t t' : Table κ Bucket) : Decidable (Rehashed t t') :=
  inferInstanceAs (Decidable (t.entries.Perm t'.entries))

/-! ## The public limiter -/

/-- Any key; the budget of operators is not kept here. SOURCE: core/src/domain/audit.rs:314-330 -/
inductive LimitedKey : Type
  | throttle (key : ThrottleKey)
  | operatorAuth (peer : String)
  deriving DecidableEq

/-- A key and the instant of the call. -/
structure CheckCall : Type where
  key : LimitedKey
  now : ℕ

/-- The decision, none where the call panicked, and when the window of the key began. -/
structure CheckAnswer : Type where
  decision : Option RateLimitDecision
  startedAt : Option ℕ
  deriving DecidableEq

namespace FixedWindowRateLimiter

/-- SOURCE: server/src/middleware/throttle.rs:66-77 and 119-152 -/
def serve (l : FixedWindowRateLimiter) (call : CheckCall) (state : Table ThrottleKey Bucket) :
    CheckAnswer × Table ThrottleKey Bucket :=
  match call.key with
  | .operatorAuth _ => (⟨none, none⟩, state)
  | .throttle key =>
    let done := l.checkAt key call.now state
    (⟨some done.1, (done.2.lookup key).map Bucket.startedAt⟩, done.2)

/-- The public limiter as a service. -/
def service (l : FixedWindowRateLimiter) :
    Interleaving.Service CheckCall CheckAnswer (Table ThrottleKey Bucket) where
  serve := l.serve
  rearranges := Rehashed

end FixedWindowRateLimiter

/-! ## The limiter of the operator plane -/

/-- The two calls of the limiter. -/
inductive PeerCallKind : Type
  | check
  | consume
  deriving DecidableEq

/-- A call for a peer and its instant. -/
structure PeerCall : Type where
  kind : PeerCallKind
  peer : String
  now : ℕ

/-- The decision, none where the call panicked, the units that counted when it was made, and the
bucket of the peer. -/
structure PeerAnswer : Type where
  decision : Option RateLimitDecision
  spent : ℕ
  bucket : Option Bucket
  deriving DecidableEq

namespace AdminAuthRateLimiter

/-- SOURCE: adapters/src/rate_limit/mod.rs:163-214 -/
def callAt (l : AdminAuthRateLimiter) (call : PeerCall) (state : PeerBuckets) :
    Option RateLimitDecision × PeerBuckets :=
  match call.kind with
  | .check => l.checkAt call.peer call.now state
  | .consume => l.consumeAt call.peer call.now state

/-- The limiter as a service. -/
def service (l : AdminAuthRateLimiter) : Interleaving.Service PeerCall PeerAnswer PeerBuckets where
  serve call state :=
    let done := l.callAt call state
    (⟨done.1, l.spentUnits call.now (state.peers.lookup call.peer),
      done.2.peers.lookup call.peer⟩, done.2)
  rearranges state state' := Rehashed state.peers state'.peers ∧ state'.poisoned = state.poisoned

instance (l : AdminAuthRateLimiter) (state state' : PeerBuckets) :
    Decidable (l.service.rearranges state state') :=
  inferInstanceAs (Decidable (Rehashed state.peers state'.peers ∧ state'.poisoned = state.poisoned))

end AdminAuthRateLimiter

instance (l : FixedWindowRateLimiter) (state state' : Table ThrottleKey Bucket) :
    Decidable (l.service.rearranges state state') :=
  inferInstanceAs (Decidable (Rehashed state state'))

end

end OidcExchange
