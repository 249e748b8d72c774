import OidcExchange.Adapters.Lmdb
import OidcExchange.Program.Assertion

/-!
# The batches of a sweep

The delete phase of cleanup as its loops run it: a cursor into the list of what has expired, and a
width that is halved as long as a batch does not fit. A slice beyond the list is a fault, and so is
a loop that goes on for more turns than it is given.
-/

set_option autoImplicit false

namespace OidcExchange

namespace Lmdb

open Interleaving

/-- The entries from one position up to another. -/
def sliceOf {α : Type} (xs : List α) (start stop : ℕ) : Option (List α) :=
  if start ≤ stop ∧ stop ≤ xs.length then some ((xs.drop start).take (stop - start)) else none

/-- How a batch that failed ends the sweep. SOURCE: adapters/src/lmdb/mod.rs:791 -/
def sweepError : BatchError → Fault Error
  | .mapFull => .error (.storeError "MDB_MAP_FULL: Environment mapsize limit reached")
  | .other e => .error e

/-- The inner loop: a batch at the cursor, and narrower ones as long as the map is full; how many
entries went, and the width that fitted. SOURCE: adapters/src/lmdb/mod.rs:772-793 -/
def commitFitting (expired : List Expired) (cursor : ℕ) : ℕ → ℕ → ℕ → Adapter Ans (ℕ × ℕ)
  | 0, _, _ => .raise .panic
  | turns + 1, width, halvings => do
    let batch ← Program.ofExcept (expectSome (sliceOf expired cursor (cursor + width)))
    match ← Program.ask (Txn.deleteBatch batch) with
    | .ok removed => .done (removed, width)
    | .error .mapFull =>
      if 1 < width ∧ halvings < cleanupMaxBatchHalvings then
        commitFitting expired cursor turns (max (width / 2) 1) (halvings + 1)
      else .raise (sweepError .mapFull)
    | .error e => .raise (sweepError e)

/-- The outer loop, at a cursor. SOURCE: adapters/src/lmdb/mod.rs:768-795 -/
def sweepFrom (expired : List Expired) : ℕ → ℕ → ℕ → Adapter Ans ℕ
  | 0, _, _ => .raise .panic
  | turns + 1, cursor, deleted =>
    if cursor < expired.length then do
      let (removed, width) ← commitFitting expired cursor (cleanupMaxBatchHalvings + 1)
        (min cleanupBatchSize (expired.length - cursor)) 0
      sweepFrom expired turns (cursor + width) (deleted + removed)
    else .done deleted

/-- The delete phase of cleanup. SOURCE: adapters/src/lmdb/mod.rs:766-795 -/
def sweep (expired : List Expired) : Adapter Ans ℕ := sweepFrom expired (expired.length + 1) 0 0

end Lmdb

end OidcExchange
