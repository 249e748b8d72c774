import OidcExchange.Model.SingleUse

/-!
# Single-use records in four stores

Each store writes and compares the expiry of a single-use record in its own way; every claim and
every burn is one atomic operation at one instant.
-/

set_option autoImplicit false

namespace OidcExchange

open Storage

/-- The first instant of the year 0. -/
def yearZero : Instant := -62167219200 * nanosPerSec

/-- The first instant of the year 10000. -/
def yearTenThousand : Instant := 253402300800 * nanosPerSec

/-- The year has four digits and no sign. -/
def FourDigitYear (t : Instant) : Prop := yearZero ≤ t ∧ t < yearTenThousand

instance (t : Instant) : Decidable (FourDigitYear t) := inferInstanceAs (Decidable (_ ∧ _))

/-- The instant can be represented. -/
def Representable (t : Instant) : Prop :=
  minInstantSecs * nanosPerSec ≤ t ∧ t < endInstantSecs * nanosPerSec

instance (t : Instant) : Decidable (Representable t) := inferInstanceAs (Decidable (_ ∧ _))

/-! ## LMDB -/

namespace Lmdb

/-- An instant as RFC 3339 text reads it back; a year with a sign is not read.
SOURCE: `DateTime::to_rfc3339`, `DateTime::parse_from_rfc3339` -/
def reread (t : Instant) : Except String Instant :=
  if FourDigitYear t then .ok t else .error "input contains invalid characters"

/-- SOURCE: adapters/src/lmdb/mod.rs:923-974 -/
def putSingleUse (now : Instant) (key : String) (expiresAt : Instant) (t : Table String Instant) :
    Answer Bool × Table String Instant :=
  if key = "" then (.error .panic, t)
  else
    match t.lookup key with
    | none => (.ok true, t.insert key expiresAt)
    | some existing =>
      match reread existing with
      | .error e => (storeError ("single_use record has unparsable expiry: " ++ e), t)
      | .ok existingExpiry =>
        if now < existingExpiry then (.ok false, t) else (.ok true, t.insert key expiresAt)

/-- SOURCE: adapters/src/lmdb/mod.rs:977-1029 -/
def takeSingleUse (now : Instant) (key : String) (t : Table String Instant) :
    Answer Bool × Table String Instant :=
  if key = "" then (.error .panic, t)
  else
    match t.lookup key with
    | none => (.ok false, t)
    | some existing =>
      match reread existing with
      | .error e => (storeError ("single_use record has unparsable expiry: " ++ e), t)
      | .ok expiresAt => (.ok (decide (now < expiresAt)), t.erase key)

def singleUse : SingleUseStore (Table String Instant) := ⟨putSingleUse, takeSingleUse⟩

end Lmdb

/-! ## SQLite -/

namespace Sqlite

/-- The expiry is text, and texts are compared; `text` writes an instant.
SOURCE: adapters/src/sqlite/mod.rs:1122-1143 -/
def putSingleUse (text : Instant → String) (now : Instant) (key : String) (expiresAt : Instant)
    (t : Table String String) : Answer Bool × Table String String :=
  if key = "" then (.error .panic, t)
  else
    match t.lookup key with
    | none => (.ok true, t.insert key (text expiresAt))
    | some existing =>
      if existing < text now then (.ok true, t.insert key (text expiresAt)) else (.ok false, t)

/-- SOURCE: adapters/src/sqlite/mod.rs:1146-1162 -/
def takeSingleUse (text : Instant → String) (now : Instant) (key : String)
    (t : Table String String) : Answer Bool × Table String String :=
  if key = "" then (.error .panic, t)
  else
    match t.lookup key with
    | none => (.ok false, t)
    | some existing => if text now < existing then (.ok true, t.erase key) else (.ok false, t)

def singleUse (text : Instant → String) : SingleUseStore (Table String String) :=
  ⟨putSingleUse text, takeSingleUse text⟩

end Sqlite

/-! ## DynamoDB -/

namespace Dynamo

/-- The expiry is a number of whole seconds. SOURCE: adapters/src/dynamo/mod.rs:2181-2215,
adapters/src/dynamo/schema.rs:385-401 -/
def putSingleUse (now : Instant) (key : String) (expiresAt : Instant) (t : Table String ℤ) :
    Answer Bool × Table String ℤ :=
  if key = "" then (.error .panic, t)
  else
    match t.lookup key with
    | none => (.ok true, t.insert key expiresAt.timestamp)
    | some existing =>
      if existing < now.timestamp then (.ok true, t.insert key expiresAt.timestamp)
      else (.ok false, t)

/-- SOURCE: adapters/src/dynamo/mod.rs:2218-2243, adapters/src/dynamo/schema.rs:405-420 -/
def takeSingleUse (now : Instant) (key : String) (t : Table String ℤ) :
    Answer Bool × Table String ℤ :=
  if key = "" then (.error .panic, t)
  else
    match t.lookup key with
    | none => (.ok false, t)
    | some epoch =>
      match Instant.ofTimestamp epoch with
      | some expiresAt => (.ok (decide (now < expiresAt)), t.erase key)
      | none =>
        (storeError ("expires_at epoch seconds out of range: " ++ toString epoch), t.erase key)

def singleUse : SingleUseStore (Table String ℤ) := ⟨putSingleUse, takeSingleUse⟩

end Dynamo

/-! ## Valkey -/

namespace Valkey

/-- SOURCE: adapters/src/valkey/mod.rs:22 -/
def singleUseTtlSecondsMin : ℤ := 1

/-- The keys whose deadline has not passed. -/
def aliveAt (now : Instant) (t : Table String Instant) : Table String Instant :=
  t.deleteWhere fun _ deadline => decide (deadline ≤ now)

/-- `SET … NX EX`: the key lives for a number of whole seconds.
SOURCE: adapters/src/valkey/mod.rs:1211-1244 -/
def putSingleUse (now : Instant) (key : String) (expiresAt : Instant) (t : Table String Instant) :
    Answer Bool × Table String Instant :=
  let ttlSeconds := (expiresAt - now).tdiv nanosPerSec
  if key = "" then (.error .panic, t)
  else if ttlSeconds < singleUseTtlSecondsMin then
    (storeError ("refusing to store single-use record with non-future expires_at (ttl_seconds=" ++
      toString ttlSeconds ++ ")"), t)
  else
    match (aliveAt now t).lookup key with
    | some _ => (.ok false, aliveAt now t)
    | none => (.ok true, (aliveAt now t).insert key (now + ttlSeconds * nanosPerSec))

/-- `GETDEL`. SOURCE: adapters/src/valkey/mod.rs:1247-1270 -/
def takeSingleUse (now : Instant) (key : String) (t : Table String Instant) :
    Answer Bool × Table String Instant :=
  if key = "" then (.error .panic, t)
  else (.ok ((aliveAt now t).lookup key).isSome, (aliveAt now t).erase key)

def singleUse : SingleUseStore (Table String Instant) := ⟨putSingleUse, takeSingleUse⟩

end Valkey

end OidcExchange
