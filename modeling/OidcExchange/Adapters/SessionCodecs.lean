import OidcExchange.Adapters.Dynamo
import OidcExchange.Adapters.Sqlite
import OidcExchange.Adapters.Valkey
import OidcExchange.Texts.Decimal

/-!
# Sessions as three stores encode them

The Valkey adapter keeps a session as a hash of texts, the DynamoDB adapter as an item of
attributes and the SQLite adapter as a row of columns. Each writes a session on two paths, when it
is stored and when a rotation installs it, and reads it back field by field; a rotation also writes
a retirement record.

Every call runs alone. Left out: the sets, deadlines and counters of Valkey, the ways in which a
command fails, and what the roster of DynamoDB holds; of its part in a transaction only the
verdict stands here.
-/

set_option autoImplicit false

namespace OidcExchange

open Storage Texts

/-- Reading instants, and writing and reading a place; an error is the text of its message.
SOURCE: `DateTime::parse_from_rfc3339`, `DateTime::from_str`, `serde_json::to_string`,
`serde_json::from_str` -/
structure Readers : Type where
  parseFromRfc3339 : String → Except String Instant
  parse : String → Except String Instant
  toString : SessionLocation → Except String String
  fromStr : String → Except String SessionLocation

/-- The error of another crate, behind a text of the adapter. -/
def mapStoreError {α : Type} (before : String) : Except String α → Answer α
  | .ok a => .ok a
  | .error e => storeError (before ++ e)

/-- SOURCE: `u32::from_str` -/
def parseU32 (text : String) : Except String UInt32 :=
  (parseBounded (2 ^ 32) text.toList).map UInt32.ofNat

/-- A number, or the default where none is stored. -/
def parseGeneration (before : String) : Option String → Answer UInt32
  | none => .ok 0
  | some text => mapStoreError before (parseU32 text)

/-- What may be missing is converted when it is there. -/
def readOptional {α β : Type} (read : α → Answer β) : Option α → Answer (Option β)
  | none => .ok none
  | some a => (read a).map some

/-- The place of a session as JSON, if it has one. -/
def Readers.locationText (R : Readers) (session : Session) : Answer (Option String) :=
  readOptional (fun l => mapStoreError "failed to encode session location: " (R.toString l))
    session.location

/-- The record a rotation writes for the live session it replaces; a session without a family
leaves none. -/
def recordFor (reuseRetentionSecs : UInt64) (now : Instant) (liveHash : String)
    (live replacement : Session) : Answer (Option RetiredRefreshToken) :=
  if live.familyId = "" then .ok none
  else
    match World.retirementRecord liveHash live replacement reuseRetentionSecs now with
    | none => .error .panic
    | some record => .ok (some record)

/-! ## Valkey -/

namespace Valkey

/-- The fields of a hash. -/
abbrev Fields : Type := Table String String

/-- The keys that hold hashes. -/
abbrev Hashes : Type := Table String Fields

/-- SOURCE: adapters/src/valkey/mod.rs:121-130 -/
structure Repository : Type where
  readers : Readers
  keyPrefix : String
  reuseRetentionSecs : UInt64

/-- `HSET` of pairs one after another. -/
def Fields.set (fields : Fields) (pairs : List (String × String)) : Fields :=
  pairs.foldl (fun fields pair => fields.insert pair.1 pair.2) fields

/-- `HGETALL`; a key that does not exist has no fields. -/
def Hashes.getAll (ks : Hashes) (key : String) : Fields := (ks.lookup key).getD ∅

def Hashes.set (ks : Hashes) (key : String) (pairs : List (String × String)) : Hashes :=
  ks.insert key ((ks.getAll key).set pairs)

/-- A field that must be there. -/
def Fields.getField (values : Fields) (missing name : String) : Answer String :=
  match values.lookup name with
  | some text => .ok text
  | none => storeError (missing ++ name)

/-- A field whose empty text stands for no value. -/
def Fields.getPresent (values : Fields) (name : String) : Option String :=
  (values.lookup name).filter fun text => !text.isEmpty

variable (repo : Repository)

/-- SOURCE: adapters/src/valkey/mod.rs:152-158 -/
def Repository.sessionKey (tokenHash : String) : String := repo.keyPrefix ++ "session:" ++ tokenHash

def Repository.retiredKey (tokenHash : String) : String := repo.keyPrefix ++ "retired:" ++ tokenHash

/-- The pairs of a session, in the order of both paths.
SOURCE: adapters/src/valkey/mod.rs:106-119, 293-319, 602-633 -/
def Repository.fieldsOf (session : Session) : Answer (List (String × String)) := do
  let location ← repo.readers.locationText session
  return [("user_id", session.userId), ("refresh_token_hash", session.refreshTokenHash),
    ("family_id", session.familyId), ("generation", session.generation.toNat.repr),
    ("provider", session.provider), ("rotated_at", (session.rotatedAt.map rfc3339).getD ""),
    ("expires_at", rfc3339 session.expiresAt), ("device_id", session.deviceId.getD ""),
    ("user_agent", session.userAgent.getD ""), ("ip_address", session.ipAddress.getD ""),
    ("location", location.getD ""), ("created_at", rfc3339 session.createdAt)]

/-- The instant of a text. -/
def Repository.parseDt (before text : String) : Answer Instant :=
  mapStoreError before (repo.readers.parseFromRfc3339 text)

/-- SOURCE: adapters/src/valkey/mod.rs:419-505 -/
def Repository.sessionOf (values : Fields) : Answer Session := do
  let missing := "missing field: "
  let expiresAtText ← values.getField missing "expires_at"
  let createdAtText ← values.getField missing "created_at"
  let generation ← parseGeneration "invalid generation field: " (values.lookup "generation")
  let rotatedAt ← readOptional (repo.parseDt "invalid rotated_at field: ")
    (values.getPresent "rotated_at")
  let userId ← values.getField missing "user_id"
  let refreshTokenHash ← values.getField missing "refresh_token_hash"
  let provider ← values.getField missing "provider"
  let expiresAt ← repo.parseDt "" expiresAtText
  let location ← readOptional
    (fun json => mapStoreError "invalid location field: " (repo.readers.fromStr json))
    (values.getPresent "location")
  let createdAt ← repo.parseDt "" createdAtText
  return {
    userId := userId
    refreshTokenHash := refreshTokenHash
    familyId := (values.lookup "family_id").getD ""
    generation := generation
    provider := provider
    expiresAt := expiresAt
    rotatedAt := rotatedAt
    deviceId := values.getPresent "device_id"
    userAgent := values.getPresent "user_agent"
    ipAddress := values.getPresent "ip_address"
    location := location
    createdAt := createdAt }

/-- SOURCE: adapters/src/valkey/mod.rs:400-506 -/
def Repository.getSession (ks : Hashes) (tokenHash : String) : Answer (Option Session) :=
  let values := ks.getAll (repo.sessionKey tokenHash)
  if values.entries.isEmpty then .ok none else (repo.sessionOf values).map some

def Repository.retiredOf (tokenHash : String) (values : Fields) : Answer RetiredRefreshToken := do
  let missing := "retired record is missing field: "
  let familyId ← values.getField missing "family_id"
  let userId ← values.getField missing "user_id"
  let successorHash ← values.getField missing "successor_hash"
  let retiredAtText ← values.getField missing "retired_at"
  let retiredAt ← repo.parseDt "invalid retired_at in retired record: " retiredAtText
  let expiresAtText ← values.getField missing "expires_at"
  let expiresAt ← repo.parseDt "invalid expires_at in retired record: " expiresAtText
  return {
    refreshTokenHash := tokenHash
    familyId := familyId
    userId := userId
    successorHash := successorHash
    retiredAt := retiredAt
    expiresAt := expiresAt }

/-- SOURCE: adapters/src/valkey/mod.rs:208-250 -/
def Repository.getRetired (ks : Hashes) (tokenHash : String) :
    Answer (Option RetiredRefreshToken) :=
  let values := ks.getAll (repo.retiredKey tokenHash)
  if values.entries.isEmpty then .ok none else (repo.retiredOf tokenHash values).map some

/-- SOURCE: adapters/src/valkey/mod.rs:264-383 -/
def Repository.storeRefreshToken (now : Instant) (session : Session) (ks : Hashes) :
    Answer Unit × Hashes :=
  let ttlSeconds := numSeconds now session.expiresAt
  if ttlSeconds < sessionTtlSecondsMin then
    (storeError
      s!"refusing to store session with non-future expires_at (ttl_seconds={ttlSeconds})", ks)
  else if session.familyId ≠ "" ∧ isValidFamilyId session.familyId = false then (.error .panic, ks)
  else
    match repo.fieldsOf session with
    | .error e => (.error e, ks)
    | .ok pairs => (.ok (), ks.set (repo.sessionKey session.refreshTokenHash) pairs)

/-- What the script reads from its arguments; the pairs are those from the ninth on. -/
structure ScriptArgs : Type where
  liveKey : String
  retiredKey : String
  replacementKey : String
  replacementHash : String
  userId : String
  retiredAt : String
  expiresAt : String
  pairs : List (String × String)

/-- The script's effect on hashes. SOURCE: adapters/src/valkey/mod.rs:58-104 -/
def Hashes.rotationScript (ks : Hashes) (a : ScriptArgs) : Answer ℤ × Hashes :=
  match ks.lookup a.liveKey with
  | none => (.ok 0, ks)
  | some live =>
    if live.lookup "user_id" ≠ some a.userId then
      (storeError "rotate_refresh_token: live row belongs to a different user", ks)
    else if (ks.lookup a.replacementKey).isSome then (.ok (-1), ks)
    else
      let installed := Hashes.set (ks.erase a.liveKey) a.replacementKey a.pairs
      match live.getPresent "family_id" with
      | none => (.ok 1, installed)
      | some liveFamily =>
        (.ok 1, installed.set a.retiredKey
          [("user_id", a.userId), ("family_id", liveFamily),
            ("successor_hash", a.replacementHash), ("retired_at", a.retiredAt),
            ("expires_at", a.expiresAt)])

/-- What the adapter makes of the script's outcome. -/
def rotationOutcome : Answer ℤ → Answer Bool
  | .error e => .error e
  | .ok 0 => .ok false
  | .ok 1 => .ok true
  | .ok (-1) => storeError "rotate_refresh_token: proposed replacement already exists in the store"
  | .ok _ => .error .panic

/-- `start` is the reading of the clock that the time to live is counted from.
SOURCE: adapters/src/valkey/mod.rs:556-661 -/
def Repository.rotateRefreshToken (start now : Instant) (liveHash : String)
    (replacement : Session) (ks : Hashes) : Answer Bool × Hashes :=
  let ttlSeconds := numSeconds start replacement.expiresAt
  if isValidFamilyId replacement.familyId = false ∨ liveHash = replacement.refreshTokenHash then
    (.error .panic, ks)
  else if ttlSeconds < sessionTtlSecondsMin then
    (storeError (s!"refusing to rotate to a session with non-future expires_at " ++
      s!"(ttl_seconds={ttlSeconds})"), ks)
  else
    match World.retentionDeadline now repo.reuseRetentionSecs replacement.expiresAt with
    | none => (.error .panic, ks)
    | some deadline =>
      match repo.fieldsOf replacement with
      | .error e => (.error e, ks)
      | .ok pairs =>
        let done := ks.rotationScript
          { liveKey := repo.sessionKey liveHash
            retiredKey := repo.retiredKey liveHash
            replacementKey := repo.sessionKey replacement.refreshTokenHash
            replacementHash := replacement.refreshTokenHash
            userId := replacement.userId
            retiredAt := rfc3339 now
            expiresAt := rfc3339 deadline
            pairs := pairs }
        (rotationOutcome done.1, done.2)

end Valkey

/-! ## DynamoDB -/

namespace Dynamo

/-- The value of an attribute. -/
inductive Attribute : Type
  | s (text : String)
  | n (digits : String)
  | m (fields : List (String × Attribute))

/-- The attributes of an item, or of a map in it; the first of a name counts. -/
abbrev Attributes : Type := List (String × Attribute)

/-- The items under their partition and sort keys. -/
abbrev Items : Type := Table (String × String) Attributes

/-- An attribute that is there when it has a value. -/
def optional (name : String) (value : Option Attribute) : Attributes :=
  value.toList.map fun a => (name, a)

def sessionPk (tokenHash : String) : String := "SESSION#" ++ tokenHash

def retiredPk (tokenHash : String) : String := "RETIRED#" ++ tokenHash

def sessionSk : String := "SESSION"

/-- SOURCE: adapters/src/dynamo/schema.rs:296 -/
def retiredSk : String := "RETIRED"

def userItemKey (userId : String) : String × String := ("USER#" ++ userId, "USER")

/-- SOURCE: adapters/src/dynamo/schema.rs:215-230 -/
def locationAttribute (location : SessionLocation) : Attribute :=
  .m (optional "city" (location.city.map .s) ++ optional "region" (location.region.map .s) ++
    optional "country" (location.country.map .s))

/-- SOURCE: adapters/src/dynamo/schema.rs:137-239 -/
def sessionToItem (session : Session) : Attributes :=
  [("pk", .s (sessionPk session.refreshTokenHash)), ("sk", .s sessionSk),
    ("GSI1pk", .s ("USER#" ++ session.userId)),
    ("GSI1sk", .s ("FAM#" ++ session.familyId ++ "#SESSION#" ++ rfc3339 session.createdAt)),
    ("user_id", .s session.userId), ("refresh_token_hash", .s session.refreshTokenHash),
    ("family_id", .s session.familyId), ("generation", .n session.generation.toNat.repr),
    ("provider", .s session.provider), ("expires_at", .s (rfc3339 session.expiresAt)),
    ("created_at", .s (rfc3339 session.createdAt))] ++
  optional "rotated_at" ((session.rotatedAt.map rfc3339).map .s) ++
  optional "device_id" (session.deviceId.map .s) ++
  optional "user_agent" (session.userAgent.map .s) ++
  optional "ip_address" (session.ipAddress.map .s) ++
  optional "location" (session.location.map locationAttribute) ++
  [("ttl", .n (toString session.expiresAt.timestamp))]

/-- SOURCE: adapters/src/dynamo/schema.rs:435-439 -/
def getSOpt (item : Attributes) (name : String) : Option String :=
  match item.lookup name with
  | some (.s text) => some text
  | _ => none

/-- SOURCE: adapters/src/dynamo/schema.rs:426-433 -/
def getS (item : Attributes) (name : String) : Answer String :=
  match getSOpt item name with
  | some text => .ok text
  | none => storeError ("missing or invalid attribute: " ++ name)

/-- SOURCE: adapters/src/dynamo/schema.rs:458-475 -/
def getGenerationOrDefault (item : Attributes) : Answer UInt32 :=
  match item.lookup "generation" with
  | none => .ok 0
  | some (.n digits) => mapStoreError "invalid generation: " (parseU32 digits)
  | some _ => storeError "invalid attribute: generation"

def getLocation (item : Attributes) : Answer (Option SessionLocation) :=
  match item.lookup "location" with
  | none => .ok none
  | some (.m fields) =>
    .ok (some ⟨getSOpt fields "city", getSOpt fields "region", getSOpt fields "country"⟩)
  | some _ => storeError "session item attribute location is not a map"

/-- SOURCE: adapters/src/dynamo/schema.rs:603-607 -/
def parseDatetime (R : Readers) (text : String) : Answer Instant :=
  mapStoreError "invalid datetime: " (R.parse text)

/-- SOURCE: adapters/src/dynamo/schema.rs:241-288 -/
def itemToSession (R : Readers) (item : Attributes) : Answer Session := do
  let rotatedAt ← readOptional (parseDatetime R) (getSOpt item "rotated_at")
  let userId ← getS item "user_id"
  let refreshTokenHash ← getS item "refresh_token_hash"
  let generation ← getGenerationOrDefault item
  let provider ← getS item "provider"
  let expiresAtText ← getS item "expires_at"
  let expiresAt ← parseDatetime R expiresAtText
  let location ← getLocation item
  let createdAtText ← getS item "created_at"
  let createdAt ← parseDatetime R createdAtText
  return {
    userId := userId
    refreshTokenHash := refreshTokenHash
    familyId := (getSOpt item "family_id").getD ""
    generation := generation
    provider := provider
    expiresAt := expiresAt
    rotatedAt := rotatedAt
    deviceId := getSOpt item "device_id"
    userAgent := getSOpt item "user_agent"
    ipAddress := getSOpt item "ip_address"
    location := location
    createdAt := createdAt }

/-- SOURCE: adapters/src/dynamo/schema.rs:302-351 -/
def retiredToItem (record : RetiredRefreshToken) : Attributes :=
  [("pk", .s (retiredPk record.refreshTokenHash)), ("sk", .s retiredSk),
    ("GSI1pk", .s ("USER#" ++ record.userId)),
    ("GSI1sk", .s ("FAM#" ++ record.familyId ++ "#RETIRED#" ++ rfc3339 record.retiredAt)),
    ("refresh_token_hash", .s record.refreshTokenHash), ("family_id", .s record.familyId),
    ("user_id", .s record.userId), ("successor_hash", .s record.successorHash),
    ("retired_at", .s (rfc3339 record.retiredAt)), ("expires_at", .s (rfc3339 record.expiresAt)),
    ("ttl", .n (toString record.expiresAt.timestamp))]

/-- SOURCE: adapters/src/dynamo/schema.rs:357-366 -/
def itemToRetired (R : Readers) (item : Attributes) : Answer RetiredRefreshToken := do
  let refreshTokenHash ← getS item "refresh_token_hash"
  let familyId ← getS item "family_id"
  let userId ← getS item "user_id"
  let successorHash ← getS item "successor_hash"
  let retiredAtText ← getS item "retired_at"
  let retiredAt ← parseDatetime R retiredAtText
  let expiresAtText ← getS item "expires_at"
  let expiresAt ← parseDatetime R expiresAtText
  return {
    refreshTokenHash := refreshTokenHash
    familyId := familyId
    userId := userId
    successorHash := successorHash
    retiredAt := retiredAt
    expiresAt := expiresAt }

/-- SOURCE: adapters/src/dynamo/mod.rs:449-468 -/
def Items.getSession (R : Readers) (items : Items) (tokenHash : String) : Answer (Option Session) :=
  readOptional (itemToSession R) (items.lookup (sessionPk tokenHash, sessionSk))

/-- SOURCE: adapters/src/dynamo/mod.rs:470-488 -/
def Items.getRetired (R : Readers) (items : Items) (tokenHash : String) :
    Answer (Option RetiredRefreshToken) :=
  readOptional (itemToRetired R) (items.lookup (retiredPk tokenHash, retiredSk))

/-- What the roster makes of the item of a user: the item it leaves, or why it refuses. -/
abbrev Roster : Type := Option Attributes → Answer Attributes

/-- `Put` under the condition `attribute_not_exists(pk)`. -/
def Items.putNew (items : Items) (key : String × String) (item : Attributes) : Answer Items :=
  if (items.lookup key).isSome then .error cancelled else .ok (items.insert key item)

/-- The part of the roster in a transaction. SOURCE: adapters/src/dynamo/mod.rs:519-542 -/
def Items.updateUser (items : Items) (roster : Roster) (userId : String) : Answer Items :=
  (roster (items.lookup (userItemKey userId))).map (items.insert (userItemKey userId))

/-- SOURCE: adapters/src/dynamo/mod.rs:1470-1523 -/
def Items.storeRefreshToken (roster : Roster) (session : Session) (items : Items) :
    Answer Unit × Items :=
  if isValidFamilyId session.familyId = false ∨ session.refreshTokenHash = "" then
    (.error .panic, items)
  else
    let committed := do
      let items ← items.putNew (sessionPk session.refreshTokenHash, sessionSk)
        (sessionToItem session)
      items.updateUser roster session.userId
    match committed with
    | .ok items' => (.ok (), items')
    | .error e => (.error e, items)

/-- The transaction of a rotation. SOURCE: adapters/src/dynamo/mod.rs:1640-1749 -/
def Items.swap (items : Items) (roster : Roster) (liveHash : String) (replacement : Session)
    (record : Option RetiredRefreshToken) : Answer Items := do
  let items ← Items.putNew (items.erase (sessionPk liveHash, sessionSk))
    (sessionPk replacement.refreshTokenHash, sessionSk) (sessionToItem replacement)
  let items ← match record with
    | none => .ok items
    | some record =>
      items.putNew (retiredPk record.refreshTokenHash, retiredSk) (retiredToItem record)
  items.updateUser roster replacement.userId

/-- SOURCE: adapters/src/dynamo/mod.rs:1591-1758 -/
def Items.rotateRefreshToken (R : Readers) (roster : Roster) (reuseRetentionSecs : UInt64)
    (now : Instant) (liveHash : String) (replacement : Session) (items : Items) :
    Answer Bool × Items :=
  if isValidFamilyId replacement.familyId = false ∨ liveHash = replacement.refreshTokenHash then
    (.error .panic, items)
  else
    match items.getSession R liveHash with
    | .error e => (.error e, items)
    | .ok none => (.ok false, items)
    | .ok (some live) =>
      if (live.familyId ≠ "" ∧ live.familyId ≠ replacement.familyId) ∨
          live.userId ≠ replacement.userId then
        (.error .panic, items)
      else
        match recordFor reuseRetentionSecs now liveHash live replacement >>=
            items.swap roster liveHash replacement with
        | .ok items' => (.ok true, items')
        | .error e => (.error e, items)

end Dynamo

/-! ## SQLite -/

namespace Sqlite

/-- A row of the sessions. SOURCE: adapters/src/sqlite/mod.rs:47-60 -/
structure SessionRow : Type where
  refreshTokenHash : String
  userId : String
  familyId : Option String
  generation : ℤ
  provider : String
  expiresAt : String
  rotatedAt : Option String
  deviceId : Option String
  userAgent : Option String
  ipAddress : Option String
  location : Option String
  createdAt : String

/-- A row of the retirement records. SOURCE: adapters/src/sqlite/mod.rs:64-71 -/
structure RetiredRow : Type where
  refreshTokenHash : String
  familyId : String
  userId : String
  successorHash : String
  retiredAt : String
  expiresAt : String

structure Rows : Type where
  sessions : Table String SessionRow
  retired : Table String RetiredRow

variable (R : Readers)

/-- SOURCE: adapters/src/sqlite/mod.rs:379-386 -/
def parseRfc3339 (field text : String) : Answer Instant :=
  mapStoreError ("failed to parse " ++ field ++ ": ") (R.parse text)

/-- SOURCE: adapters/src/sqlite/mod.rs:323-377 -/
def rowToSession (row : SessionRow) : Answer Session := do
  let expiresAt ← parseRfc3339 R "expires_at" row.expiresAt
  let createdAt ← parseRfc3339 R "created_at" row.createdAt
  let rotatedAt ← readOptional (parseRfc3339 R "rotated_at") row.rotatedAt
  let location ← readOptional
    (fun json => mapStoreError "failed to parse session location: " (R.fromStr json)) row.location
  return {
    userId := row.userId
    refreshTokenHash := row.refreshTokenHash
    familyId := row.familyId.getD ""
    generation := UInt32.ofInt row.generation
    provider := row.provider
    expiresAt := expiresAt
    rotatedAt := rotatedAt
    deviceId := row.deviceId
    userAgent := row.userAgent
    ipAddress := row.ipAddress
    location := location
    createdAt := createdAt }

/-- SOURCE: adapters/src/sqlite/mod.rs:388-403 -/
def rowToRetired (row : RetiredRow) : Answer RetiredRefreshToken := do
  let retiredAt ← parseRfc3339 R "retired_at" row.retiredAt
  let expiresAt ← parseRfc3339 R "expires_at" row.expiresAt
  return {
    refreshTokenHash := row.refreshTokenHash
    familyId := row.familyId
    userId := row.userId
    successorHash := row.successorHash
    retiredAt := retiredAt
    expiresAt := expiresAt }

/-- The columns both paths bind. SOURCE: adapters/src/sqlite/mod.rs:441-479 -/
def sessionRow (session : Session) : Answer SessionRow := do
  let location ← R.locationText session
  return {
    refreshTokenHash := session.refreshTokenHash
    userId := session.userId
    familyId := some session.familyId
    generation := session.generation.toNat
    provider := session.provider
    expiresAt := rfc3339 session.expiresAt
    rotatedAt := session.rotatedAt.map rfc3339
    deviceId := session.deviceId
    userAgent := session.userAgent
    ipAddress := session.ipAddress
    location := location
    createdAt := rfc3339 session.createdAt }

def retiredRow (record : RetiredRefreshToken) : RetiredRow where
  refreshTokenHash := record.refreshTokenHash
  familyId := record.familyId
  userId := record.userId
  successorHash := record.successorHash
  retiredAt := rfc3339 record.retiredAt
  expiresAt := rfc3339 record.expiresAt

namespace Rows

variable (rows : Rows)

/-- SOURCE: adapters/src/sqlite/mod.rs:789-806 -/
def getSession (tokenHash : String) : Answer (Option Session) :=
  readOptional (rowToSession R) (rows.sessions.lookup tokenHash)

def getRetired (tokenHash : String) : Answer (Option RetiredRefreshToken) :=
  readOptional (rowToRetired R) (rows.retired.lookup tokenHash)

/-- SOURCE: adapters/src/sqlite/mod.rs:781-785 -/
def storeRefreshToken (session : Session) : Answer Unit × Rows :=
  match sessionRow R session with
  | .error e => (.error e, rows)
  | .ok row =>
    (.ok (), { rows with sessions := rows.sessions.insert session.refreshTokenHash row })

/-- `INSERT INTO sessions` -/
def insertSession (session : Session) : Answer Rows := do
  let row ← sessionRow R session
  if (rows.sessions.lookup session.refreshTokenHash).isSome then
    .error (uniqueViolation "sessions")
  else .ok { rows with sessions := rows.sessions.insert session.refreshTokenHash row }

/-- `INSERT INTO retired_refresh_tokens` -/
def insertRetired (record : RetiredRefreshToken) : Answer Rows :=
  if (rows.retired.lookup record.refreshTokenHash).isSome then
    .error (uniqueViolation "retired_refresh_tokens")
  else
    .ok { rows with retired := rows.retired.insert record.refreshTokenHash (retiredRow record) }

/-- The statements of a rotation. SOURCE: adapters/src/sqlite/mod.rs:896-946 -/
def swap (liveHash : String) (replacement : Session) (record : Option RetiredRefreshToken) :
    Answer Rows := do
  let rows := { rows with sessions := rows.sessions.erase liveHash }
  let rows ← match record with
    | none => .ok rows
    | some record => insertRetired rows record
  insertSession R rows replacement

/-- SOURCE: adapters/src/sqlite/mod.rs:848-947 -/
def rotateRefreshToken (reuseRetentionSecs : UInt64) (now : Instant) (liveHash : String)
    (replacement : Session) : Answer Bool × Rows :=
  if liveHash = replacement.refreshTokenHash ∨ isValidFamilyId replacement.familyId = false then
    (.error .panic, rows)
  else
    match rows.getSession R liveHash with
    | .error e => (.error e, rows)
    | .ok none => (.ok false, rows)
    | .ok (some live) =>
      if (live.familyId ≠ "" ∧ live.familyId ≠ replacement.familyId) ∨
          live.userId ≠ replacement.userId then
        (.error .panic, rows)
      else
        match recordFor reuseRetentionSecs now liveHash live replacement >>=
            rows.swap R liveHash replacement with
        | .ok rows' => (.ok true, rows')
        | .error e => (.error e, rows)

end Rows

end Sqlite

end OidcExchange
