import OidcExchange.Analysis.LmdbCleanup
import OidcExchange.Storage.Table

/-!
# LMDB and SQLite answer alike

After every history of calls the tables of LMDB and the rows of SQLite hold the same sessions and
retirement records, and the same single-use records but for those that were burned after their
expiry: LMDB deletes such a record at once and SQLite leaves it to the next cleanup, which counts
it. All other answers are the same.
-/

set_option autoImplicit false

namespace OidcExchange

open Storage Interleaving

/-! ## The calls -/

/-- The readings of the clock are never a stored expiry. -/
structure Apart (env : Lmdb.Env) (now : Instant) : Prop where
  session : ∀ h s, env.tables.sessions.lookup h = some s → s.expiresAt ≠ now
  retired : ∀ h r, env.tables.retiredTokens.lookup h = some r → r.expiresAt ≠ now
  singleUse : ∀ k e, env.singleUse.lookup k = some e → e ≠ now

/-- Nothing is stored. -/
theorem Apart.empty (clock now : Instant) : Apart (Lmdb.Env.empty clock) now := by
  constructor <;> simp [Lmdb.Env.empty, Lmdb.Tables.empty]

/-- A session of a well-formed family under a fresh hash: no store holds the hash, live or retired
or as a successor. Identifiers are minted: none has the separator of composite keys. -/
structure FreshSession (t : Lmdb.Tables) (s : Session) : Prop where
  user : ':' ∉ s.userId.toList
  hash : ':' ∉ s.refreshTokenHash.toList
  nonempty : s.refreshTokenHash ≠ ""
  family : isValidFamilyId s.familyId = true
  notLive : t.sessions.lookup s.refreshTokenHash = none
  notRetired : t.retiredTokens.lookup s.refreshTokenHash = none
  notSuccessor : ∀ h r, t.retiredTokens.lookup h = some r → r.successorHash ≠ s.refreshTokenHash
  expiry : FourDigitYear s.expiresAt
  created : FourDigitYear s.createdAt

/-- The replacement has the family and the user of the live session, and the deadline of the
retirement record can be represented. -/
structure Replaces (secs : UInt64) (now : Instant) (live replacement : Session) : Prop where
  family : live.familyId = replacement.familyId
  user : live.userId = replacement.userId
  deadline : ∃ deadline, World.retentionDeadline now secs replacement.expiresAt = some deadline ∧
    FourDigitYear deadline

/-- The call is one the port is made for. -/
def WellFormed (secs : UInt64) (t : Lmdb.Tables) (now : Instant) : SessionCall → Prop
  | .storeRefreshToken s => FreshSession t s
  | .rotateRefreshToken h r => h ≠ "" ∧ FreshSession t r ∧
      ∀ live, t.sessions.lookup h = some live → Replaces secs now live r
  | .revokeSession h => h ≠ ""
  | .listLiveSessions u at' limit => FourDigitYear at' ∧
      t.sessions.countWhere (fun _ s => s.userId == u && at' < s.expiresAt) ≤ limit
  | .putSingleUse _ e => FourDigitYear e
  | .resolveRefreshToken _ | .revokeFamily _ | .revokeAllUserSessions _ | .takeSingleUse _
  | .cleanupExpiredSessions => True

/-! ## Burns that come late -/

/-- The keys whose record LMDB has deleted at a burn after its expiry, unless they were claimed or
a cleanup was made since. -/
def lateAfter (i : TimedCall) (env : Lmdb.Env) (late : List String) : List String :=
  match i.call with
  | .putSingleUse key _ => late.erase key
  | .takeSingleUse key =>
    match env.singleUse.lookup key with
    | some expiresAt => if expiresAt ≤ i.now then key :: late else late
    | none => late
  | .cleanupExpiredSessions => []
  | _ => late

/-- The store of LMDB and its late burns. -/
abbrev Tallied : Type := Lmdb.Env × List String

/-- LMDB with a tally of its late burns. -/
def Lmdb.tallied (secs : UInt64) : Server TimedCall (Answer SessionResult) Tallied :=
  fun i a => (Lmdb.server secs i a.1).map fun r => (r.1, r.2, lateAfter i a.1 a.2)

theorem Lmdb.tallied_of_answer {secs : UInt64} {i : TimedCall} {env env' : Env} {late : List String}
    {x : Answer SessionResult}
    (h : answer secs i.call { env with clock := i.now } = some (x, env')) :
    tallied secs i (env, late) = some (x, env', lateAfter i env late) :=
  congrArg (Option.map _) h

/-- The clock does not go back and is never a stored expiry, and the call is well formed. -/
structure AdmittedCall (secs : UInt64) (_past : List TimedCall) (a : Tallied) (_db : Sqlite.Database)
    (i : TimedCall) : Prop where
  later : a.1.clock ≤ i.now
  year : FourDigitYear i.now
  apart : Apart a.1 i.now
  wellFormed : WellFormed secs a.1.tables i.now i.call

/-- The answers are the same, but for the order of sessions created at the same time and the late
burns that a cleanup of SQLite counts. -/
def Alike (a : Tallied) (_db : Sqlite.Database) (i : TimedCall) (x y : Answer SessionResult) :
    Prop :=
  match i.call with
  | .listLiveSessions .. => ∃ l l', x = .ok (.listed l) ∧ y = .ok (.listed l') ∧ l.Perm l' ∧
      l.map Session.createdAt = l'.map Session.createdAt
  | .cleanupExpiredSessions => ∃ n, x = .ok (.count n) ∧ y = .ok (.count (n + a.2.length))
  | _ => x = y

/-! ## What the two stores have in common -/

/-- The sessions and retirement records are the same, the successor of a record is in its family,
and every instant has a year of four digits. -/
structure SameSessions (t : Lmdb.Tables) (db : Sqlite.Database) : Prop where
  agrees : t.Agrees
  sessions : t.sessions.Same db.sessions
  retired : t.retiredTokens.Same db.retired
  lineage : ∀ h r s, t.retiredTokens.lookup h = some r →
    t.sessions.lookup r.successorHash = some s → s.familyId = r.familyId
  sessionYears : ∀ h s, t.sessions.lookup h = some s →
    FourDigitYear s.expiresAt ∧ FourDigitYear s.createdAt
  retiredYears : ∀ h r, t.retiredTokens.lookup h = some r → FourDigitYear r.expiresAt

/-- The single-use records are the same but for the late burns, which SQLite still holds. -/
structure SameRecords (now : Instant) (late : List String) (t : Table String Instant)
    (t' : Table String String) : Prop where
  nodup : late.Nodup
  nonempty : t'.lookup "" = none
  years : ∀ k e, t.lookup k = some e → FourDigitYear e
  held : ∀ k, k ∉ late → t'.lookup k = (t.lookup k).map rfc3339
  burned : ∀ k ∈ late, t.lookup k = none ∧
    ∃ e : Instant, t'.lookup k = some (rfc3339 e) ∧ FourDigitYear e ∧ e < now

/-- What holds of the two stores after every history. -/
structure InStep (_past : List TimedCall) (a : Tallied) (db : Sqlite.Database) : Prop where
  sessions : SameSessions a.1.tables db
  records : SameRecords a.1.clock a.2 a.1.singleUse db.singleUse

theorem inStep_start (clock : Instant) :
    InStep [] (Lmdb.Env.empty clock, []) Sqlite.Database.empty := by
  refine ⟨⟨Lmdb.Tables.agrees_empty, fun _ => rfl, fun _ => rfl, ?_, ?_, ?_⟩,
    ⟨List.nodup_nil, rfl, ?_, fun _ _ => rfl, ?_⟩⟩
  all_goals simp [Lmdb.Env.empty, Lmdb.Tables.empty]

/-! ## Sessions and retirement records -/

theorem FreshSession.fileable {t : Lmdb.Tables} {s : Session} (h : FreshSession t s) :
    Lmdb.Fileable s := ⟨h.user, h.hash, .inr h.family⟩

namespace SameSessions

variable {t t' : Lmdb.Tables} {db db' : Sqlite.Database} {s : Session} {r : RetiredRefreshToken}
  {h : String}

/-- Where sessions and records only go, what is left is as it was. -/
theorem shrink (hsame : SameSessions t db) (hagrees : t'.Agrees)
    (hsessions : t'.sessions.Same db'.sessions) (hretired : t'.retiredTokens.Same db'.retired)
    (hs : ∀ h s, t'.sessions.lookup h = some s → t.sessions.lookup h = some s)
    (hr : ∀ h r, t'.retiredTokens.lookup h = some r → t.retiredTokens.lookup h = some r) :
    SameSessions t' db' where
  agrees := hagrees
  sessions := hsessions
  retired := hretired
  lineage h r s hlookup hsuccessor :=
    hsame.lineage h r s (hr h r hlookup) (hs r.successorHash s hsuccessor)
  sessionYears h s hlookup := hsame.sessionYears h s (hs h s hlookup)
  retiredYears h r hlookup := hsame.retiredYears h r (hr h r hlookup)

/-- Single-use records are kept apart. -/
theorem withRecords (hsame : SameSessions t db) (records : Table String String) :
    SameSessions t { db with singleUse := records } :=
  hsame.shrink hsame.agrees hsame.sessions hsame.retired (fun _ _ => id) fun _ _ => id

/-- A session under a hash that is neither live nor retired is installed in both. -/
theorem install (hsame : SameSessions t db) (hs : Lmdb.Fileable s)
    (hlive : t.sessions.lookup s.refreshTokenHash = none)
    (hretired : t.retiredTokens.lookup s.refreshTokenHash = none)
    (hfamily : ∀ h r, t.retiredTokens.lookup h = some r →
      r.successorHash = s.refreshTokenHash → s.familyId = r.familyId)
    (hyears : FourDigitYear s.expiresAt ∧ FourDigitYear s.createdAt) :
    SameSessions (t.installLiveEntry s)
      { db with sessions := db.sessions.insert s.refreshTokenHash s } := by
  have hadded : ∀ {h' s'}, (t.sessions.insert s.refreshTokenHash s).lookup h' = some s' →
      (h' = s.refreshTokenHash ∧ s' = s) ∨ t.sessions.lookup h' = some s' := by
    intro h' s' hlookup
    rw [Table.lookup_insert_ite] at hlookup
    by_cases heq : h' = s.refreshTokenHash
    · rw [if_pos heq] at hlookup
      exact .inl ⟨heq, (Option.some.inj hlookup).symm⟩
    · rw [if_neg heq] at hlookup
      exact .inr hlookup
  constructor
  · exact hsame.agrees.installLive hs hlive hretired
  · exact hsame.sessions.insert _ _
  · exact hsame.retired
  · intro h r s' hlookup hsuccessor
    rcases hadded hsuccessor with ⟨heq, rfl⟩ | hold
    · exact hfamily h r hlookup heq
    · exact hsame.lineage h r s' hlookup hold
  · intro h s' hlookup
    rcases hadded hlookup with ⟨-, rfl⟩ | hold
    · exact hyears
    · exact hsame.sessionYears h s' hold
  · exact hsame.retiredYears

/-- A live session is removed from both. -/
theorem remove (hsame : SameSessions t db) (hlookup : t.sessions.lookup h = some s) :
    SameSessions (t.removeLiveEntry h s) { db with sessions := db.sessions.erase h } := by
  obtain ⟨hhash, hfile⟩ := hsame.agrees.session h s hlookup
  refine hsame.shrink ?_ (hsame.sessions.erase h) hsame.retired ?_ fun _ _ => id
  · exact hsame.agrees.removeLive hfile hhash (.inl hlookup) (hsame.agrees.apart h s hlookup)
  · intro h' s' hleft
    change (t.sessions.erase h).lookup h' = some s' at hleft
    rw [Table.lookup_erase_ite] at hleft
    by_cases heq : h' = h
    · rw [if_pos heq] at hleft
      exact nomatch hleft
    · rwa [if_neg heq] at hleft

/-- The record of a hash that is neither live nor retired is filed in both. -/
theorem file (hsame : SameSessions t db) (hfamily : isValidFamilyId r.familyId = true)
    (hlive : t.sessions.lookup r.refreshTokenHash = none)
    (hretired : t.retiredTokens.lookup r.refreshTokenHash = none)
    (hsuccessor : t.sessions.lookup r.successorHash = none) (hyear : FourDigitYear r.expiresAt) :
    SameSessions (t.fileRetired r)
      { db with retired := db.retired.insert r.refreshTokenHash r } := by
  have hadded : ∀ {h' r'}, (t.retiredTokens.insert r.refreshTokenHash r).lookup h' = some r' →
      r' = r ∨ t.retiredTokens.lookup h' = some r' := by
    intro h' r' hlookup
    rw [Table.lookup_insert_ite] at hlookup
    by_cases heq : h' = r.refreshTokenHash
    · rw [if_pos heq] at hlookup
      exact .inl (Option.some.inj hlookup).symm
    · rw [if_neg heq] at hlookup
      exact .inr hlookup
  constructor
  · exact hsame.agrees.fileRetired hfamily hlive hretired
  · exact hsame.sessions
  · exact hsame.retired.insert _ _
  · intro h r' s hlookup hlive'
    rcases hadded hlookup with rfl | hold
    · exact absurd (hlive'.symm.trans hsuccessor) nofun
    · exact hsame.lineage h r' s hold hlive'
  · exact hsame.sessionYears
  · intro h r' hlookup
    rcases hadded hlookup with rfl | hold
    · exact hyear
    · exact hsame.retiredYears h r' hold

/-! ### The calls -/

variable {secs : UInt64} {now : Instant} {replacement : Session} {f u : String}

theorem store (hsame : SameSessions t db) (hs : FreshSession t s) :
    (db.storeRefreshToken s).1 = .ok () ∧
      SameSessions (t.installLiveEntry s) (db.storeRefreshToken s).2 := by
  refine ⟨rfl, hsame.install hs.fileable hs.notLive hs.notRetired ?_ ⟨hs.expiry, hs.created⟩⟩
  intro h r hlookup heq
  exact absurd heq (hs.notSuccessor h r hlookup)

/-- Both find the same record for a presented hash. -/
theorem resolve (hsame : SameSessions t db) (h : String) :
    t.resolveRefreshToken now h = db.resolveRefreshToken now h := by
  unfold Lmdb.Tables.resolveRefreshToken Sqlite.Database.resolveRefreshToken
  rw [← hsame.sessions h, ← hsame.retired h]
  cases hlive : t.sessions.lookup h with
  | some s => rfl
  | none =>
    cases hretired : t.retiredTokens.lookup h with
    | none => rfl
    | some r =>
      simp only [← hsame.sessions r.successorHash]
      cases hsuccessor : t.sessions.lookup r.successorHash with
      | none => rfl
      | some s =>
        have hfamily := hsame.lineage h r s hretired hsuccessor
        simp only [if_pos hfamily]

/-- A live session is replaced in both, and its record filed. -/
theorem replace (hsame : SameSessions t db) (hlookup : t.sessions.lookup r.refreshTokenHash = some s)
    (hfresh : FreshSession t replacement) (hne : r.refreshTokenHash ≠ replacement.refreshTokenHash)
    (hfamily : replacement.familyId = r.familyId)
    (hsuccessor : r.successorHash = replacement.refreshTokenHash)
    (hyear : FourDigitYear r.expiresAt) :
    SameSessions (((t.removeLiveEntry r.refreshTokenHash s).fileRetired r).installLiveEntry
        replacement)
      { db with
        sessions := (db.sessions.erase r.refreshTokenHash).insert replacement.refreshTokenHash
          replacement
        retired := db.retired.insert r.refreshTokenHash r } := by
  have hgone : (t.sessions.erase r.refreshTokenHash).lookup r.refreshTokenHash = none :=
    AList.lookup_erase _ _
  have habsent : (t.sessions.erase r.refreshTokenHash).lookup replacement.refreshTokenHash =
      none := by
    rw [Table.lookup_erase_ite, hfresh.notLive, ite_self]
  have hunretired : (t.retiredTokens.insert r.refreshTokenHash r).lookup
      replacement.refreshTokenHash = none := by
    rw [Table.lookup_insert_ite, if_neg hne.symm, hfresh.notRetired]
  have hfiled := (hsame.remove hlookup).file (hfamily ▸ hfresh.family) hgone
    (hsame.agrees.apart _ s hlookup) (hsuccessor ▸ habsent) hyear
  refine hfiled.install hfresh.fileable habsent hunretired ?_ ⟨hfresh.expiry, hfresh.created⟩
  -- of all records only the one just filed names the replacement
  intro h r' hr' heq
  change (t.retiredTokens.insert r.refreshTokenHash r).lookup h = some r' at hr'
  rw [Table.lookup_insert_ite] at hr'
  by_cases hh : h = r.refreshTokenHash
  · rw [if_pos hh] at hr'
    obtain rfl := Option.some.inj hr'
    exact hfamily
  · rw [if_neg hh] at hr'
    exact absurd heq (hfresh.notSuccessor h r' hr')

/-- A rotation has the same outcome in both. -/
theorem rotate (hsame : SameSessions t db) (hh : h ≠ "") (hfresh : FreshSession t replacement)
    (hne : h ≠ replacement.refreshTokenHash)
    (hreplaces : ∀ live, t.sessions.lookup h = some live → Replaces secs now live replacement) :
    (t.rotate secs now h replacement).1 = (db.rotateRefreshToken secs now h replacement).1 ∧
      SameSessions (t.rotate secs now h replacement).2
        (db.rotateRefreshToken secs now h replacement).2 ∧
      (db.rotateRefreshToken secs now h replacement).2.singleUse = db.singleUse := by
  have hnonempty : ¬(h = "" ∨ replacement.refreshTokenHash = "") := by
    rintro (heq | heq)
    · exact hh heq
    · exact hfresh.nonempty heq
  have hasserts : ¬(h = replacement.refreshTokenHash ∨
      isValidFamilyId replacement.familyId = false) := by
    rintro (heq | hinvalid)
    · exact hne heq
    · exact absurd (hinvalid.symm.trans hfresh.family) nofun
  unfold Lmdb.Tables.rotate Sqlite.Database.rotateRefreshToken
  rw [if_neg hnonempty, if_neg hasserts, ← hsame.sessions h]
  cases hlookup : t.sessions.lookup h with
  | none => exact ⟨rfl, hsame, rfl⟩
  | some live =>
    obtain ⟨hfamily, huser, deadline, hdeadline, hyear⟩ := hreplaces live hlookup
    obtain ⟨hhash, -⟩ := hsame.agrees.session h live hlookup
    have hvalid : isValidFamilyId live.familyId = true := hfamily ▸ hfresh.family
    have hlive : live.familyId ≠ "" := ne_empty_of_isValidFamilyId hvalid
    let record : RetiredRefreshToken :=
      ⟨h, live.familyId, live.userId, replacement.refreshTokenHash, now, deadline⟩
    have hrecord : World.retirementRecord h live replacement secs now = some record := by
      simp only [World.retirementRecord, hhash, hvalid, hdeadline, and_self, if_true, record]
    have hreplaced := hsame.replace (r := record) hlookup hfresh hne hfamily.symm rfl hyear
    -- the assertions of LMDB hold, and the rows of SQLite are free
    have hchecks : ¬((live.familyId ≠ "" ∧ live.familyId ≠ replacement.familyId) ∨
        live.userId ≠ replacement.userId ∨
        (t.sessions.lookup replacement.refreshTokenHash).isSome = true ∨
        (t.retiredTokens.lookup replacement.refreshTokenHash).isSome = true) := by
      simp [hfamily, huser, hfresh.notLive, hfresh.notRetired]
    have hsame' : ¬((live.familyId ≠ "" ∧ live.familyId ≠ replacement.familyId) ∨
        live.userId ≠ replacement.userId) := by
      simp [hfamily, huser]
    have hinstalled : ({ db with sessions := db.sessions.erase h } :
        Sqlite.Database).installReplacement secs now h live replacement =
        .ok { db with
          sessions := (db.sessions.erase h).insert replacement.refreshTokenHash replacement
          retired := db.retired.insert h record } := by
      have hretired : db.retired.lookup h = none :=
        (hsame.retired h).symm.trans (hsame.agrees.apart h live hlookup)
      have hfree : (db.sessions.erase h).lookup replacement.refreshTokenHash = none := by
        rw [Table.lookup_erase_ite, ← hsame.sessions, hfresh.notLive, ite_self]
      have hinsert : ({ db with sessions := db.sessions.erase h } :
          Sqlite.Database).insertRetired record = .ok { db with
            sessions := db.sessions.erase h
            retired := db.retired.insert h record } := by
        simp only [Sqlite.Database.insertRetired, record, hretired, Option.isSome_none,
          Bool.false_eq_true, if_false]
      simp only [Sqlite.Database.installReplacement, if_neg hlive, hrecord, hinsert]
      show Sqlite.Database.insertSession _ replacement = _
      simp only [Sqlite.Database.insertSession, hfree, Option.isSome_none, Bool.false_eq_true,
        if_false]
    simp only [if_neg hchecks, if_neg hlive, hrecord, if_neg hsame', hinstalled]
    exact ⟨trivial, hreplaced, trivial⟩

/-- The session of a hash goes from both. -/
theorem revokeSession (hsame : SameSessions t db) (h : String) :
    SameSessions (t.revokeSession h) (db.revokeSession h).2 := by
  unfold Lmdb.Tables.revokeSession
  cases hlookup : t.sessions.lookup h with
  | some s => exact hsame.remove hlookup
  | none =>
    refine hsame.shrink hsame.agrees ?_ hsame.retired (fun _ _ => id) fun _ _ => id
    intro h'
    show _ = (db.sessions.erase h).lookup h'
    rw [Table.lookup_erase_ite, hsame.sessions h']
    by_cases heq : h' = h
    · rw [if_pos heq, heq, ← hsame.sessions h, hlookup]
    · rw [if_neg heq]

/-- A family goes from both, and both count alike. -/
theorem revokeFamily (hsame : SameSessions t db) (hf : isValidFamilyId f = true) :
    ∃ n t', t.revokeFamilyWtxn f = .ok (n, t') ∧ (db.revokeFamily f).1 = .ok n ∧
      SameSessions t' (db.revokeFamily f).2 ∧
      (db.revokeFamily f).2.singleUse = db.singleUse := by
  obtain ⟨n, t', hrun, hrevoked⟩ := hsame.agrees.revokeFamily hf
  have hpanics : ¬isValidFamilyId f = false := by simp [hf]
  refine ⟨n, t', hrun, ?_, ?_, by simp only [Sqlite.Database.revokeFamily, if_neg hpanics]⟩
  · simp only [Sqlite.Database.revokeFamily, if_neg hpanics]
    rw [hrevoked.count]
    refine congrArg Except.ok (congrArg₂ (· + ·) ?_ ?_)
    · exact (hsame.sessions.countWhere fun _ s _ => (beq_eq_decide s.familyId f).symm).symm
    · exact (hsame.retired.countWhere fun _ r _ => (beq_eq_decide r.familyId f).symm).symm
  · simp only [Sqlite.Database.revokeFamily, if_neg hpanics]
    refine hsame.shrink hrevoked.agrees (hsame.sessions.deleteWhere ?_)
      (hsame.retired.deleteWhere ?_) (fun h s hs => ((hrevoked.sessions h s).mp hs).1)
      fun h r hr => ((hrevoked.retired h r).mp hr).1
    · intro h s
      rw [hrevoked.sessions, beq_eq_false_iff_ne]
    · intro h r
      rw [hrevoked.retired, beq_eq_false_iff_ne]

/-- What a user has goes from both, and both count the sessions. -/
theorem revokeAll (hsame : SameSessions t db) (hu : u ≠ "") :
    ∃ n t', t.revokeAllWtxn u = .ok (n, t') ∧ (db.revokeAllUserSessions u).1 = .ok n ∧
      SameSessions t' (db.revokeAllUserSessions u).2 ∧
      (db.revokeAllUserSessions u).2.singleUse = db.singleUse := by
  obtain ⟨n, t', hrun, hrevoked⟩ := hsame.agrees.revokeAll u
  refine ⟨n, t', hrun, ?_, ?_, by simp only [Sqlite.Database.revokeAllUserSessions, if_neg hu]⟩
  · simp only [Sqlite.Database.revokeAllUserSessions, if_neg hu]
    rw [hrevoked.count]
    refine congrArg Except.ok ?_
    exact (hsame.sessions.countWhere fun _ s _ => (beq_eq_decide s.userId u).symm).symm
  · simp only [Sqlite.Database.revokeAllUserSessions, if_neg hu]
    refine hsame.shrink hrevoked.agrees (hsame.sessions.deleteWhere ?_)
      (hsame.retired.deleteWhere ?_) (fun h s hs => ((hrevoked.sessions h s).mp hs).1)
      fun h r hr => ((hrevoked.retired h r).mp hr).1
    · intro h s
      rw [hrevoked.sessions, beq_eq_false_iff_ne]
    · intro h r
      rw [hrevoked.retired, beq_eq_false_iff_ne]

/-- Away from the expiry itself both compare it with the clock alike. -/
theorem expired_iff {e : Instant} (he : FourDigitYear e) (hnow : FourDigitYear now)
    (hne : e ≠ now) : rfc3339 e < rfc3339 now ↔ e ≤ now := by
  rw [rfc3339_lt_iff he hnow]
  exact ⟨Int.le_of_lt, fun h => Int.lt_iff_le_and_ne.mpr ⟨h, hne⟩⟩

/-- What has expired goes from both, and both count alike. -/
theorem sweep (hsame : SameSessions t db) (hnow : FourDigitYear now)
    (hs : ∀ h s, t.sessions.lookup h = some s → s.expiresAt ≠ now)
    (hr : ∀ h r, t.retiredTokens.lookup h = some r → r.expiresAt ≠ now)
    (singleUse : Table String String) :
    (t.commitDeletionBatch (t.listExpired now)).1 =
        db.sessions.countWhere (fun _ s => rfc3339 s.expiresAt < rfc3339 now) +
          db.retired.countWhere (fun _ r => rfc3339 r.expiresAt < rfc3339 now) ∧
      SameSessions (t.commitDeletionBatch (t.listExpired now)).2
        ⟨db.sessions.deleteWhere fun _ s => rfc3339 s.expiresAt < rfc3339 now,
          db.retired.deleteWhere fun _ r => rfc3339 r.expiresAt < rfc3339 now, singleUse⟩ := by
  have hswept := hsame.agrees.sweep now
  have hsession : ∀ h s, t.sessions.lookup h = some s →
      (rfc3339 s.expiresAt < rfc3339 now ↔ s.expiresAt ≤ now) := fun h s hlookup =>
    expired_iff (hsame.sessionYears h s hlookup).1 hnow (hs h s hlookup)
  have hrecord : ∀ h r, t.retiredTokens.lookup h = some r →
      (rfc3339 r.expiresAt < rfc3339 now ↔ r.expiresAt ≤ now) := fun h r hlookup =>
    expired_iff (hsame.retiredYears h r hlookup) hnow (hr h r hlookup)
  constructor
  · rw [hswept.count]
    refine congrArg₂ (· + ·) ?_ ?_
    · apply hsame.sessions.countWhere
      intro h s hlookup
      rw [decide_eq_decide, hsession h s hlookup]
    · apply hsame.retired.countWhere
      intro h r hlookup
      rw [decide_eq_decide, hrecord h r hlookup]
  · have hsessions : (t.commitDeletionBatch (t.listExpired now)).2.sessions.Same
        (db.sessions.deleteWhere fun _ s => rfc3339 s.expiresAt < rfc3339 now) := by
      apply hsame.sessions.deleteWhere
      intro h s
      rw [hswept.sessions, decide_eq_false_iff_not]
      exact and_congr_right fun hlookup => not_congr (hsession h s hlookup).symm
    have hretired : (t.commitDeletionBatch (t.listExpired now)).2.retiredTokens.Same
        (db.retired.deleteWhere fun _ r => rfc3339 r.expiresAt < rfc3339 now) := by
      apply hsame.retired.deleteWhere
      intro h r
      rw [hswept.retired, decide_eq_false_iff_not]
      exact and_congr_right fun hlookup => not_congr (hrecord h r hlookup).symm
    exact hsame.shrink hswept.agrees hsessions hretired
      (fun h s hs => ((hswept.sessions h s).mp hs).1)
      fun h r hr => ((hswept.retired h r).mp hr).1

/-! ### Listings -/

/-- The sessions a user's entries of LMDB name are those the table holds. -/
theorem perm_named (hagrees : t.Agrees) (u : String) (p : Session → Bool) :
    (((Lmdb.prefixIter t.userSessions (u ++ ":")).filterMap fun e =>
        t.sessions.lookup e.1).filter fun s => s.userId == u && p s).Perm
      ((t.sessions.entries.map (·.2)).filter fun s => s.userId == u && p s) := by
  have hkey : ∀ h s, t.sessions.lookup h = some s → s.refreshTokenHash = h :=
    fun h s hlookup => (hagrees.session h s hlookup).1
  have hnodup : ((Lmdb.prefixIter t.userSessions (u ++ ":")).filterMap fun e =>
      t.sessions.lookup e.1).Nodup := by
    refine (List.Nodup.of_map _ (Lmdb.nodup_prefixIter t.userSessions (u ++ ":"))).filterMap ?_
    rintro ⟨h, ⟨⟩⟩ ⟨h', ⟨⟩⟩ s hs hs'
    rw [← hkey h s hs, ← hkey h' s hs']
  rw [List.perm_ext_iff_of_nodup (hnodup.filter _)
    (List.Nodup.of_map _ (Lmdb.Tables.nodup_filter_values hkey))]
  intro s
  rw [Lmdb.Tables.mem_filter_values hkey, List.mem_filter, List.mem_filterMap]
  refine and_congr_left fun hp => ?_
  have huser : s.userId = u := beq_iff_eq.mp (Bool.and_eq_true_iff.mp hp).1
  constructor
  · rintro ⟨e, -, hlookup⟩
    rwa [hkey e.1 s hlookup]
  · intro hlookup
    have hnamed := hagrees.mem_named.mpr ⟨s, hlookup, huser⟩
    obtain ⟨e, he, heq⟩ := List.mem_map.mp hnamed
    exact ⟨e, he, by rw [heq, hlookup]⟩

/-- Sorted by the instant of their creation or by its text, sessions come in the same order of
creation. -/
theorem map_createdAt_eq {l l' : List Session} (hperm : l.Perm l')
    (hyears : ∀ s ∈ l, FourDigitYear s.createdAt) :
    (newestFirst l).map Session.createdAt =
      (Sqlite.Database.newestFirst l').map Session.createdAt := by
  have hsorted : ((newestFirst l).map Session.createdAt).Pairwise fun a b => b ≤ a :=
    List.pairwise_map.mpr (pairwise_newestFirst l)
  have hsorted' : ((Sqlite.Database.newestFirst l').map Session.createdAt).Pairwise
      fun a b => b ≤ a := by
    rw [List.pairwise_map]
    refine (Sqlite.Database.pairwise_newestFirst l').imp_of_mem ?_
    intro a b ha hb hle
    have hmem := fun s => (hperm.trans (Sqlite.Database.perm_newestFirst l').symm).mem_iff (a := s)
    have ha' := hyears a ((hmem a).mpr ha)
    have hb' := hyears b ((hmem b).mpr hb)
    apply Int.not_lt.mp
    intro hlt
    exact absurd ((rfc3339_lt_iff ha' hb').mpr hlt) (not_lt.mpr hle)
  have hsame : (newestFirst l).Perm (Sqlite.Database.newestFirst l') :=
    ((perm_newestFirst l).trans hperm).trans (Sqlite.Database.perm_newestFirst l').symm
  exact (hsame.map _).eq_of_pairwise (fun a b _ _ hba hab => Int.le_antisymm hab hba) hsorted
    hsorted'

/-- A listing that fits shows the same sessions of both, in the same order of creation. -/
theorem list (hsame : SameSessions t db) {at' : Instant} {limit : ℕ} (hyear : FourDigitYear at')
    (hfits : t.sessions.countWhere (fun _ s => s.userId == u && at' < s.expiresAt) ≤ limit) :
    ∃ l l', t.listLiveSessions u at' limit = .ok l ∧ db.listLiveSessions u at' limit = .ok l' ∧
      l.Perm l' ∧ l.map Session.createdAt = l'.map Session.createdAt := by
  let live := ((Lmdb.prefixIter t.userSessions (u ++ ":")).filterMap fun e =>
    t.sessions.lookup e.1).filter fun s => s.userId == u && at' < s.expiresAt
  let live' := (db.sessions.entries.map (·.2)).filter fun s =>
    s.userId == u && rfc3339 at' < rfc3339 s.expiresAt
  have hvalues : live.Perm ((t.sessions.entries.map (·.2)).filter fun s =>
      s.userId == u && at' < s.expiresAt) := perm_named hsame.agrees u _
  have hstored : ∀ s ∈ t.sessions.entries.map (·.2), ∃ h, t.sessions.lookup h = some s := by
    intro s hs
    obtain ⟨⟨h, s⟩, he, rfl⟩ := List.mem_map.mp hs
    exact ⟨h, AList.mem_lookup_iff.mpr he⟩
  have hperm : live.Perm live' := by
    refine hvalues.trans ?_
    rw [List.filter_congr (q := fun s => s.userId == u && rfc3339 at' < rfc3339 s.expiresAt)]
    · exact (hsame.sessions.perm.map _).filter _
    · intro s hs
      obtain ⟨h, hlookup⟩ := hstored s hs
      rw [decide_eq_decide.mpr (rfc3339_lt_iff hyear (hsame.sessionYears h s hlookup).1).symm]
  have hlength : live.length ≤ limit := by
    rw [hvalues.length_eq, Lmdb.Tables.length_filter_values]
    exact hfits
  have htake : (newestFirst live).take limit = newestFirst live :=
    List.take_of_length_le (by rwa [(perm_newestFirst live).length_eq])
  have htake' : (Sqlite.Database.newestFirst live').take limit = Sqlite.Database.newestFirst live' :=
    List.take_of_length_le (by
      rwa [(Sqlite.Database.perm_newestFirst live').length_eq, ← hperm.length_eq])
  refine ⟨newestFirst live, Sqlite.Database.newestFirst live', congrArg Except.ok htake,
    congrArg Except.ok htake', ?_, map_createdAt_eq hperm ?_⟩
  · exact ((perm_newestFirst live).trans hperm).trans (Sqlite.Database.perm_newestFirst live').symm
  · intro s hs
    obtain ⟨h, hlookup⟩ := hstored s (List.mem_of_mem_filter (hvalues.mem_iff.mp hs))
    exact (hsame.sessionYears h s hlookup).2

end SameSessions

/-! ## Single-use records -/

namespace SameRecords

variable {now now' : Instant} {late : List String} {t : Table String Instant}
  {t' : Table String String} {key : String} {e : Instant}

/-- As time passes nothing changes. -/
theorem later (h : SameRecords now late t t') (hle : now ≤ now') :
    SameRecords now' late t t' where
  nodup := h.nodup
  nonempty := h.nonempty
  years := h.years
  held := h.held
  burned k hk := by
    obtain ⟨hnone, e, he, hyear, hlt⟩ := h.burned k hk
    exact ⟨hnone, e, he, hyear, Int.lt_of_lt_of_le hlt hle⟩

/-- A record LMDB holds is no late burn, and SQLite holds its text. -/
theorem lookup_text (h : SameRecords now late t t') (hlookup : t.lookup key = some e) :
    key ∉ late ∧ t'.lookup key = some (rfc3339 e) := by
  have hnot : key ∉ late := fun hk =>
    absurd (hlookup.symm.trans (h.burned key hk).1) nofun
  exact ⟨hnot, by rw [h.held key hnot, hlookup, Option.map_some]⟩

theorem empty_notMem (h : SameRecords now late t t') : "" ∉ late := by
  intro hmem
  obtain ⟨-, e, he, -⟩ := h.burned "" hmem
  exact absurd (he.symm.trans h.nonempty) nofun

/-- A claim writes the record in both, and settles a late burn. -/
theorem insert (h : SameRecords now late t t') (hkey : key ≠ "") (he : FourDigitYear e) :
    SameRecords now (late.erase key) (t.insert key e) (t'.insert key (rfc3339 e)) where
  nodup := h.nodup.erase key
  nonempty := by rw [Table.lookup_insert_ite, if_neg hkey.symm, h.nonempty]
  years k e' hlookup := by
    rw [Table.lookup_insert_ite] at hlookup
    by_cases heq : k = key
    · rw [if_pos heq] at hlookup
      exact Option.some.inj hlookup ▸ he
    · rw [if_neg heq] at hlookup
      exact h.years k e' hlookup
  held k hk := by
    rw [Table.lookup_insert_ite, Table.lookup_insert_ite]
    by_cases heq : k = key
    · rw [if_pos heq, if_pos heq, Option.map_some]
    · rw [if_neg heq, if_neg heq]
      exact h.held k fun hmem => hk ((List.mem_erase_of_ne heq).mpr hmem)
  burned k hk := by
    obtain ⟨hne, hmem⟩ := h.nodup.mem_erase_iff.mp hk
    rw [Table.lookup_insert_ite, Table.lookup_insert_ite, if_neg hne, if_neg hne]
    exact h.burned k hmem

/-- A claim has the same answer in both. -/
theorem put (h : SameRecords now late t t') (hnow : FourDigitYear now) (he : FourDigitYear e)
    (hapart : ∀ k e, t.lookup k = some e → e ≠ now) :
    (Lmdb.putSingleUse now key e t).1 = (Sqlite.putSingleUse rfc3339 now key e t').1 ∧
      SameRecords now (late.erase key) (Lmdb.putSingleUse now key e t).2
        (Sqlite.putSingleUse rfc3339 now key e t').2 := by
  unfold Lmdb.putSingleUse Sqlite.putSingleUse
  by_cases hempty : key = ""
  · rw [if_pos hempty, if_pos hempty, hempty, List.erase_of_not_mem h.empty_notMem]
    exact ⟨rfl, h⟩
  rw [if_neg hempty, if_neg hempty]
  cases hlookup : t.lookup key with
  | none =>
    by_cases hmem : key ∈ late
    · obtain ⟨-, e', he', hyear, hlt⟩ := h.burned key hmem
      simp only [he', if_pos ((rfc3339_lt_iff hyear hnow).mpr hlt)]
      exact ⟨trivial, h.insert hempty he⟩
    · have hnone : t'.lookup key = none := by rw [h.held key hmem, hlookup, Option.map_none]
      simp only [hnone]
      exact ⟨trivial, h.insert hempty he⟩
  | some e' =>
    obtain ⟨hnot, htext⟩ := h.lookup_text hlookup
    have hyear := h.years key e' hlookup
    have hread : Lmdb.reread e' = .ok e' := if_pos hyear
    simp only [hread, htext]
    have hiff := SameSessions.expired_iff hyear hnow (hapart key e' hlookup)
    by_cases hlive : now < e'
    · have hfresh : ¬rfc3339 e' < rfc3339 now := fun hlt =>
        absurd (hiff.mp hlt) (Int.not_le.mpr hlive)
      rw [if_pos hlive, if_neg hfresh, List.erase_of_not_mem hnot]
      exact ⟨rfl, h⟩
    · rw [if_neg hlive, if_pos (hiff.mpr (Int.not_lt.mp hlive))]
      exact ⟨rfl, h.insert hempty he⟩

/-- A record goes from both. -/
theorem erase (h : SameRecords now late t t') (hnot : key ∉ late) :
    SameRecords now late (t.erase key) (t'.erase key) where
  nodup := h.nodup
  nonempty := by rw [Table.lookup_erase_ite, h.nonempty, ite_self]
  years k e hlookup := by
    rw [Table.lookup_erase_ite] at hlookup
    by_cases heq : k = key
    · rw [if_pos heq] at hlookup
      exact nomatch hlookup
    · rw [if_neg heq] at hlookup
      exact h.years k e hlookup
  held k hk := by
    rw [Table.lookup_erase_ite, Table.lookup_erase_ite]
    by_cases heq : k = key
    · rw [if_pos heq, if_pos heq, Option.map_none]
    · rw [if_neg heq, if_neg heq]
      exact h.held k hk
  burned k hk := by
    have hne : k ≠ key := fun heq => hnot (heq ▸ hk)
    rw [Table.lookup_erase_ite, Table.lookup_erase_ite, if_neg hne, if_neg hne]
    exact h.burned k hk

/-- An expired record that goes from LMDB alone is a late burn. -/
theorem burn (h : SameRecords now late t t') (hlookup : t.lookup key = some e) (hlt : e < now) :
    SameRecords now (key :: late) (t.erase key) t' where
  nodup := List.nodup_cons.mpr ⟨(h.lookup_text hlookup).1, h.nodup⟩
  nonempty := h.nonempty
  years k e hlookup := by
    rw [Table.lookup_erase_ite] at hlookup
    by_cases heq : k = key
    · rw [if_pos heq] at hlookup
      exact nomatch hlookup
    · rw [if_neg heq] at hlookup
      exact h.years k e hlookup
  held k hk := by
    have hne : k ≠ key := List.ne_of_not_mem_cons hk
    rw [Table.lookup_erase_ite, if_neg hne]
    exact h.held k (List.not_mem_of_not_mem_cons hk)
  burned k hk := by
    rw [Table.lookup_erase_ite]
    by_cases heq : k = key
    · rw [if_pos heq, heq]
      exact ⟨rfl, e, (h.lookup_text hlookup).2, h.years key e hlookup, hlt⟩
    · rw [if_neg heq]
      exact h.burned k (List.mem_of_ne_of_mem heq hk)

/-- A burn has the same answer in both; it is late where LMDB holds the record as expired. -/
theorem take (h : SameRecords now late t t') (hnow : FourDigitYear now)
    (hapart : ∀ k e, t.lookup k = some e → e ≠ now) :
    (Lmdb.takeSingleUse now key t).1 = (Sqlite.takeSingleUse rfc3339 now key t').1 ∧
      SameRecords now
        (match t.lookup key with
        | some e => if e ≤ now then key :: late else late
        | none => late)
        (Lmdb.takeSingleUse now key t).2 (Sqlite.takeSingleUse rfc3339 now key t').2 := by
  unfold Lmdb.takeSingleUse Sqlite.takeSingleUse
  by_cases hempty : key = ""
  · have hnone : t.lookup "" = none := by
      have hheld := h.held "" h.empty_notMem
      rw [h.nonempty] at hheld
      exact Option.map_eq_none_iff.mp hheld.symm
    rw [if_pos hempty, if_pos hempty, hempty, hnone]
    exact ⟨rfl, h⟩
  rw [if_neg hempty, if_neg hempty]
  cases hlookup : t.lookup key with
  | none =>
    by_cases hmem : key ∈ late
    · obtain ⟨-, e', he', hyear, hlt⟩ := h.burned key hmem
      have hstale : ¬rfc3339 now < rfc3339 e' := fun hlive =>
        absurd ((rfc3339_lt_iff hnow hyear).mp hlive) (Int.lt_asymm hlt)
      simp only [he', if_neg hstale]
      exact ⟨trivial, h⟩
    · have hnone : t'.lookup key = none := by rw [h.held key hmem, hlookup, Option.map_none]
      simp only [hnone]
      exact ⟨trivial, h⟩
  | some e' =>
    obtain ⟨hnot, htext⟩ := h.lookup_text hlookup
    have hyear := h.years key e' hlookup
    have hread : Lmdb.reread e' = .ok e' := if_pos hyear
    simp only [hread, htext]
    by_cases hlive : now < e'
    · rw [if_pos ((rfc3339_lt_iff hnow hyear).mpr hlive), if_neg (Int.not_le.mpr hlive),
        decide_eq_true hlive]
      exact ⟨rfl, h.erase hnot⟩
    · have hstale : ¬rfc3339 now < rfc3339 e' := fun hlt =>
        hlive ((rfc3339_lt_iff hnow hyear).mp hlt)
      have hle : e' ≤ now := Int.not_lt.mp hlive
      rw [if_neg hstale, if_pos hle, decide_eq_false hlive]
      exact ⟨rfl, h.burn hlookup (Int.lt_iff_le_and_ne.mpr ⟨hle, hapart key e' hlookup⟩)⟩

/-- A cleanup of SQLite counts what LMDB's counts, and the late burns. -/
theorem sweep (h : SameRecords now late t t') (hnow : FourDigitYear now)
    (hapart : ∀ k e, t.lookup k = some e → e ≠ now) :
    ∃ keys, Lmdb.listSingleUse now t = .ok keys ∧
      t'.countWhere (fun _ e => e < rfc3339 now) = keys.length + late.length ∧
      SameRecords now [] (keys.foldl (fun t k => t.erase k) t)
        (t'.deleteWhere fun _ e => e < rfc3339 now) := by
  let keys := (t.entries.filter fun e => e.2 ≤ now).map Sigma.fst
  have hmem : ∀ k, k ∈ keys ↔ ∃ e, t.lookup k = some e ∧ e ≤ now := by
    intro k
    rw [List.mem_map]
    constructor
    · rintro ⟨⟨k', e⟩, he, rfl⟩
      obtain ⟨hin, hle⟩ := List.mem_filter.mp he
      exact ⟨e, AList.mem_lookup_iff.mpr hin, of_decide_eq_true hle⟩
    · rintro ⟨e, hlookup, hle⟩
      exact ⟨⟨k, e⟩, List.mem_filter.mpr ⟨AList.mem_lookup_iff.mp hlookup, decide_eq_true hle⟩, rfl⟩
  have hkeys : (t.entries.map Sigma.fst).Nodup := t.nodupKeys
  have hnodup : keys.Nodup := hkeys.sublist (List.filter_sublist.map _)
  have hexpired : ∀ {k e}, t.lookup k = some e → (rfc3339 e < rfc3339 now ↔ e ≤ now) :=
    fun hlookup => SameSessions.expired_iff (h.years _ _ hlookup) hnow (hapart _ _ hlookup)
  -- what SQLite holds as expired is what LMDB does, or a late burn
  have hdue : ∀ k, k ∈ keys ++ late ↔ ∃ x, t'.lookup k = some x ∧ x < rfc3339 now := by
    intro k
    rw [List.mem_append, hmem]
    constructor
    · rintro (⟨e, hlookup, hle⟩ | hlate)
      · exact ⟨rfc3339 e, (h.lookup_text hlookup).2, (hexpired hlookup).mpr hle⟩
      · obtain ⟨-, e, he, hyear, hlt⟩ := h.burned k hlate
        exact ⟨rfc3339 e, he, (rfc3339_lt_iff hyear hnow).mpr hlt⟩
    · rintro ⟨x, hx, hlt⟩
      by_cases hlate : k ∈ late
      · exact .inr hlate
      · rw [h.held k hlate] at hx
        obtain ⟨e, hlookup, rfl⟩ := Option.map_eq_some_iff.mp hx
        exact .inl ⟨e, hlookup, (hexpired hlookup).mp hlt⟩
  have hdisjoint : List.Disjoint keys late := by
    intro k hkey hlate
    obtain ⟨e, hlookup, -⟩ := (hmem k).mp hkey
    exact (h.lookup_text hlookup).1 hlate
  refine ⟨keys, Lmdb.listSingleUse_eq h.years, ?_, ?_⟩
  · rw [← List.length_append]
    apply Table.countWhere_eq_length (List.Nodup.append hnodup h.nodup hdisjoint)
    intro k
    rw [hdue]
    simp only [decide_eq_true_iff]
  · have hleft : ∀ k, (keys.foldl (fun t k => t.erase k) t).lookup k =
        if k ∈ keys then none else t.lookup k := Table.lookup_foldl_erase keys t
    constructor
    · exact List.nodup_nil
    · exact Table.lookup_deleteWhere_eq_none _ h.nonempty
    · intro k e hlookup
      rw [hleft] at hlookup
      by_cases hkey : k ∈ keys
      · rw [if_pos hkey] at hlookup
        exact nomatch hlookup
      · rw [if_neg hkey] at hlookup
        exact h.years k e hlookup
    · intro k _
      apply Option.ext
      intro x
      rw [Table.lookup_deleteWhere_eq_some, decide_eq_false_iff_not, hleft]
      by_cases hdue' : k ∈ keys ++ late
      · obtain ⟨y, hy, hlt⟩ := (hdue k).mp hdue'
        have hnone : (if k ∈ keys then none else t.lookup k) = none := by
          rcases List.mem_append.mp hdue' with hkey | hlate
          · exact if_pos hkey
          · rw [(h.burned k hlate).1, ite_self]
        rw [hnone, Option.map_none]
        refine iff_of_false ?_ nofun
        rintro ⟨hx, hnot⟩
        obtain rfl := Option.some.inj (hx.symm.trans hy)
        exact hnot hlt
      · obtain ⟨hkey, hlate⟩ := not_or.mp (fun hor => hdue' (List.mem_append.mpr hor))
        rw [if_neg hkey, ← h.held k hlate]
        refine ⟨And.left, fun hx => ⟨hx, fun hlt => hdue' ((hdue k).mpr ⟨x, hx, hlt⟩)⟩⟩
    · exact nofun

end SameRecords

/-! ## The simulation -/

section Simulation

variable {secs : UInt64} {past : List TimedCall} {a : Tallied} {db : Sqlite.Database}
  {i : TimedCall}

/-- Every admitted call is answered alike by both and leaves them in step. -/
theorem inStep_step (h : InStep past a db) (hi : AdmittedCall secs past a db i) :
    ∃ x a' y db', Lmdb.tallied secs i a = some (x, a') ∧ Sqlite.server secs i db = some (y, db') ∧
      Alike a db i x y ∧ InStep (past ++ [i]) a' db' := by
  obtain ⟨env, late⟩ := a
  obtain ⟨now, call⟩ := i
  obtain ⟨hlater, hyear, hapart, hwell⟩ := hi
  have hsame := h.sessions
  have hrecords := h.records.later hlater
  cases call with
  | storeRefreshToken s =>
    obtain ⟨-, hstored⟩ := hsame.store hwell
    exact ⟨_, _, _, _, Lmdb.tallied_of_answer (Lmdb.answer_store hwell.family hwell.nonempty), rfl, rfl, hstored,
      hrecords⟩
  | resolveRefreshToken t =>
    refine ⟨_, _, _, _, Lmdb.tallied_of_answer rfl, rfl, ?_, hsame, hrecords⟩
    exact congrArg (Except.map SessionResult.classified) (hsame.resolve t)
  | rotateRefreshToken t r =>
    obtain ⟨hne, hfresh, hreplaces⟩ := hwell
    have hrotate := @Lmdb.answer_rotate secs { env with clock := now } t _ hfresh.family
    by_cases hself : t = r.refreshTokenHash
    · rw [if_pos hself] at hrotate
      have hpanics : db.rotateRefreshToken secs now t r = (.error .panic, db) := if_pos (.inl hself)
      have hanswer : db.answer secs now (.rotateRefreshToken t r) = (.error .panic, db) :=
        congrArg (asResult SessionResult.flag) hpanics
      exact ⟨_, _, _, _, Lmdb.tallied_of_answer hrotate, congrArg some hanswer, rfl, hsame, hrecords⟩
    · rw [if_neg hself] at hrotate
      obtain ⟨hanswer, hleft, hkept⟩ := hsame.rotate hne hfresh hself hreplaces
      refine ⟨_, _, _, _, Lmdb.tallied_of_answer hrotate, rfl, ?_, hleft, ?_⟩
      · exact congrArg (Except.map SessionResult.flag) hanswer
      · exact hkept.symm ▸ hrecords
  | revokeSession t =>
    exact ⟨_, _, _, _, Lmdb.tallied_of_answer (Lmdb.answer_revokeSession hwell), rfl, rfl, hsame.revokeSession t,
      hrecords⟩
  | revokeFamily f =>
    have hrevoke := @Lmdb.answer_revokeFamily secs { env with clock := now } f
    by_cases hf : isValidFamilyId f = true
    · obtain ⟨n, t, hrun, hanswer, hleft, hkept⟩ := hsame.revokeFamily hf
      rw [if_pos hf, show Lmdb.Tables.revokeFamilyWtxn _ f = _ from hrun] at hrevoke
      refine ⟨_, _, _, _, Lmdb.tallied_of_answer hrevoke, rfl, ?_, hleft, hkept.symm ▸ hrecords⟩
      exact (congrArg (Except.map SessionResult.count) hanswer).symm
    · have hpanics : db.revokeFamily f = (.error .panic, db) := if_pos (by simpa using hf)
      rw [if_neg hf] at hrevoke
      have hanswer : db.answer secs now (.revokeFamily f) = (.error .panic, db) :=
        congrArg (asResult SessionResult.count) hpanics
      exact ⟨_, _, _, _, Lmdb.tallied_of_answer hrevoke, congrArg some hanswer, rfl, hsame, hrecords⟩
  | revokeAllUserSessions u =>
    have hrevoke := @Lmdb.answer_revokeAll secs { env with clock := now } u
    by_cases hu : u = ""
    · have hpanics : db.revokeAllUserSessions u = (.error .panic, db) := if_pos hu
      rw [if_pos hu] at hrevoke
      have hanswer : db.answer secs now (.revokeAllUserSessions u) = (.error .panic, db) :=
        congrArg (asResult SessionResult.count) hpanics
      exact ⟨_, _, _, _, Lmdb.tallied_of_answer hrevoke, congrArg some hanswer, rfl, hsame, hrecords⟩
    · obtain ⟨n, t, hrun, hanswer, hleft, hkept⟩ := hsame.revokeAll hu
      rw [if_neg hu, show Lmdb.Tables.revokeAllWtxn _ u = _ from hrun] at hrevoke
      refine ⟨_, _, _, _, Lmdb.tallied_of_answer hrevoke, rfl, ?_, hleft, hkept.symm ▸ hrecords⟩
      exact (congrArg (Except.map SessionResult.count) hanswer).symm
  | listLiveSessions u at' limit =>
    obtain ⟨l, l', hl, hl', hperm, htimes⟩ := hsame.list hwell.1 hwell.2
    refine ⟨_, _, _, _, Lmdb.tallied_of_answer rfl, rfl, ⟨l, l', ?_, ?_, hperm, htimes⟩, hsame, hrecords⟩
    · exact congrArg (Except.map SessionResult.listed) hl
    · exact congrArg (Except.map SessionResult.listed) hl'
  | cleanupExpiredSessions =>
    obtain ⟨keys, hlist, hcount, hleft⟩ := hrecords.sweep hyear hapart.singleUse
    obtain ⟨hswept, htables⟩ := hsame.sweep hyear hapart.session hapart.retired
      (db.singleUse.deleteWhere fun _ e => e < rfc3339 now)
    have hcleanup := @Lmdb.answer_cleanup secs { env with clock := now }
    simp only [Lmdb.sweepSingleUse, hlist] at hcleanup
    refine ⟨_, _, _, _, Lmdb.tallied_of_answer hcleanup, rfl, ⟨_, rfl, ?_⟩, htables, hleft⟩
    refine congrArg (fun n => Except.ok (SessionResult.count n)) ?_
    rw [hcount, hswept]
    omega
  | putSingleUse key e =>
    obtain ⟨hanswer, hleft⟩ := @SameRecords.put _ _ _ _ key _ hrecords hyear hwell hapart.singleUse
    refine ⟨_, _, _, _, Lmdb.tallied_of_answer (Lmdb.answer_putSingleUse key e), rfl, ?_, hsame.withRecords _,
      hleft⟩
    exact congrArg (Except.map SessionResult.flag) hanswer
  | takeSingleUse key =>
    obtain ⟨hanswer, hleft⟩ := @SameRecords.take _ _ _ _ key hrecords hyear hapart.singleUse
    refine ⟨_, _, _, _, Lmdb.tallied_of_answer (Lmdb.answer_takeSingleUse key), rfl, ?_, hsame.withRecords _,
      hleft⟩
    exact congrArg (Except.map SessionResult.flag) hanswer

/-- SQLite simulates LMDB. -/
def storesInStep (secs : UInt64) (start : Instant) :
    Simulation (Lmdb.tallied secs) (Sqlite.server secs) (AdmittedCall secs) Alike
      (Lmdb.Env.empty start, []) Sqlite.Database.empty where
  related := InStep
  start := inStep_start start
  step h hi := inStep_step h hi

/-- **LMDB and SQLite answer alike.** After every history of well-formed calls at times that do not
go back and are never a stored expiry, both answer the next such call, and alike. -/
theorem stores_answer_alike {secs : UInt64} {start : Instant} {past : List TimedCall} {a : Tallied}
    {db : Sqlite.Database} {i : TimedCall}
    (h : Lockstep (Lmdb.tallied secs) (Sqlite.server secs) (AdmittedCall secs)
      (Lmdb.Env.empty start, []) Sqlite.Database.empty past a db)
    (hi : AdmittedCall secs past a db i) :
    ∃ x a' y db', Lmdb.tallied secs i a = some (x, a') ∧ Sqlite.server secs i db = some (y, db') ∧
      Alike a db i x y :=
  h.answers (storesInStep secs start) hi

/-- A sign-in and the rotation after it. -/
theorem stores_answer_alike_rotation :
    ∃ x a' y db',
      Lmdb.tallied 86400 ⟨1000, .rotateRefreshToken "a" (Adapter.Sample.generation "b" 1)⟩
        (⟨0, Lmdb.Tables.empty.installLiveEntry (Adapter.Sample.generation "a" 0), ∅⟩, []) =
          some (x, a') ∧
      Sqlite.server 86400 ⟨1000, .rotateRefreshToken "a" (Adapter.Sample.generation "b" 1)⟩
        (Sqlite.Database.empty.storeRefreshToken (Adapter.Sample.generation "a" 0)).2 =
          some (y, db') ∧ x = y := by
  have hsignIn : AdmittedCall 86400 [] (Lmdb.Env.empty 0, []) Sqlite.Database.empty
      ⟨0, .storeRefreshToken (Adapter.Sample.generation "a" 0)⟩ :=
    ⟨by decide, by decide, .empty _ _,
      ⟨by decide, by decide, by decide, by decide, rfl, rfl, nofun, by decide, by decide⟩⟩
  have honly : ∀ h s, (Lmdb.Tables.empty.installLiveEntry
      (Adapter.Sample.generation "a" 0)).sessions.lookup h = some s →
      s = Adapter.Sample.generation "a" 0 := by
    intro h s hlookup
    change (AList.insert "a" (Adapter.Sample.generation "a" 0) (∅ : Table String Session)).lookup h =
      some s at hlookup
    rw [Table.lookup_insert_ite] at hlookup
    split at hlookup
    · exact (Option.some.inj hlookup).symm
    · exact nomatch hlookup
  have hstored : Lmdb.tallied 86400 ⟨0, .storeRefreshToken (Adapter.Sample.generation "a" 0)⟩
      (Lmdb.Env.empty 0, []) = some (.ok .done,
        ⟨0, Lmdb.Tables.empty.installLiveEntry (Adapter.Sample.generation "a" 0), ∅⟩, []) :=
    Lmdb.tallied_of_answer (Lmdb.answer_store (by decide) (by decide))
  refine stores_answer_alike (.call .start hsignIn hstored rfl) ?_
  refine ⟨by decide, by decide, ⟨fun h s hlookup => ?_, (Apart.empty 0 _).retired,
    (Apart.empty 0 _).singleUse⟩, by decide,
    ⟨by decide, by decide, by decide, by decide, by decide, rfl, nofun, by decide, by decide⟩,
    fun live hlive => ?_⟩
  · rw [honly h s hlookup]
    decide
  · rw [honly "a" live hlive]
    exact ⟨rfl, rfl, 3600000000000, by decide, by decide⟩

/-- A record that was burned after its expiry is counted by a cleanup of SQLite only. -/
theorem cleanup_counts_late_burn :
    ∃ past a db i x a' y db',
      Lockstep (Lmdb.tallied 86400) (Sqlite.server 86400) (AdmittedCall 86400) (Lmdb.Env.empty 0, [])
        Sqlite.Database.empty past a db ∧
      AdmittedCall 86400 past a db i ∧ Lmdb.tallied 86400 i a = some (x, a') ∧
      Sqlite.server 86400 i db = some (y, db') ∧ x = .ok (.count 0) ∧ y = .ok (.count 1) := by
  have hclaim : AdmittedCall 86400 [] (Lmdb.Env.empty 0, []) Sqlite.Database.empty
      ⟨0, .putSingleUse "k" 10000000000⟩ :=
    ⟨by decide, by decide, .empty _ _, (by decide : FourDigitYear 10000000000)⟩
  let held : Table String Instant := AList.insert "k" 10000000000 ∅
  have hheld : ∀ k e, held.lookup k = some e → e = 10000000000 := by
    intro k e hlookup
    change (AList.insert "k" 10000000000 (∅ : Table String Instant)).lookup k = some e at hlookup
    rw [Table.lookup_insert_ite] at hlookup
    split at hlookup
    · exact (Option.some.inj hlookup).symm
    · exact nomatch hlookup
  have hput : Lmdb.tallied 86400 ⟨0, .putSingleUse "k" 10000000000⟩ (Lmdb.Env.empty 0, []) =
      some (.ok (.flag true), ⟨0, .empty, held⟩, []) :=
    Lmdb.tallied_of_answer (Lmdb.answer_putSingleUse "k" _)
  have htake : Lmdb.tallied 86400 ⟨20000000000, .takeSingleUse "k"⟩ (⟨0, .empty, held⟩, []) =
      some (.ok (.flag false), ⟨20000000000, .empty, ∅⟩, ["k"]) :=
    Lmdb.tallied_of_answer (Lmdb.answer_takeSingleUse "k")
  have hcleanup : Lmdb.tallied 86400 ⟨20000000000, .cleanupExpiredSessions⟩
      (⟨20000000000, .empty, ∅⟩, ["k"]) =
      some (.ok (.count 0), ⟨20000000000, .empty, ∅⟩, []) :=
    Lmdb.tallied_of_answer Lmdb.answer_cleanup
  have hburn : AdmittedCall 86400 [⟨0, .putSingleUse "k" 10000000000⟩] (⟨0, .empty, held⟩, [])
      ⟨∅, ∅, AList.insert "k" (rfc3339 10000000000) ∅⟩ ⟨20000000000, .takeSingleUse "k"⟩ := by
    refine ⟨by decide, by decide, ⟨(Apart.empty 0 _).session, (Apart.empty 0 _).retired,
      fun k e hlookup => ?_⟩, trivial⟩
    rw [hheld k e hlookup]
    decide
  refine ⟨_, _, _, _, _, _, _, _, .call (.call .start hclaim hput rfl) hburn htake rfl, ?_,
    hcleanup, rfl, rfl, ?_⟩
  · exact ⟨by decide, by decide, .empty _ _, trivial⟩
  · decide +kernel

end Simulation

end OidcExchange
