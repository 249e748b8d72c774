import OidcExchange.Adapters.SqliteColumns
import OidcExchange.Adapters.TimestampReader
import OidcExchange.Interleaving.Run
import OidcExchange.Storage.Table

/-!
# Texts of instants sort like instants

The texts of two instants in years of four digits compare byte by byte like the instants, and a
text that is parsed and rendered again stays as it is. So every statement of the SQLite adapter
that compares stored texts does what it would do with the instants that were stored.
-/

set_option autoImplicit false

namespace OidcExchange

open Storage Texts Interleaving

/-! ## Bytes -/

variable {R : Readers}

namespace Sqlite

/-! ## Comparisons by instants -/

/-- The column holds the text of an instant in a year of four digits. -/
def Rendered (column : String) : Prop := ∃ t, FourDigitYear t ∧ column = rfc3339 t

end Sqlite
namespace Sqlite

/-! ## Tables whose columns are texts of instants -/

/-- Every column that is compared holds the text of an instant in a year of four digits. -/
structure Tables.Rendered (T : Tables) : Prop where
  users : T.users.Holds fun row => Sqlite.Rendered row.createdAt
  sessions : T.rows.sessions.Holds fun row =>
    Sqlite.Rendered row.expiresAt ∧ Sqlite.Rendered row.createdAt
  retired : T.rows.retired.Holds fun row => Sqlite.Rendered row.expiresAt
  singleUse : T.singleUse.Holds Sqlite.Rendered

/-- The instants that a write stores in columns that are compared. -/
def Write.stores (reuseRetentionSecs : UInt64) : Write → List Instant
  | .createUser _ now => [now]
  | .storeRefreshToken session => [session.expiresAt, session.createdAt]
  | .rotateRefreshToken now _ replacement =>
    [replacement.expiresAt, replacement.createdAt] ++
      (World.retentionDeadline now reuseRetentionSecs replacement.expiresAt).toList
  | .putSingleUse _ _ expiresAt => [expiresAt]
  | _ => []

/-- What a write stores lies in years of four digits. -/
def InRange (reuseRetentionSecs : UInt64) (_ : Tables) (w : Write) : Prop :=
  ∀ t ∈ w.stores reuseRetentionSecs, FourDigitYear t

variable {T : Tables} {reuse : UInt64}

theorem rendered_rfc3339 {t : Instant} (h : FourDigitYear t) : Rendered (rfc3339 t) := ⟨t, h, rfl⟩

/-- The row of a session holds the texts of its instants. -/
theorem rendered_sessionRow {session : Session} {row : SessionRow}
    (hexpires : FourDigitYear session.expiresAt) (hcreated : FourDigitYear session.createdAt)
    (h : sessionRow R session = .ok row) : Rendered row.expiresAt ∧ Rendered row.createdAt := by
  obtain ⟨location, -, h⟩ := ok_of_bind h
  obtain rfl := Except.ok.inj h
  exact ⟨rendered_rfc3339 hexpires, rendered_rfc3339 hcreated⟩

end Sqlite

namespace Sqlite

variable {T : Tables} {reuse : UInt64}

/-- A rotation keeps the columns in range. -/
theorem Tables.Rendered.rotate (h : T.Rendered) {now : Instant} {liveHash : String}
    {replacement : Session}
    (hrange : InRange reuse T (.rotateRefreshToken now liveHash replacement)) :
    (T.write R reuse (.rotateRefreshToken now liveHash replacement)).Rendered := by
  have hexpires : FourDigitYear replacement.expiresAt := hrange _ (by simp [Write.stores])
  have hcreated : FourDigitYear replacement.createdAt := hrange _ (by simp [Write.stores])
  have hdeadline : ∀ e, World.retentionDeadline now reuse replacement.expiresAt = some e →
      FourDigitYear e := fun e he => hrange e (by simp [Write.stores, he])
  -- Rows that a rotation leaves as they are.
  have hsame : ∀ rows, rows = T.rows → ({ T with rows := rows } : Tables).Rendered := by
    rintro rows rfl
    exact h
  -- Rows in which the live session gives way to the replacement.
  have hinsert : ∀ {rows rows' : Rows},
      (rows.sessions.Holds fun row => Sqlite.Rendered row.expiresAt ∧
        Sqlite.Rendered row.createdAt) →
      (rows.retired.Holds fun row => Sqlite.Rendered row.expiresAt) →
      rows.insertSession R replacement = .ok rows' →
      ({ T with rows := rows' } : Tables).Rendered := by
    intro rows rows' hsessions hretired hdone
    obtain ⟨row, hrow, hdone⟩ := ok_of_bind hdone
    split at hdone
    · exact nomatch hdone
    · obtain rfl := Except.ok.inj hdone
      exact ⟨h.users, hsessions.insert _ (rendered_sessionRow hexpires hcreated hrow), hretired,
        h.singleUse⟩
  show ({ T with rows := _ } : Tables).Rendered
  unfold Rows.rotateRefreshToken
  split
  · exact hsame _ rfl
  · split
    · exact hsame _ rfl
    · exact hsame _ rfl
    · rename_i live hlive
      split
      · exact hsame _ rfl
      · split
        · rename_i rows' hswap
          obtain ⟨record, hrecord, hswap⟩ := ok_of_bind hswap
          cases record with
          | none =>
            exact @hinsert ⟨T.rows.sessions.erase liveHash, T.rows.retired⟩ rows'
              (h.sessions.erase _) h.retired hswap
          | some record =>
            obtain ⟨rows, hrows, hswap⟩ := ok_of_bind hswap
            have hexpiry : FourDigitYear record.expiresAt := by
              unfold recordFor at hrecord
              split at hrecord
              · exact nomatch hrecord
              · split at hrecord
                · exact nomatch hrecord
                · rename_i written hwritten
                  obtain rfl := Option.some.inj (Except.ok.inj hrecord)
                  unfold World.retirementRecord at hwritten
                  split at hwritten
                  · split at hwritten
                    · exact nomatch hwritten
                    · rename_i deadline hd
                      obtain rfl := Option.some.inj hwritten
                      exact hdeadline deadline hd
                  · exact nomatch hwritten
            simp only [Rows.insertRetired] at hrows
            split at hrows
            · exact nomatch hrows
            · obtain rfl := Except.ok.inj hrows
              exact hinsert (h.sessions.erase _)
                (h.retired.insert _ (rendered_rfc3339 hexpiry)) hswap
        · exact hsame _ rfl

/-- **Every write keeps the columns in range.** -/
theorem Tables.Rendered.write (h : T.Rendered) {w : Write} (hrange : InRange reuse T w) :
    (T.write R reuse w).Rendered := by
  have hdelete : ∀ sessions retired, (T.deleteRows sessions retired).Rendered :=
    fun _ _ => ⟨h.users, h.sessions.deleteWhere _, h.retired.deleteWhere _, h.singleUse⟩
  cases w with
  | createUser id now =>
    simp only [Tables.write, Tables.createUser]
    split
    · exact h
    · exact ⟨h.users.insert _ (rendered_rfc3339 (hrange now (by simp [Write.stores]))), h.sessions,
        h.retired, h.singleUse⟩
  | storeRefreshToken session =>
    have hexpires : FourDigitYear session.expiresAt := hrange _ (by simp [Write.stores])
    have hcreated : FourDigitYear session.createdAt := hrange _ (by simp [Write.stores])
    simp only [Tables.write, Rows.storeRefreshToken]
    split
    · exact h
    · rename_i row hrow
      exact ⟨h.users, h.sessions.insert _ (rendered_sessionRow hexpires hcreated hrow), h.retired,
        h.singleUse⟩
  | rotateRefreshToken now liveHash replacement => exact h.rotate hrange
  | revokeSession tokenHash => exact hdelete _ _
  | revokeFamily familyId =>
    simp only [Tables.write, Tables.revokeFamily]
    split
    · exact hdelete _ _
    · exact h
  | revokeAllUserSessions userId =>
    simp only [Tables.write, Tables.revokeAllUserSessions]
    split
    · exact h
    · exact hdelete _ _
  | cleanupExpiredSessions now =>
    exact ⟨h.users, h.sessions.deleteWhere _, h.retired.deleteWhere _, h.singleUse.deleteWhere _⟩
  | putSingleUse now key expiresAt =>
    have hput : ({ T with singleUse := T.singleUse.insert key (rfc3339 expiresAt) } :
        Tables).Rendered :=
      ⟨h.users, h.sessions, h.retired,
        h.singleUse.insert _ (rendered_rfc3339 (hrange _ (by simp [Write.stores])))⟩
    simp only [Tables.write, Tables.putSingleUse]
    split
    · exact h
    · split
      · exact hput
      · split
        · exact hput
        · exact h
  | takeSingleUse now key =>
    simp only [Tables.write, Tables.takeSingleUse]
    split
    · exact h
    · split
      · exact h
      · split
        · exact ⟨h.users, h.sessions, h.retired, h.singleUse.erase _⟩
        · exact h

end Sqlite

namespace Sqlite

/-! ## Statements -/

variable {T : Tables} {now : Instant}

end Sqlite

end OidcExchange
