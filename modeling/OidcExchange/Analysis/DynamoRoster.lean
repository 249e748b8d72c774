import OidcExchange.Analysis.DynamoCalls
import OidcExchange.Analysis.DynamoSteps

/-!
# The roster of a user

A rotation reads the roster and writes the whole set of sessions back, so that a login or another
rotation in between is lost; and a global sign-out clears what was filed after it looked. Where no
request does either, every live session is named by its user's roster and by the entry of its
family, and what the roster names besides is being deleted by a revocation.
-/

set_option autoImplicit false

namespace OidcExchange

namespace Dynamo

open Interleaving Storage

/-! ## Sessions that requests bring -/

/-- The session that a request would put into the table. -/
def brings : Command → Option Session
  | .store s => some s
  | .rotate a => some a.replacement
  | _ => none

/-- A request has brought the session, whatever came of it. -/
def Brought (m : StoreMoment) (s : Session) : Prop := ∃ c, ∃ e ∈ m.past c, brings e.1 = some s

/-- The conditions under which no request takes a live session out of its roster. -/
structure KeepsRosters (m : StoreMoment) (c : ℕ) (x : Choice) (o : Command) : Prop where
  /-- A session has a hash that no request has brought before. -/
  fresh : ∀ s, brings o = some s → s.refreshTokenHash ≠ "" ∧
    ∀ t, Brought m t → t.refreshTokenHash ≠ s.refreshTokenHash
  /-- A stored session has a family of its own. -/
  newFamily : ∀ s, o = .store s → ∀ t, Brought m t → t.familyId ≠ s.familyId
  /-- A rotation reads the roster while its session is there. -/
  stillLive : ∀ h r u, .began c (.rotate h r) ∈ m.history → o = .getRoster u →
    (m.world.sessions.lookup h).isSome = true
  /-- A rotation that commits finds the sessions of the roster as it has read them. -/
  sameRoster : ∀ a, o = .rotate a → x.lands = true →
    (m.world.sessions.lookup a.liveHash).isSome = true →
    ∀ roster, Read (m.past c) a.replacement.userId roster →
      ∀ h, h ∈ roster.sessions ↔ h ∈ (m.world.roster a.replacement.userId).sessions
  /-- A roster is cleared when no session of the user is left. -/
  noneLeft : ∀ u, o = .clearRoster u → x.lands = true →
    ∀ h s, m.world.sessions.lookup h = some s → s.userId ≠ u

/-- The hash is that of a session of the user and the family. -/
def BelongsTo (m : StoreMoment) (u f h : String) : Prop :=
  ∃ s, Brought m s ∧ s.refreshTokenHash = h ∧ s.userId = u ∧ s.familyId = f

/-- The request deletes items in batches. -/
def Request.revokes : Request → Bool
  | .revokeFamily _ => true
  | .revokeAllUserSessions _ => true
  | _ => false

/-- The roster names the live hashes of its families and nothing else. -/
structure Sound (m : StoreMoment) (u : String) (roster : UserRoster) : Prop where
  paired : ∀ h, h ∈ roster.sessions ↔
    h ≠ "" ∧ ∃ f family, roster.families.lookup f = some family ∧ family.live = h
  filed : ∀ f family, roster.families.lookup f = some family →
    (∃ s, Brought m s ∧ s.userId = u ∧ s.familyId = f) ∧
      (family.live ≠ "" → BelongsTo m u f family.live)

/-- What the calls have brought and read so far. -/
structure Records (m : StoreMoment) : Prop where
  unique : ∀ s t, Brought m s → Brought m t → s.refreshTokenHash = t.refreshTokenHash → s = t
  owner : ∀ s t, Brought m s → Brought m t → s.familyId = t.familyId → s.userId = t.userId
  named : ∀ s, Brought m s → s.refreshTokenHash ≠ "" ∧ s.familyId ≠ ""
  found : ∀ c h s, Found (m.past c) h s → s.refreshTokenHash = h ∧ Brought m s
  sound : ∀ c u roster, Read (m.past c) u roster → Sound m u roster
  submitted : ∀ c h, Submitted (m.past c) (.session h) → ∃ u f, BelongsTo m u f h
  rotating : ∀ c h r roster, .began c (.rotate h r) ∈ m.history →
    Read (m.past c) r.userId roster → h ∈ roster.sessions

/-- The rosters agree with the sessions. -/
structure RostersHold (m : StoreMoment) : Prop extends Records m where
  kept : ∀ h s, m.world.sessions.lookup h = some s → s.refreshTokenHash = h ∧ Brought m s
  listed : ∀ h s, m.world.sessions.lookup h = some s →
    ∃ family, (m.world.roster s.userId).families.lookup s.familyId = some family ∧ family.live = h
  current : ∀ u, Sound m u (m.world.roster u)
  pending : ∀ u f family, (m.world.roster u).families.lookup f = some family → family.live ≠ "" →
    m.world.sessions.lookup family.live = none → ∃ c i, .began c i ∈ m.history ∧
      i.revokes = true ∧ Submitted (m.past c) (.session family.live)
  forgotten : ∀ c h, Forgotten (m.past c) h →
    ∀ u f family, (m.world.roster u).families.lookup f = some family → family.live ≠ h
  processed : ∀ c h, Processed (m.past c) (.session h) → m.world.sessions.lookup h = none
  confirmed : ∀ c u f live, FamilyConfirmed (m.past c) u f live →
    (∃ s, Brought m s ∧ s.userId = u ∧ s.familyId = f) ∧
    (∀ h s, m.world.sessions.lookup h = some s → s.userId = u → s.familyId ≠ f) ∧
    ∀ family, (m.world.roster u).families.lookup f = some family → family.live = live

section Readiness

variable {i : Request} {past : Past}

theorem ready_store {s : Session} (h : Ready i past (.store s)) :
    isValidFamilyId s.familyId = true := by
  cases i with
  | store t =>
    obtain ⟨heq, hvalid, -⟩ := h
    cases heq
    exact hvalid
  | resolve t => simp [Ready] at h
  | _ => cases h

theorem ready_rotate {a : Rotation} (h : Ready i past (.rotate a)) : ∃ t r live roster,
    i = .rotate t r ∧ Found past t live ∧ Read past r.userId roster ∧
      RotationFrom t r live roster a := by
  cases i with
  | rotate t r =>
    obtain ⟨live, roster, hfound, hread, hfrom⟩ := h
    exact ⟨t, r, live, roster, rfl, hfound, hread, hfrom⟩
  | resolve t => simp [Ready] at h
  | createUser u => cases h
  | store s => cases h.1
  | _ => cases h

theorem ready_revoke {t u f : String} (h : Ready i past (.revoke t u f)) :
    ∃ s, Found past t s ∧ s.userId = u ∧ s.familyId = f := by
  cases i with
  | revokeSession t' =>
    obtain ⟨rfl, s, hfound, hs⟩ := h
    exact ⟨s, hfound, hs⟩
  | resolve t => simp [Ready] at h
  | store s => cases h.1
  | _ => cases h

theorem ready_batchDelete {keys : List Key} (h : Ready i past (.batchDelete keys)) : ∀ k ∈ keys,
    ∃ u roster, Read past u roster ∧ ((∃ f family, roster.families.lookup f = some family ∧
      k ∈ family.entries) ∨ k ∈ roster.deleteKeys) := by
  intro k hk
  cases i with
  | revokeFamily f =>
    obtain ⟨u, roster, family, hread, hlookup, hentry⟩ := h k hk
    exact ⟨u, roster, hread, .inl ⟨f, family, hlookup, hentry⟩⟩
  | revokeAllUserSessions u =>
    obtain ⟨roster, hread, hkey⟩ := h k hk
    exact ⟨u, roster, hread, .inr hkey⟩
  | resolve t => simp [Ready] at h
  | store s => cases h.1
  | _ => cases h

theorem revokes_of_ready {keys : List Key} (h : Ready i past (.batchDelete keys)) :
    i.revokes = true := by
  cases i with
  | revokeFamily f => rfl
  | revokeAllUserSessions u => rfl
  | resolve t => simp [Ready] at h
  | store s => cases h.1
  | _ => cases h

theorem ready_clearFamily {u f live : String} (h : Ready i past (.clearFamily u f live)) :
    FamilyConfirmed past u f live := by
  cases i with
  | revokeFamily f' =>
    obtain ⟨rfl, hconfirmed⟩ := h
    exact hconfirmed
  | resolve t => simp [Ready] at h
  | store s => cases h.1
  | _ => cases h

end Readiness

/-! ## What a request adds to the records -/

section Grows

variable {place : Key → ℕ} {m : StoreMoment} {c : ℕ} {x : Choice} {o : Command} {ans : Ans o}
  {w' : Store} {i : Request} {u f h : String} {s : Session}

theorem past_performed (d : ℕ) : (m.performed c o ans w').past d = m.past d ∨
    d = c ∧ (m.performed c o ans w').past d = ⟨o, ans⟩ :: m.past d := by
  by_cases hd : d = c
  · subst hd
    exact .inr ⟨rfl, Moment.past_performed_self ..⟩
  · exact .inl (Moment.past_performed_other _ (Ne.symm hd) ..)

theorem suffix_performed (d : ℕ) : m.past d <:+ (m.performed c o ans w').past d := by
  obtain hsame | ⟨-, hmore⟩ := @past_performed m c o ans w' d
  · exact hsame.symm ▸ List.suffix_rfl
  · exact hmore.symm ▸ List.suffix_cons ..

theorem brought_performed :
    Brought (m.performed c o ans w') s ↔ Brought m s ∨ brings o = some s := by
  constructor
  · rintro ⟨d, e, hmem, hs⟩
    obtain hsame | ⟨-, hmore⟩ := @past_performed m c o ans w' d
    · exact .inl ⟨d, e, hsame ▸ hmem, hs⟩
    · rw [hmore] at hmem
      obtain rfl | hmem := List.mem_cons.mp hmem
      · exact .inr hs
      · exact .inl ⟨d, e, hmem, hs⟩
  · rintro (⟨d, e, hmem, hs⟩ | hs)
    · exact ⟨d, e, (suffix_performed d).mem hmem, hs⟩
    · exact ⟨c, ⟨o, ans⟩, by simp, hs⟩

theorem Brought.mono (hb : Brought m s) : Brought (m.performed c o ans w') s :=
  brought_performed.mpr (.inl hb)

theorem BelongsTo.mono (hb : BelongsTo m u f h) : BelongsTo (m.performed c o ans w') u f h := by
  obtain ⟨s, hs, hrest⟩ := hb
  exact ⟨s, hs.mono, hrest⟩

theorem Sound.mono {roster : UserRoster} (hs : Sound m u roster) :
    Sound (m.performed c o ans w') u roster where
  paired := hs.paired
  filed f family hlookup := by
    obtain ⟨⟨s, hb, hus⟩, hlive⟩ := hs.filed f family hlookup
    exact ⟨⟨s, hb.mono, hus⟩, fun hne => (hlive hne).mono⟩

/-- A hash belongs to one family of one user. -/
theorem Records.belongs (hr : Records m) {v g : String} (hb : BelongsTo m u f h)
    (hb' : BelongsTo m v g h) : u = v ∧ f = g := by
  obtain ⟨s, hs, rfl, rfl, rfl⟩ := hb
  obtain ⟨t, ht, hhash, rfl, rfl⟩ := hb'
  obtain rfl := hr.unique s t hs ht hhash.symm
  exact ⟨rfl, rfl⟩

/-- The session that a rotation has read, and still finds, has the replacement's user and
family. -/
theorem Records.rotation (hr : Records m) {r live : Session} {roster : UserRoster} {a : Rotation}
    (hfound : Found (m.past c) h live) (hfrom : RotationFrom h r live roster a) :
    a.liveHash = h ∧ a.replacement = r ∧ live.userId = r.userId ∧ live.familyId = r.familyId ∧
      ∃ record, a.record = some record := by
  obtain ⟨-, hb⟩ := hr.found c h live hfound
  obtain ⟨hlegacy, -⟩ | ⟨hfamily, record, hrecord, -⟩ := hfrom.record
  · exact absurd hlegacy (hr.named live hb).2
  · exact ⟨hfrom.liveHash, hfrom.replacement, hfrom.user, hfamily, record, hrecord⟩

/-- A session that is brought is the first of its family, or follows one of the same user. -/
theorem Records.newcomer (hr : Records m) (hready : Ready i (m.past c) o)
    (hkeeps : KeepsRosters m c x o) (hs : brings o = some s) : s.familyId ≠ "" ∧
      ((∀ t, Brought m t → t.familyId ≠ s.familyId) ∨
        ∃ t, Brought m t ∧ t.familyId = s.familyId ∧ t.userId = s.userId) := by
  cases o with
  | store t =>
    obtain rfl := Option.some.inj hs
    exact ⟨ne_empty_of_isValidFamilyId (ready_store hready), .inl (hkeeps.newFamily t rfl)⟩
  | rotate a =>
    obtain rfl := Option.some.inj hs
    obtain ⟨h, r, live, roster, -, hfound, -, hfrom⟩ := ready_rotate hready
    obtain ⟨-, hreplacement, huser, hfamily, -⟩ := hr.rotation hfound hfrom
    rw [hreplacement]
    exact ⟨ne_empty_of_isValidFamilyId hfrom.valid,
      .inr ⟨live, (hr.found c h live hfound).2, hfamily, huser⟩⟩
  | _ => cases hs

/-- What a sound roster has deleted was a session of the user. -/
theorem Sound.belongs {roster : UserRoster} (hsound : Sound m u roster)
    (hkey : (∃ f family, roster.families.lookup f = some family ∧ Key.session h ∈ family.entries) ∨
      Key.session h ∈ roster.deleteKeys) : ∃ f, BelongsTo m u f h := by
  obtain ⟨f, family, hlookup, hentry⟩ | hdelete := hkey
  · obtain ⟨rfl, hne⟩ := session_mem_entries.mp hentry
    exact ⟨f, (hsound.filed f family hlookup).2 hne⟩
  · obtain ⟨hne, f, family, hlookup, rfl⟩ :=
      (hsound.paired h).mp (session_mem_deleteKeys_iff.mp hdelete)
    exact ⟨f, (hsound.filed f family hlookup).2 hne⟩

/-- Everything a request adds to the records. -/
theorem RostersHold.records (hi : RostersHold m) (hrunning : m.Running c i)
    (hready : Ready i (m.past c) o) (hkeeps : KeepsRosters m c x o)
    (hex : exec place x c o m.world = some (ans, w')) : Records (m.performed c o ans w') where
  unique s t hs ht hhash := by
    obtain hs | hs := brought_performed.mp hs
    · obtain ht | ht := brought_performed.mp ht
      · exact hi.unique s t hs ht hhash
      · exact absurd hhash ((hkeeps.fresh t ht).2 s hs)
    · obtain ht | ht := brought_performed.mp ht
      · exact absurd hhash.symm ((hkeeps.fresh s hs).2 t ht)
      · exact Option.some.inj (hs.symm.trans ht)
  owner s t hs ht hfamily := by
    have hnew : ∀ {s t}, Brought m s → brings o = some t → s.familyId = t.familyId →
        s.userId = t.userId := by
      intro s t hs ht hfamily
      obtain ⟨-, hfirst | ⟨live, hlive, hsame, huser⟩⟩ := hi.newcomer hready hkeeps ht
      · exact absurd hfamily (hfirst s hs)
      · exact (hi.owner s live hs hlive (hfamily.trans hsame.symm)).trans huser
    obtain hs | hs := brought_performed.mp hs
    · obtain ht | ht := brought_performed.mp ht
      · exact hi.owner s t hs ht hfamily
      · exact hnew hs ht hfamily
    · obtain ht | ht := brought_performed.mp ht
      · exact (hnew ht hs hfamily.symm).symm
      · rw [Option.some.inj (hs.symm.trans ht)]
  named s hs := by
    obtain hs | hs := brought_performed.mp hs
    · exact hi.named s hs
    · exact ⟨(hkeeps.fresh s hs).1, (hi.newcomer hready hkeeps hs).1⟩
  found d h s hs := by
    obtain hsame | ⟨-, hmore⟩ := @past_performed m c o ans w' d
    · obtain ⟨hhash, hb⟩ := hi.found d h s (by rwa [hsame] at hs)
      exact ⟨hhash, hb.mono⟩
    rw [hmore] at hs
    obtain heq | hs := List.mem_cons.mp hs
    · cases heq
      obtain ⟨hhash, hb⟩ := hi.kept h s (reply_ok hex)
      exact ⟨hhash, hb.mono⟩
    · obtain ⟨hhash, hb⟩ := hi.found d h s hs
      exact ⟨hhash, hb.mono⟩
  sound d u roster hread := by
    obtain hsame | ⟨-, hmore⟩ := @past_performed m c o ans w' d
    · exact (hi.sound d u roster (by rwa [hsame] at hread)).mono
    rw [hmore] at hread
    obtain heq | hread := List.mem_cons.mp hread
    · cases heq
      have hroster : m.world.roster u = roster := reply_ok hex
      exact hroster ▸ (hi.current u).mono
    · exact (hi.sound d u roster hread).mono
  submitted d h hk := by
    obtain hsame | ⟨-, hmore⟩ := @past_performed m c o ans w' d
    · obtain ⟨u, f, hb⟩ := hi.submitted d h (by rwa [hsame] at hk)
      exact ⟨u, f, hb.mono⟩
    rw [hmore] at hk
    obtain ⟨keys, ans', heq, hsent⟩ | hk := submitted_cons.mp hk
    · cases heq
      obtain ⟨u, roster, hread, hkey⟩ := ready_batchDelete hready _ hsent
      obtain ⟨f, hb⟩ := (hi.sound c u roster hread).belongs hkey
      exact ⟨u, f, hb.mono⟩
    · obtain ⟨u, f, hb⟩ := hi.submitted d h hk
      exact ⟨u, f, hb.mono⟩
  rotating d h r roster hbegan hread := by
    have hasked : .began d (.rotate h r) ∈ m.history := by simpa using hbegan
    obtain hsame | ⟨rfl, hmore⟩ := @past_performed m c o ans w' d
    · exact hi.rotating d h r roster hasked (by rwa [hsame] at hread)
    rw [hmore] at hread
    obtain heq | hread := List.mem_cons.mp hread
    · cases heq
      have hroster : m.world.roster r.userId = roster := reply_ok hex
      obtain rfl := (hrunning.asked _).mp hasked
      obtain ⟨-, live, hfound, huser⟩ := hready
      obtain ⟨t, ht⟩ := Option.isSome_iff_exists.mp (hkeeps.stillLive h r _ hasked rfl)
      obtain ⟨hhash, hb⟩ := hi.kept h t ht
      obtain ⟨hhash', hb'⟩ := hi.found d h live hfound
      obtain rfl := hi.unique t live hb hb' (hhash.trans hhash'.symm)
      obtain ⟨family, hlookup, hlive⟩ := hi.listed h t ht
      rw [huser, hroster] at hlookup
      refine ((hroster ▸ hi.current r.userId).paired h).mpr ⟨?_, _, family, hlookup, hlive⟩
      exact hhash ▸ (hi.named t hb).1
    · exact hi.rotating d h r roster hasked hread

end Grows

/-! ## What a request does to the rosters -/

section Rosters

variable {m m' : StoreMoment} {w w' : Store} {u v f h : String} {item : RosterItem}

theorem roster_of_lookup (hitem : w.rosters.lookup u = some item) : w.roster u = .fromItem item := by
  rw [Store.roster, hitem]

theorem roster_of_insert (hrosters : w'.rosters = w.rosters.insert u item) (v : String) :
    w'.roster v = if v = u then .fromItem item else w.roster v := by
  rw [Store.roster, Store.roster, hrosters, Table.lookup_insert_ite]
  by_cases hv : v = u
  · rw [if_pos hv, if_pos hv]
  · rw [if_neg hv, if_neg hv]

theorem roster_of_eq (hrosters : w'.rosters = w.rosters) (v : String) : w'.roster v = w.roster v := by
  rw [Store.roster, Store.roster, hrosters]

/-- A roster that names nothing. -/
theorem sound_empty : Sound m u { sessions := [], families := ∅ } where
  paired h := by
    constructor
    · exact fun hh => absurd hh List.not_mem_nil
    · rintro ⟨-, f, family, hlookup, -⟩
      cases hlookup
  filed f family hlookup := by cases hlookup

/-- The entry of a family is replaced, and its live hash in the sessions. -/
theorem Sound.refiled {roster : UserRoster} {sessions : List String} {family : FamilyRoster}
    {old : String} (hs : Sound m' u roster) (hr : Records m')
    (hold : ∀ h ∈ roster.sessions, h = old ↔
      ∃ family, roster.families.lookup f = some family ∧ family.live = h)
    (hsessions : ∀ h, h ∈ sessions ↔
      h ≠ "" ∧ (h = family.live ∨ h ∈ roster.sessions ∧ h ≠ old))
    (howner : ∃ s, Brought m' s ∧ s.userId = u ∧ s.familyId = f)
    (hlive : family.live ≠ "" → BelongsTo m' u f family.live) :
    Sound m' u { sessions := sessions, families := roster.families.insert f family } where
  paired h := by
    rw [hsessions]
    refine and_congr_right fun hne => ⟨?_, ?_⟩
    · rintro (rfl | ⟨hh, hother⟩)
      · exact ⟨f, family, AList.lookup_insert _, rfl⟩
      · obtain ⟨-, g, family', hlookup, hlive'⟩ := (hs.paired h).mp hh
        have hg : g ≠ f := by
          rintro rfl
          exact hother ((hold h hh).mpr ⟨family', hlookup, hlive'⟩)
        exact ⟨g, family', (AList.lookup_insert_ne hg).trans hlookup, hlive'⟩
    · rintro ⟨g, family', hlookup, rfl⟩
      by_cases hg : g = f
      · subst hg
        obtain rfl := Option.some.inj ((AList.lookup_insert _).symm.trans hlookup)
        exact .inl rfl
      · rw [AList.lookup_insert_ne hg] at hlookup
        have hh := (hs.paired family'.live).mpr ⟨hne, g, family', hlookup, rfl⟩
        refine .inr ⟨hh, fun heq => hg ?_⟩
        obtain ⟨family'', hlookup'', heq''⟩ := (hold _ hh).mp heq
        have hbelongs := (hs.filed f family'' hlookup'').2 (heq'' ▸ hne)
        rw [heq''] at hbelongs
        exact (hr.belongs ((hs.filed g family' hlookup).2 hne) hbelongs).2
  filed g family' hlookup := by
    by_cases hg : g = f
    · subst hg
      obtain rfl := Option.some.inj ((AList.lookup_insert _).symm.trans hlookup)
      exact ⟨howner, hlive⟩
    · rw [AList.lookup_insert_ne hg] at hlookup
      exact hs.filed g family' hlookup

/-- The entry of a family is taken away, and its live hash from the sessions. -/
theorem Sound.dropped {roster : UserRoster} {live : String} (hs : Sound m' u roster)
    (hr : Records m')
    (hentry : ∀ family, roster.families.lookup f = some family → family.live = live)
    (hlive : live ≠ "" → BelongsTo m' u f live) :
    Sound m' u { sessions := roster.sessions.filter (· != live),
                 families := roster.families.erase f } where
  paired h := by
    rw [List.mem_filter, hs.paired, bne_iff_ne]
    constructor
    · rintro ⟨⟨hne, g, family, hlookup, rfl⟩, hother⟩
      have hg : g ≠ f := by
        rintro rfl
        exact hother (hentry family hlookup)
      exact ⟨hne, g, family, (AList.lookup_erase_ne hg).trans hlookup, rfl⟩
    · rintro ⟨hne, g, family, hlookup, rfl⟩
      rw [Table.lookup_erase_ite] at hlookup
      split at hlookup
      · cases hlookup
      · rename_i hg
        refine ⟨⟨hne, g, family, hlookup, rfl⟩, ?_⟩
        rintro rfl
        exact hg (hr.belongs ((hs.filed g family hlookup).2 hne) (hlive hne)).2
  filed g family hlookup := by
    rw [Table.lookup_erase_ite] at hlookup
    split at hlookup
    · cases hlookup
    · exact hs.filed g family hlookup

end Rosters

/-! ## What a request does to the table -/

/-- The family has a live session of the user, or is new: only then does its entry change. -/
def Stirs (m : StoreMoment) (u f : String) : Prop :=
  (∃ h s, m.world.sessions.lookup h = some s ∧ s.userId = u ∧ s.familyId = f) ∨
    ∀ t, Brought m t → t.familyId ≠ f

/-- The session is the one that the request has brought, and is there. -/
def Arrives (m : StoreMoment) (o : Command) (w' : Store) (h : String) (s : Session) : Prop :=
  brings o = some s ∧ s.refreshTokenHash = h ∧ w'.sessions.lookup h = some s ∧
    Stirs m s.userId s.familyId

/-- What one request does to the sessions and to the entries of the rosters. -/
structure Effect (m : StoreMoment) (c : ℕ) (o : Command) (ans : Ans o) (w' : Store) : Prop where
  /-- A session that is there now was there, or has been brought. -/
  arrives : ∀ h s, w'.sessions.lookup h = some s →
    m.world.sessions.lookup h = some s ∨ Arrives m o w' h s
  /-- A session that is gone is no longer named, or is among the keys of the request. -/
  leaves : ∀ h s, m.world.sessions.lookup h = some s → w'.sessions.lookup h = none →
    (∀ u f family, (w'.roster u).families.lookup f = some family → family.live ≠ h) ∨
      ∃ keys, o = .batchDelete keys ∧ .session h ∈ keys
  /-- An entry that is there now was there, or belongs to a family that may change. -/
  entries : ∀ u f family, (w'.roster u).families.lookup f = some family →
    (m.world.roster u).families.lookup f = some family ∨
      Stirs m u f ∧ (family.live = "" ∨ ∃ s, Arrives m o w' family.live s)
  listed : ∀ h s, w'.sessions.lookup h = some s →
    ∃ family, (w'.roster s.userId).families.lookup s.familyId = some family ∧ family.live = h
  current : ∀ u, Sound (m.performed c o ans w') u (w'.roster u)

section Performed

variable {place : Key → ℕ} {m : StoreMoment} {c : ℕ} {x : Choice} {o : Command} {ans : Ans o}
  {w' : Store} {i : Request} {u f h : String} {s : Session} {past : Past}

/-- What a call has found gone from the roster was a session. -/
theorem Records.belongs_of_forgotten (hr : Records m) (hf : Forgotten (m.past c) h) :
    ∃ u f, BelongsTo m u f h := by
  obtain ⟨u, e, older, hsuffix, hby⟩ := hf
  have hle : older <:+ m.past c := (List.suffix_cons e older).trans hsuffix
  obtain ⟨f, ⟨roster, family, hread, hlookup, rfl, hne⟩, -⟩ | ⟨⟨roster, hread, hnamed⟩, -⟩ := hby
  · exact ⟨u, f, ((hr.sound c u roster (hread.mono hle)).filed f family hlookup).2 hne⟩
  · have hsound := hr.sound c u roster (hread.mono hle)
    obtain ⟨hne, f, family, hlookup, rfl⟩ := (hsound.paired h).mp hnamed
    exact ⟨u, f, (hsound.filed f family hlookup).2 hne⟩

theorem forgotten_cons {e : Performed Ans} (hf : Forgotten (e :: past) h) :
    Forgotten past h ∨ ∃ u, ForgottenBy u e past h := by
  obtain ⟨u, e', older, hsuffix, hby⟩ := hf
  obtain heq | hle := List.suffix_cons_iff.mp hsuffix
  · obtain ⟨rfl, rfl⟩ := List.cons.inj heq
    exact .inr ⟨u, hby⟩
  · exact .inl ⟨u, e', older, hle, hby⟩

theorem fromItem_dropFamily (item : RosterItem) (f live : String) :
    UserRoster.fromItem (item.dropFamily f live) =
      { sessions := item.sessions.filter (· != live),
        families := (UserRoster.fromItem item).families.erase f } := by
  obtain ⟨sessions, families⟩ := item
  cases families <;> rfl

/-- The table after a roster has been cleared of a family. -/
theorem clearFamily_cases {live : String} {ans : Answer Unit}
    (hex : exec place x c (.clearFamily u f live) m.world = some (ans, w')) :
    (w' = m.world ∧ ans ≠ .ok ()) ∨ x.lands = true ∧ ∃ item,
      m.world.rosters.lookup u = some item ∧
        w' = { m.world with rosters := m.world.rosters.insert u (item.dropFamily f live) } :=
  updateItem_cases hex

/-- A request that forgets a hash leaves no entry that points at it. -/
theorem RostersHold.forgets (hi : RostersHold m)
    (hex : exec place x c o m.world = some (ans, w')) (hrec : Records (m.performed c o ans w'))
    (heff : Effect m c o ans w') (hby : ForgottenBy u ⟨o, ans⟩ (m.past c) h) :
    ∀ v g family, (w'.roster v).families.lookup g = some family → family.live ≠ h := by
  rintro v g family hlookup rfl
  have hbelongs := ((heff.current v).filed g family hlookup).2
  obtain ⟨f, ⟨roster, family', hread, hlookup', heq, hne⟩, hgone⟩ | ⟨⟨roster, hread, hnamed⟩, hgone⟩ :=
    hby
  · have hb : BelongsTo m u f family.live :=
      heq ▸ ((hi.sound c u roster hread).filed f family' hlookup').2 (heq ▸ hne)
    obtain ⟨rfl, rfl⟩ := hrec.belongs hb.mono (hbelongs hne)
    obtain ⟨fresh, he, hgone⟩ | he := hgone
    · cases he
      rw [reply_read hex, show m.world.roster u = fresh from reply_ok hex] at hlookup
      exact hgone family hlookup rfl
    · cases he
      obtain ⟨-, hans⟩ | ⟨-, item, -, rfl⟩ := clearFamily_cases hex
      · exact hans rfl
      · rw [roster_of_insert rfl, if_pos rfl, fromItem_dropFamily, Table.lookup_erase_ite,
          if_pos rfl] at hlookup
        cases hlookup
  · have hsound := hi.sound c u roster hread
    obtain ⟨hne, f, family', hlookup', heq⟩ := (hsound.paired _).mp hnamed
    have hb : BelongsTo m u f family.live :=
      heq ▸ (hsound.filed f family' hlookup').2 (heq ▸ hne)
    obtain ⟨rfl, rfl⟩ := hrec.belongs hb.mono (hbelongs hne)
    obtain ⟨fresh, he, hgone⟩ | he := hgone
    · cases he
      have hroster : m.world.roster u = fresh := reply_ok hex
      rw [reply_read hex, hroster] at hlookup
      exact hgone (((hroster ▸ hi.current u).paired _).mpr ⟨hne, f, family, hlookup, rfl⟩)
    · cases he
      obtain ⟨-, hans⟩ | ⟨-, item, -, rfl⟩ := updateItem_cases hex
      · exact hans rfl
      · rw [roster_of_insert rfl, if_pos rfl] at hlookup
        cases hlookup

/-- What has been forgotten stays so. -/
theorem RostersHold.stays_forgotten (hi : RostersHold m) (hkeeps : KeepsRosters m c x o)
    (heff : Effect m c o ans w') {d : ℕ} (hf : Forgotten (m.past d) h) {family : FamilyRoster}
    (hlookup : (w'.roster u).families.lookup f = some family) : family.live ≠ h := by
  obtain ⟨v, g, t, ht, hhash, -⟩ := hi.belongs_of_forgotten hf
  obtain hold | ⟨-, hempty | ⟨s, hs, hfresh, -⟩⟩ := heff.entries u f family hlookup
  · exact hi.forgotten d h hf u f family hold
  · rw [hempty, ← hhash]
    exact (hi.named t ht).1.symm
  · rintro rfl
    exact (hkeeps.fresh s hs).2 t ht (hhash.trans hfresh.symm)

/-- What has been deleted stays so. -/
theorem RostersHold.stays_processed (hi : RostersHold m) (hkeeps : KeepsRosters m c x o)
    (heff : Effect m c o ans w') {d : ℕ} (hp : Processed (m.past d) (.session h)) :
    w'.sessions.lookup h = none := by
  cases hs : w'.sessions.lookup h with
  | none => rfl
  | some s =>
    obtain hold | ⟨hb, hhash, -⟩ := heff.arrives h s hs
    · rw [hi.processed d h hp] at hold
      cases hold
    · obtain ⟨u, f, t, ht, hhash', -⟩ := hi.submitted d h hp.submitted
      exact absurd (hhash'.trans hhash.symm) ((hkeeps.fresh s hb).2 t ht)

/-- An entry that a call has confirmed stays as it is. -/
theorem RostersHold.stays_confirmed (hi : RostersHold m) (heff : Effect m c o ans w') {d : ℕ}
    {live : String} (hc : FamilyConfirmed (m.past d) u f live) :
    (∃ s, Brought (m.performed c o ans w') s ∧ s.userId = u ∧ s.familyId = f) ∧
    (∀ h s, w'.sessions.lookup h = some s → s.userId = u → s.familyId ≠ f) ∧
    ∀ family, (w'.roster u).families.lookup f = some family → family.live = live := by
  obtain ⟨⟨s, hs, huser, hfamily⟩, hnone, hentry⟩ := hi.confirmed d u f live hc
  have hquiet : ¬ Stirs m u f := by
    rintro (⟨h, t, ht, rfl, hf⟩ | hnew)
    · exact hnone h t ht rfl hf
    · exact hnew s hs hfamily
  refine ⟨⟨s, hs.mono, huser, hfamily⟩, ?_, fun family hlookup => ?_⟩
  · rintro h t ht rfl rfl
    obtain hold | ⟨-, -, -, hstirs⟩ := heff.arrives h t ht
    · exact hnone h t hold rfl rfl
    · exact hquiet hstirs
  · obtain hold | ⟨hstirs, -⟩ := heff.entries u f family hlookup
    · exact hentry family hold
    · exact absurd hstirs hquiet

/-- An entry of which every key has been processed has no live session. -/
theorem RostersHold.confirms (hi : RostersHold m) {family : FamilyRoster}
    (hlookup : (m.world.roster u).families.lookup f = some family)
    (hdone : ∀ k ∈ family.entries, Processed (m.past c) k) :
    (∃ s, Brought m s ∧ s.userId = u ∧ s.familyId = f) ∧
    ∀ h s, m.world.sessions.lookup h = some s → s.userId = u → s.familyId ≠ f := by
  refine ⟨((hi.current u).filed f family hlookup).1, ?_⟩
  rintro h s hs rfl rfl
  obtain ⟨family', hlookup', rfl⟩ := hi.listed h s hs
  obtain rfl := Option.some.inj (hlookup.symm.trans hlookup')
  obtain ⟨hhash, hb⟩ := hi.kept _ s hs
  have hkey := session_mem_entries.mpr ⟨rfl, hhash ▸ (hi.named s hb).1⟩
  rw [hi.processed c _ (hdone _ hkey)] at hs
  cases hs

theorem RostersHold.performed (hi : RostersHold m) (hrunning : m.Running c i)
    (hready : Ready i (m.past c) o) (hkeeps : KeepsRosters m c x o)
    (hex : exec place x c o m.world = some (ans, w')) (hrec : Records (m.performed c o ans w'))
    (heff : Effect m c o ans w') : RostersHold (m.performed c o ans w') where
  toRecords := hrec
  kept h s hs := by
    obtain hs | ⟨hb, hhash, -⟩ := heff.arrives h s hs
    · exact (hi.kept h s hs).imp_right Brought.mono
    · exact ⟨hhash, brought_performed.mpr (.inr hb)⟩
  listed := heff.listed
  current := heff.current
  pending u f family hlookup hne hdead := by
    obtain hold | ⟨-, hempty | ⟨s, -, -, hs, -⟩⟩ := heff.entries u f family hlookup
    · cases hs : m.world.sessions.lookup family.live with
      | none =>
        obtain ⟨d, j, hasked, hrevokes, hk⟩ := hi.pending u f family hold hne hs
        exact ⟨d, j, by simpa using hasked, hrevokes, hk.mono (suffix_performed d)⟩
      | some s =>
        obtain hgone | ⟨keys, rfl, hk⟩ := heff.leaves _ s hs hdead
        · exact absurd rfl (hgone u f family hlookup)
        · exact ⟨c, i, by simpa using (hrunning.asked i).mpr rfl, revokes_of_ready hready,
            keys, ans, by simp, hk⟩
    · exact absurd hempty hne
    · rw [Moment.performed_world, hs] at hdead
      cases hdead
  forgotten d h hf u f family hlookup := by
    obtain hsame | ⟨rfl, hmore⟩ := @past_performed m c o ans w' d
    · exact hi.stays_forgotten hkeeps heff (hsame ▸ hf) hlookup
    rw [hmore] at hf
    obtain hf | ⟨v, hby⟩ := forgotten_cons hf
    · exact hi.stays_forgotten hkeeps heff hf hlookup
    · exact hi.forgets hex hrec heff hby u f family hlookup
  processed d h hp := by
    obtain hsame | ⟨rfl, hmore⟩ := @past_performed m c o ans w' d
    · exact hi.stays_processed hkeeps heff (hsame ▸ hp)
    rw [hmore] at hp
    obtain ⟨keys, left, hmem, hk, hdone⟩ := hp
    obtain heq | hmem := List.mem_cons.mp hmem
    · cases heq
      obtain ⟨-, hno⟩ | ⟨-, hchange⟩ := exec_cases hex
      · exact absurd ⟨left, rfl⟩ hno
      · cases hchange with
        | batchDelete hleft =>
          rw [hleft left rfl, List.mem_filter, decide_eq_true_eq, not_and, not_not] at hdone
          rw [Moment.performed_world, sessions_removeAll, if_pos]
          exact List.mem_filter.mpr ⟨hk, decide_eq_true (hdone hk)⟩
    · exact hi.stays_processed hkeeps heff ⟨keys, left, hmem, hk, hdone⟩
  confirmed d u f live hc := by
    obtain hsame | ⟨rfl, hmore⟩ := @past_performed m c o ans w' d
    · exact hi.stays_confirmed heff (hsame ▸ hc)
    rw [hmore] at hc
    obtain ⟨roster, family, older, heq, hlookup, rfl, hdone⟩ := hc
    obtain ⟨he, rfl⟩ := List.cons.inj heq
    cases he
    have hroster : m.world.roster u = roster := reply_ok hex
    rw [← hroster] at hlookup
    obtain ⟨⟨s, hs, hus⟩, hnone⟩ := hi.confirms hlookup hdone
    have hsame : w' = m.world := reply_read hex
    refine ⟨⟨s, hs.mono, hus⟩, ?_, fun family' hlookup' => ?_⟩
    · rw [Moment.performed_world, hsame]
      exact hnone
    · rw [Moment.performed_world, hsame, hlookup] at hlookup'
      exact congrArg FamilyRoster.live (Option.some.inj hlookup').symm

end Performed

end Dynamo

end OidcExchange
