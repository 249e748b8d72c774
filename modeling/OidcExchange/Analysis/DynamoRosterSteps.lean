import OidcExchange.Analysis.DynamoRoster
import OidcExchange.Analysis.DynamoSteps

/-!
# What each request does to the roster of a user

A login files a session, a rotation files another one in the same family, and a revocation takes
an entry away; nothing else changes a roster. So the rosters agree with the sessions after every
step of a run in which no request takes a live session out of its roster.
-/

set_option autoImplicit false

namespace OidcExchange

namespace Dynamo

open Interleaving Storage

/-! ## Every request has its effect -/

section Effects

variable {place : Key → ℕ} {m : StoreMoment} {c : ℕ} {x : Choice} {i : Request} {u f h : String}
  {s : Session}

/-- A request that changes no session and no roster. -/
theorem RostersHold.effect_of_same (hi : RostersHold m) {o : Command} {ans : Ans o} {w' : Store}
    (hsessions : w'.sessions = m.world.sessions) (hrosters : w'.rosters = m.world.rosters) :
    Effect m c o ans w' where
  arrives h s hs := .inl (hsessions ▸ hs)
  leaves h s hs hgone := by
    rw [hsessions, hs] at hgone
    cases hgone
  entries u f family hlookup := .inl (roster_of_eq hrosters u ▸ hlookup)
  listed h s hs := by
    rw [roster_of_eq hrosters]
    exact hi.listed h s (hsessions ▸ hs)
  current u := by
    rw [roster_of_eq hrosters]
    exact (hi.current u).mono

/-- A live session of a user is listed in the user's item. -/
theorem RostersHold.item (hi : RostersHold m) (hs : m.world.sessions.lookup h = some s) :
    (m.world.rosters.lookup s.userId).isSome = true := by
  obtain ⟨family, hlookup, -⟩ := hi.listed h s hs
  unfold Store.roster at hlookup
  cases hitem : m.world.rosters.lookup s.userId with
  | none =>
    rw [hitem] at hlookup
    cases hlookup
  | some item => rfl

/-- The user item is made anew, with no family, and no session of the user is left. -/
theorem RostersHold.effect_of_emptied (hi : RostersHold m) {o : Command} {ans : Ans o} {w' : Store}
    {item : RosterItem} (hsessions : w'.sessions = m.world.sessions)
    (hrosters : w'.rosters = m.world.rosters.insert u item)
    (hempty : UserRoster.fromItem item = { sessions := [], families := ∅ })
    (hnone : ∀ h s, m.world.sessions.lookup h = some s → s.userId ≠ u) : Effect m c o ans w' where
  arrives h s hs := .inl (hsessions ▸ hs)
  leaves h s hs hgone := by
    rw [hsessions, hs] at hgone
    cases hgone
  entries v f family hlookup := by
    rw [roster_of_insert hrosters, hempty] at hlookup
    split at hlookup
    · cases hlookup
    · exact .inl hlookup
  listed h s hs := by
    rw [hsessions] at hs
    rw [roster_of_insert hrosters, if_neg (hnone h s hs)]
    exact hi.listed h s hs
  current v := by
    rw [roster_of_insert hrosters, hempty]
    split
    · exact sound_empty
    · exact (hi.current v).mono

/-- The entry of a family is replaced, together with the family's live session. -/
theorem RostersHold.effect_of_refiled (hi : RostersHold m) {o : Command} {ans : Ans o} {w' : Store}
    {item : RosterItem} {family : FamilyRoster} (hrec : Records (m.performed c o ans w'))
    (hstirs : Stirs m u f)
    (hrosters : w'.rosters = m.world.rosters.insert u item)
    (hfamilies : (UserRoster.fromItem item).families = (m.world.roster u).families.insert f family)
    (hsound : Sound (m.performed c o ans w') u (.fromItem item))
    (hlive : family.live = "" ∨ ∃ s, Arrives m o w' family.live s)
    (hsessions : ∀ h s, w'.sessions.lookup h = some s →
      m.world.sessions.lookup h = some s ∧ (s.userId = u → s.familyId ≠ f) ∨
        Arrives m o w' h s ∧ s.userId = u ∧ s.familyId = f ∧ family.live = h)
    (hgone : ∀ h s, m.world.sessions.lookup h = some s → w'.sessions.lookup h = none →
      s.userId = u ∧ s.familyId = f ∧ family.live ≠ h) : Effect m c o ans w' where
  arrives h s hs := (hsessions h s hs).imp And.left And.left
  leaves h s hs hnone := by
    left
    rintro v g family' hlookup rfl
    obtain ⟨rfl, rfl, hne⟩ := hgone _ s hs hnone
    obtain ⟨hhash, hb⟩ := hi.kept _ s hs
    have hbelongs : BelongsTo m s.userId s.familyId family'.live := ⟨s, hb, hhash, rfl, rfl⟩
    rw [roster_of_insert hrosters] at hlookup
    by_cases hv : v = s.userId
    · subst hv
      rw [if_pos rfl] at hlookup
      have hbelongs' := (hsound.filed g family' hlookup).2 (hhash ▸ (hi.named s hb).1)
      obtain ⟨-, rfl⟩ := hrec.belongs hbelongs.mono hbelongs'
      rw [hfamilies, AList.lookup_insert] at hlookup
      obtain rfl := Option.some.inj hlookup
      exact hne rfl
    · rw [if_neg hv] at hlookup
      have hbelongs' := ((hi.current v).filed g family' hlookup).2 (hhash ▸ (hi.named s hb).1)
      exact hv (hi.belongs hbelongs' hbelongs).1
  entries v g family' hlookup := by
    rw [roster_of_insert hrosters] at hlookup
    by_cases hv : v = u
    · subst hv
      rw [if_pos rfl, hfamilies] at hlookup
      by_cases hg : g = f
      · subst hg
        obtain rfl := Option.some.inj ((AList.lookup_insert _).symm.trans hlookup)
        exact .inr ⟨hstirs, hlive⟩
      · exact .inl ((AList.lookup_insert_ne hg).symm.trans hlookup)
    · rw [if_neg hv] at hlookup
      exact .inl hlookup
  listed h s hs := by
    rw [roster_of_insert hrosters]
    obtain ⟨hold, hother⟩ | ⟨-, rfl, rfl, rfl⟩ := hsessions h s hs
    · obtain ⟨family', hlookup, hh⟩ := hi.listed h s hold
      by_cases huser : s.userId = u
      · rw [if_pos huser, hfamilies, AList.lookup_insert_ne (hother huser), ← huser]
        exact ⟨family', hlookup, hh⟩
      · rw [if_neg huser]
        exact ⟨family', hlookup, hh⟩
    · rw [if_pos rfl, hfamilies]
      exact ⟨family, AList.lookup_insert _, rfl⟩
  current v := by
    rw [roster_of_insert hrosters]
    by_cases hv : v = u
    · rw [if_pos hv, hv]
      exact hsound
    · rw [if_neg hv]
      exact (hi.current v).mono

theorem RostersHold.effect_of_store (hi : RostersHold m) {ans : Answer Outcome}
    {item item' : RosterItem} {w' : Store} (hkeeps : KeepsRosters m c x (.store s))
    (hrec : Records (m.performed c (.store s) ans w'))
    (hw' : w' = { m.world with
      sessions := m.world.sessions.insert s.refreshTokenHash s
      rosters := m.world.rosters.insert s.userId item' })
    (hitem : m.world.rosters.lookup s.userId = some item)
    (hfile : item.file s.refreshTokenHash s.familyId = some item') :
    Effect m c (.store s) ans w' := by
  have hroster := roster_of_lookup hitem
  obtain ⟨families, hfamilies, rfl⟩ := Option.map_eq_some_iff.mp hfile
  have hold : (m.world.roster s.userId).families = families := by
    rw [hroster, UserRoster.fromItem, hfamilies]
    rfl
  have hsessions : (m.world.roster s.userId).sessions = item.sessions := by
    rw [hroster]
    rfl
  have hne := (hkeeps.fresh s rfl).1
  have hnew := hkeeps.newFamily s rfl
  have hbrought : Brought (m.performed c (.store s) ans w') s := brought_performed.mpr (.inr rfl)
  have harrives : Arrives m (.store s) w' s.refreshTokenHash s :=
    ⟨rfl, rfl, by rw [hw']; exact AList.lookup_insert _, .inr hnew⟩
  have hsound : Sound (m.performed c (.store s) ans w') s.userId
      { sessions := item.sessions.insert s.refreshTokenHash
        families := (m.world.roster s.userId).families.insert s.familyId
          { live := s.refreshTokenHash, members := [s.refreshTokenHash] } } := by
    have hpaired := (hi.current s.userId).paired
    refine @Sound.refiled _ _ _ _ _ _ "" (hi.current s.userId).mono hrec (fun h hh => ?_)
      (fun h => ?_) ?_ ?_
    · refine ⟨fun heq => absurd heq ((hpaired h).mp hh).1, ?_⟩
      rintro ⟨family, hlookup, -⟩
      obtain ⟨⟨t, ht, -, hfamily⟩, -⟩ := (hi.current s.userId).filed _ family hlookup
      exact absurd hfamily (hnew t ht)
    · rw [List.mem_insert_iff, ← hsessions]
      constructor
      · rintro (rfl | hh)
        · exact ⟨hne, .inl rfl⟩
        · exact ⟨((hpaired h).mp hh).1, .inr ⟨hh, ((hpaired h).mp hh).1⟩⟩
      · rintro ⟨-, rfl | ⟨hh, -⟩⟩
        · exact .inl rfl
        · exact .inr hh
    · exact ⟨s, hbrought, rfl, rfl⟩
    · exact fun _ => ⟨s, hbrought, rfl, rfl, rfl⟩
  refine hi.effect_of_refiled hrec (.inr hnew) (by rw [hw']) (by rw [hold]; rfl) ?_
    (.inr ⟨s, harrives⟩) ?_ ?_
  · rw [hold] at hsound
    exact hsound
  · intro h t ht
    rw [hw', Table.lookup_insert_ite] at ht
    split at ht
    · rename_i heq
      obtain rfl := Option.some.inj ht
      subst heq
      exact .inr ⟨harrives, rfl, rfl, rfl⟩
    · exact .inl ⟨ht, fun _ => hnew t (hi.kept h t ht).2⟩
  · intro h t ht hgone
    rw [hw', Table.lookup_insert_ite, ht] at hgone
    split at hgone <;> cases hgone

/-- The session of a rotation, or of a revocation, as it is in the table now. -/
theorem RostersHold.live_of_found (hi : RostersHold m) {live : Session}
    (hfound : Found (m.past c) h live) (hsome : (m.world.sessions.lookup h).isSome = true) :
    m.world.sessions.lookup h = some live := by
  obtain ⟨t, ht⟩ := Option.isSome_iff_exists.mp hsome
  obtain ⟨hhash, hb⟩ := hi.kept h t ht
  obtain ⟨hhash', hb'⟩ := hi.found c h live hfound
  obtain rfl := hi.unique t live hb hb' (hhash.trans hhash'.symm)
  exact ht

/-- A family has one live session. -/
theorem RostersHold.alone (hi : RostersHold m) {k : String} {t : Session}
    (hs : m.world.sessions.lookup h = some s) (ht : m.world.sessions.lookup k = some t)
    (huser : t.userId = s.userId) (hfamily : t.familyId = s.familyId) : k = h := by
  obtain ⟨family, hlookup, rfl⟩ := hi.listed h s hs
  obtain ⟨family', hlookup', rfl⟩ := hi.listed k t ht
  rw [huser, hfamily, hlookup] at hlookup'
  exact (congrArg FamilyRoster.live (Option.some.inj hlookup')).symm

theorem RostersHold.effect_of_rotate (hi : RostersHold m) {ans : Answer Outcome} {a : Rotation}
    {item item' : RosterItem} {w' : Store} (hkeeps : KeepsRosters m c x (.rotate a))
    (hready : Ready i (m.past c) (.rotate a)) (hrec : Records (m.performed c (.rotate a) ans w'))
    (hlands : x.lands = true)
    (hw' : w' = { m.world with
      sessions := (m.world.sessions.erase a.liveHash).insert a.replacement.refreshTokenHash
        a.replacement
      retired := a.record.elim m.world.retired (m.world.retired.insert a.liveHash)
      rosters := m.world.rosters.insert a.replacement.userId item' })
    (hsome : (m.world.sessions.lookup a.liveHash).isSome = true)
    (hitem : m.world.rosters.lookup a.replacement.userId = some item)
    (hrefile : a.refile item = some item') : Effect m c (.rotate a) ans w' := by
  obtain ⟨h, r, live, roster, -, hfound, hread, hfrom⟩ := ready_rotate hready
  obtain ⟨rfl, rfl, huser, hfamily, record, hrecord⟩ := hi.rotation hfound hfrom
  have hlive := hi.live_of_found hfound hsome
  rw [Rotation.refile, hrecord] at hrefile
  obtain ⟨families, hfamilies, hmap⟩ := Option.bind_eq_some_iff.mp hrefile
  obtain ⟨family, hlookup, rfl⟩ := Option.map_eq_some_iff.mp hmap
  have hold : (m.world.roster a.replacement.userId).families = families := by
    rw [roster_of_lookup hitem, UserRoster.fromItem, hfamilies]
    rfl
  have hpointed : family.live = a.liveHash := by
    obtain ⟨family', hlookup', hlive'⟩ := hi.listed _ live hlive
    rw [huser, hfamily, hold, hlookup] at hlookup'
    exact Option.some.inj hlookup' ▸ hlive'
  obtain ⟨hne, hfresh⟩ := hkeeps.fresh a.replacement rfl
  have hstirs : Stirs m a.replacement.userId a.replacement.familyId :=
    .inl ⟨_, live, hlive, huser, hfamily⟩
  have hbrought : Brought (m.performed c (.rotate a) ans w') a.replacement :=
    brought_performed.mpr (.inr rfl)
  have harrives : Arrives m (.rotate a) w' a.replacement.refreshTokenHash a.replacement :=
    ⟨rfl, rfl, by rw [hw']; exact AList.lookup_insert _, hstirs⟩
  have hmem : ∀ k, k ∈ a.sessions ↔ k ≠ "" ∧ (k = a.replacement.refreshTokenHash ∨
      k ∈ (m.world.roster a.replacement.userId).sessions ∧ k ≠ a.liveHash) := by
    intro k
    have hsame := hkeeps.sameRoster a rfl hlands hsome roster hread k
    rw [hfrom.sessions, List.mem_append, List.mem_filter, List.mem_singleton, bne_iff_ne, hsame]
    constructor
    · rintro (⟨hk, hother⟩ | rfl)
      · exact ⟨(((hi.current _).paired k).mp hk).1, .inr ⟨hk, hother⟩⟩
      · exact ⟨hne, .inl rfl⟩
    · rintro ⟨-, rfl | hk⟩
      · exact .inr rfl
      · exact .inl hk
  have hsound : Sound (m.performed c (.rotate a) ans w') a.replacement.userId
      { sessions := a.sessions
        families := (m.world.roster a.replacement.userId).families.insert a.replacement.familyId
          { live := a.replacement.refreshTokenHash
            members := family.members ∪ [a.liveHash, a.replacement.refreshTokenHash] } } := by
    refine @Sound.refiled _ _ _ _ _ _ a.liveHash (hi.current _).mono hrec (fun k hk => ?_) hmem
      ⟨_, hbrought, rfl, rfl⟩ fun _ => ⟨_, hbrought, rfl, rfl, rfl⟩
    rw [hold]
    constructor
    · rintro rfl
      exact ⟨family, hlookup, hpointed⟩
    · rintro ⟨family', hlookup', rfl⟩
      rw [hlookup] at hlookup'
      exact Option.some.inj hlookup' ▸ hpointed
  refine hi.effect_of_refiled hrec hstirs (by rw [hw']) (by rw [hold]; rfl) ?_
    (.inr ⟨_, harrives⟩) ?_ ?_
  · rw [hold] at hsound
    exact hsound
  · intro k t ht
    rw [hw', Table.lookup_insert_ite, Table.lookup_erase_ite] at ht
    split at ht
    · rename_i heq
      obtain rfl := Option.some.inj ht
      subst heq
      exact .inr ⟨harrives, rfl, rfl, rfl⟩
    split at ht
    · cases ht
    · rename_i hother
      exact .inl ⟨ht, fun hu hf => hother (hi.alone hlive ht (hu.trans huser.symm)
        (hf.trans hfamily.symm))⟩
  · intro k t ht hgone
    rw [hw', Table.lookup_insert_ite, Table.lookup_erase_ite] at hgone
    split at hgone
    · cases hgone
    split at hgone
    · rename_i heq
      subst heq
      obtain rfl := Option.some.inj (hlive.symm.trans ht)
      obtain ⟨hhash, hb⟩ := hi.kept _ live ht
      exact ⟨huser, hfamily, fun heq => hfresh live hb (hhash.trans heq.symm)⟩
    · rw [ht] at hgone
      cases hgone

theorem RostersHold.effect_of_revoke (hi : RostersHold m) {ans : Answer Outcome}
    {item item' : RosterItem} {w' : Store} (hready : Ready i (m.past c) (.revoke h u f))
    (hrec : Records (m.performed c (.revoke h u f) ans w'))
    (hw' : w' = { m.world with
      sessions := m.world.sessions.erase h, rosters := m.world.rosters.insert u item' })
    (hsome : (m.world.sessions.lookup h).isSome = true)
    (hitem : m.world.rosters.lookup u = some item) (hunfile : item.unfile h f = some item') :
    Effect m c (.revoke h u f) ans w' := by
  obtain ⟨live, hfound, rfl, rfl⟩ := ready_revoke hready
  have hlive := hi.live_of_found hfound hsome
  obtain ⟨hhash, hb⟩ := hi.kept h live hlive
  obtain ⟨hne, hfiled⟩ := hi.named live hb
  rw [RosterItem.unfile, if_neg hfiled] at hunfile
  obtain ⟨families, hfamilies, hmap⟩ := Option.bind_eq_some_iff.mp hunfile
  obtain ⟨family, hlookup, rfl⟩ := Option.map_eq_some_iff.mp hmap
  have hold : (m.world.roster live.userId).families = families := by
    rw [roster_of_lookup hitem, UserRoster.fromItem, hfamilies]
    rfl
  have hpointed : family.live = h := by
    obtain ⟨family', hlookup', hlive'⟩ := hi.listed h live hlive
    rw [hold, hlookup] at hlookup'
    exact Option.some.inj hlookup' ▸ hlive'
  have hstirs : Stirs m live.userId live.familyId := .inl ⟨h, live, hlive, rfl, rfl⟩
  have hsessions : (m.world.roster live.userId).sessions = item.sessions := by
    rw [roster_of_lookup hitem]
    rfl
  have hsound : Sound (m.performed c (.revoke h live.userId live.familyId) ans w') live.userId
      { sessions := item.sessions.filter (· != h)
        families := (m.world.roster live.userId).families.insert live.familyId
          { family with live := "" } } := by
    refine @Sound.refiled _ _ _ _ _ _ h (hi.current _).mono hrec (fun k hk => ?_) (fun k => ?_)
      ⟨live, hb.mono, rfl, rfl⟩ fun hno => absurd rfl hno
    · rw [hold]
      constructor
      · rintro rfl
        exact ⟨family, hlookup, hpointed⟩
      · rintro ⟨family', hlookup', rfl⟩
        rw [hlookup] at hlookup'
        exact Option.some.inj hlookup' ▸ hpointed
    · rw [List.mem_filter, bne_iff_ne, ← hsessions]
      constructor
      · rintro ⟨hk, hother⟩
        exact ⟨(((hi.current _).paired k).mp hk).1, .inr ⟨hk, hother⟩⟩
      · rintro ⟨hk, heq | hk⟩
        · exact absurd heq hk
        · exact hk
  refine hi.effect_of_refiled hrec hstirs (by rw [hw']) (by rw [hold]; rfl) ?_ (.inl rfl) ?_ ?_
  · rw [hold] at hsound
    exact hsound
  · intro k t ht
    rw [hw', Table.lookup_erase_ite] at ht
    split at ht
    · cases ht
    · rename_i hother
      exact .inl ⟨ht, fun hu hf => hother (hi.alone hlive ht hu hf)⟩
  · intro k t ht hgone
    rw [hw', Table.lookup_erase_ite] at hgone
    split at hgone
    · rename_i heq
      subst heq
      obtain rfl := Option.some.inj (hlive.symm.trans ht)
      exact ⟨rfl, rfl, fun heq => hne (hhash.trans heq.symm)⟩
    · rw [ht] at hgone
      cases hgone

theorem RostersHold.effect_of_batchDelete (hi : RostersHold m) {keys done : List Key}
    {ans : Answer (Leftover keys)} :
    Effect m c (.batchDelete keys) ans ((keys.filter (· ∈ done)).foldl (·.remove c) m.world) where
  arrives h s hs := by
    rw [sessions_removeAll] at hs
    split at hs
    · cases hs
    · exact .inl hs
  leaves h s hs hgone := by
    rw [sessions_removeAll, hs] at hgone
    split at hgone
    · rename_i hk
      exact .inr ⟨keys, rfl, (List.mem_filter.mp hk).1⟩
    · cases hgone
  entries u f family hlookup := by
    rw [roster_of_eq (removeAll_rosters ..)] at hlookup
    exact .inl hlookup
  listed h s hs := by
    rw [sessions_removeAll] at hs
    rw [roster_of_eq (removeAll_rosters ..)]
    split at hs
    · cases hs
    · exact hi.listed h s hs
  current u := by
    rw [roster_of_eq (removeAll_rosters ..)]
    exact (hi.current u).mono

theorem RostersHold.effect_of_clearFamily (hi : RostersHold m) {live : String} {ans : Answer Unit}
    {item : RosterItem} {w' : Store} (hready : Ready i (m.past c) (.clearFamily u f live))
    (hrec : Records (m.performed c (.clearFamily u f live) ans w'))
    (hw' : w' = { m.world with rosters := m.world.rosters.insert u (item.dropFamily f live) })
    (hitem : m.world.rosters.lookup u = some item) :
    Effect m c (.clearFamily u f live) ans w' := by
  have hconfirmed := ready_clearFamily hready
  obtain ⟨-, hnone, hentry⟩ := hi.confirmed c u f live hconfirmed
  have hbelongs : live ≠ "" → BelongsTo m u f live := by
    obtain ⟨roster, family, older, hpast, hlookup, rfl, -⟩ := hconfirmed
    have hread : Read (m.past c) u roster := by
      rw [hpast]
      exact List.mem_cons_self ..
    exact ((hi.sound c u roster hread).filed f family hlookup).2
  have hrosters : w'.rosters = m.world.rosters.insert u (item.dropFamily f live) := by rw [hw']
  have hroster : UserRoster.fromItem (item.dropFamily f live) =
      { sessions := (m.world.roster u).sessions.filter (· != live)
        families := (m.world.roster u).families.erase f } := by
    rw [fromItem_dropFamily, roster_of_lookup hitem]
    rfl
  constructor
  · intro h s hs
    rw [hw'] at hs
    exact .inl hs
  · intro h s hs hgone
    rw [hw', hs] at hgone
    cases hgone
  · intro v g family hlookup
    rw [roster_of_insert hrosters, hroster] at hlookup
    split at hlookup
    · rename_i hv
      subst hv
      rw [Table.lookup_erase_ite] at hlookup
      split at hlookup
      · cases hlookup
      · exact .inl hlookup
    · exact .inl hlookup
  · intro h s hs
    rw [hw'] at hs
    rw [roster_of_insert hrosters, hroster]
    obtain ⟨family, hlookup, hlive⟩ := hi.listed h s hs
    by_cases huser : s.userId = u
    · rw [if_pos huser, AList.lookup_erase_ne (hnone h s hs huser), ← huser]
      exact ⟨family, hlookup, hlive⟩
    · rw [if_neg huser]
      exact ⟨family, hlookup, hlive⟩
  · intro v
    rw [roster_of_insert hrosters, hroster]
    split
    · rename_i hv
      rw [hv]
      exact (hi.current u).mono.dropped hrec hentry fun hne => (hbelongs hne).mono
    · exact (hi.current v).mono

/-- Every request has its effect. -/
theorem RostersHold.effect (hi : RostersHold m) {o : Command} {ans : Ans o} {w' : Store}
    (hready : Ready i (m.past c) o) (hkeeps : KeepsRosters m c x o)
    (hrec : Records (m.performed c o ans w')) (hex : exec place x c o m.world = some (ans, w')) :
    Effect m c o ans w' := by
  obtain ⟨rfl, -⟩ | ⟨hlands, hchange⟩ := exec_cases hex
  · exact hi.effect_of_same rfl rfl
  cases hchange with
  | createUser hname hnone hans =>
    refine hi.effect_of_emptied rfl rfl rfl ?_
    rintro h s hs rfl
    have hsome := hi.item hs
    rw [hnone] at hsome
    cases hsome
  | store hfree hitem hfile hans => exact hi.effect_of_store hkeeps hrec rfl hitem hfile
  | rotate hlive hfree hretired hitem hrefile hans =>
    exact hi.effect_of_rotate hkeeps hready hrec hlands rfl hlive hitem hrefile
  | revoke hlive hitem hunfile hans => exact hi.effect_of_revoke hready hrec rfl hlive hitem hunfile
  | batchDelete hleft => exact hi.effect_of_batchDelete
  | clearFamily hitem => exact hi.effect_of_clearFamily hready hrec rfl hitem
  | clearRoster hitem => exact hi.effect_of_emptied rfl rfl rfl (hkeeps.noneLeft _ rfl hlands)

end Effects

/-! ## Runs -/

section Runs

variable {place : Key → ℕ} {secs : UInt64} {m m' : StoreMoment}

/-- Neither calls that begin or end nor the clock change what holds. -/
theorem RostersHold.of_same (hi : RostersHold m) (hpast : ∀ c, m'.past c = m.past c)
    (hsessions : m'.world.sessions = m.world.sessions) (hrosters : m'.world.rosters = m.world.rosters)
    (hbegan : ∀ c i, .began c i ∈ m'.history → .began c i ∈ m.history ∨ m.past c = [])
    (hmore : ∀ c i, .began c i ∈ m.history → .began c i ∈ m'.history) :
    RostersHold m' := by
  have hroster := roster_of_eq hrosters
  have hbrought : ∀ s, Brought m' s ↔ Brought m s := by
    intro s
    simp only [Brought, hpast]
  have hbelongs : ∀ u f h, BelongsTo m u f h → BelongsTo m' u f h := by
    rintro u f h ⟨s, hs, hrest⟩
    exact ⟨s, (hbrought s).mpr hs, hrest⟩
  have hsound : ∀ {u roster}, Sound m u roster → Sound m' u roster := by
    rintro u roster hs
    refine ⟨hs.paired, fun f family hlookup => ?_⟩
    obtain ⟨⟨s, hb, hus⟩, hlive⟩ := hs.filed f family hlookup
    exact ⟨⟨s, (hbrought s).mpr hb, hus⟩, fun hne => hbelongs _ _ _ (hlive hne)⟩
  constructor
  · constructor
    · intro s t hs ht
      exact hi.unique s t ((hbrought s).mp hs) ((hbrought t).mp ht)
    · intro s t hs ht
      exact hi.owner s t ((hbrought s).mp hs) ((hbrought t).mp ht)
    · exact fun s hs => hi.named s ((hbrought s).mp hs)
    · intro c h s hf
      exact (hi.found c h s (hpast c ▸ hf)).imp_right (hbrought s).mpr
    · intro c u roster hread
      exact hsound (hi.sound c u roster (hpast c ▸ hread))
    · intro c h hk
      obtain ⟨u, f, hb⟩ := hi.submitted c h (hpast c ▸ hk)
      exact ⟨u, f, hbelongs u f h hb⟩
    · intro c h r roster hasked hread
      rw [Read, hpast] at hread
      obtain hasked | hnil := hbegan c _ hasked
      · exact hi.rotating c h r roster hasked hread
      · rw [hnil] at hread
        exact absurd hread List.not_mem_nil
  · intro h s hs
    exact (hi.kept h s (hsessions ▸ hs)).imp_right (hbrought s).mpr
  · intro h s hs
    rw [hroster]
    exact hi.listed h s (hsessions ▸ hs)
  · intro u
    rw [hroster]
    exact hsound (hi.current u)
  · intro u f family hlookup hne hdead
    rw [hroster] at hlookup
    obtain ⟨c, i, hasked, hrevokes, hk⟩ := hi.pending u f family hlookup hne (hsessions ▸ hdead)
    exact ⟨c, i, hmore c i hasked, hrevokes, (hpast c).symm ▸ hk⟩
  · intro c h hf u f family hlookup
    rw [hroster] at hlookup
    exact hi.forgotten c h (hpast c ▸ hf) u f family hlookup
  · intro c h hp
    rw [hsessions]
    exact hi.processed c h (hpast c ▸ hp)
  · intro c u f live hc
    obtain ⟨⟨s, hs, hus⟩, hnone, hentry⟩ := hi.confirmed c u f live (hpast c ▸ hc)
    rw [hsessions, hroster]
    exact ⟨⟨s, (hbrought s).mpr hs, hus⟩, hnone, hentry⟩

/-- The invariant of the rosters. -/
def rosterProtocol (place : Key → ℕ) : Protocol (semantics place) Ready where
  inv := RostersHold
  allowed := KeepsRosters
  begins {m c i} hi hunseen := by
    refine hi.of_same (fun d => Moment.past_begin ..) rfl rfl (fun d j hmem => ?_)
      fun d j hmem => List.mem_cons_of_mem _ hmem
    obtain heq | hmem := List.mem_cons.mp hmem
    · cases heq
      exact .inr hunseen.past
    · exact .inl hmem
  performs hi hrunning hready hkeeps hex := by
    have hrec := hi.records hrunning hready hkeeps hex
    exact hi.performed hrunning hready hkeeps hex hrec (hi.effect hready hkeeps hrec hex)
  ends {m c i} hi _ := by
    refine hi.of_same (fun d => Moment.past_ended ..) rfl rfl (fun d j hmem => .inl ?_) ?_
    · simpa using hmem
    · exact fun d j hmem => List.mem_cons_of_mem _ hmem
  drifts {m k w} hi hdrift := by
    cases k with
    | tick t =>
      rw [semantics] at hdrift
      dsimp only [drift] at hdrift
      split at hdrift
      · obtain rfl := Option.some.inj hdrift
        exact hi.of_same (fun d => Moment.past_drifted ..) rfl rfl (fun d j hmem => .inl hmem)
          fun d j hmem => hmem
      · cases hdrift

/-- An empty table. -/
theorem rostersHold_start (clock : Instant) : RostersHold (StorePool.start clock).toMoment := by
  have hpast : ∀ c, (StorePool.start clock).toMoment.past c = [] := fun c => rfl
  have hnone : ∀ s, ¬ Brought (StorePool.start clock).toMoment s := by
    rintro s ⟨c, e, hmem, -⟩
    exact absurd hmem List.not_mem_nil
  have hsubmitted : ∀ c k, ¬ Submitted ((StorePool.start clock).toMoment.past c) k := by
    rintro c k ⟨keys, ans, hmem, -⟩
    exact absurd hmem List.not_mem_nil
  constructor
  · constructor
    · exact fun s t hs => absurd hs (hnone s)
    · exact fun s t hs => absurd hs (hnone s)
    · exact fun s hs => absurd hs (hnone s)
    · exact fun c h s hf => absurd hf List.not_mem_nil
    · exact fun c u roster hread => absurd hread List.not_mem_nil
    · exact fun c h hk => absurd hk (hsubmitted c _)
    · exact fun c h r roster hasked => absurd hasked List.not_mem_nil
  · intro h s hs
    cases hs
  · intro h s hs
    cases hs
  · exact fun u => sound_empty
  · intro u f family hlookup
    cases hlookup
  · rintro c h ⟨u, e, older, hsuffix, -⟩
    cases List.suffix_nil.mp hsuffix
  · exact fun c h hp => absurd hp.submitted (hsubmitted c _)
  · rintro c u f live ⟨roster, family, older, hpast', -⟩
    cases hpast'

theorem rostersHold_run {clock : Instant} {as : List StoreAct} {q : StorePool}
    (hrun : (store place secs).Run (Pool.Under KeepsRosters) (.start clock) as q) :
    RostersHold q.toMoment ∧ Disciplined Ready Result q :=
  ⟨(rosterProtocol place).run (serve_obeys secs) hrun (.initial _) (rostersHold_start clock),
    Disciplined.run (serve_obeys secs) hrun (.initial _)⟩

end Runs

end Dynamo

end OidcExchange
