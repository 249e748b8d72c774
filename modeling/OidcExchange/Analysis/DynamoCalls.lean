import OidcExchange.Analysis.DynamoFlow

/-!
# Every call on DynamoDB keeps to its discipline

The flow of each call of the adapter, from its first request to what it returns: a rotation sends
what it has read, and a revocation that returns has processed every key it sent, and has read or
cleared the roster since, so that the roster names none of the sessions.
-/

set_option autoImplicit false

namespace OidcExchange

namespace Dynamo

open Interleaving Storage

/-! ## Calls with one transaction -/

section Transactions

variable {past : Past} {secs : UInt64}

theorem committed_obeys {ready : Past → Command → Prop} (outcome : Outcome) :
    (committed outcome).Obeys ready (fun _ _ => True) past := by
  cases outcome <;> trivial

theorem createUser_obeys (u : String) :
    (createUser u).Obeys (Ready (.createUser u)) (fun _ _ => True) [] := by
  refine ⟨rfl, ?_⟩
  rintro (e | outcome)
  · trivial
  · exact committed_obeys outcome

theorem storeRefreshToken_obeys (s : Session) :
    (storeRefreshToken s).Obeys (Ready (.store s)) (fun _ _ => True) [] := by
  refine Adapter.obeys_assert (fun hvalid => ?_) fun _ => trivial
  refine Adapter.obeys_assert (fun hhash => ?_) fun _ => trivial
  refine ⟨⟨rfl, hvalid, by simpa using hhash⟩, ?_⟩
  rintro (e | outcome)
  · trivial
  · exact committed_obeys outcome

/-- The record of a rotation is built from the session it has read. -/
theorem retirementRecord_obeys {ready : Past → Command → Prop} {h : String} {live r : Session}
    {now : Instant} : (retirementRecord h live r secs now).Obeys ready (fun past' answer =>
      past' = past ∧ ∀ made, answer = .ok made → (live.familyId = "" ∧ made = none) ∨
        live.familyId ≠ "" ∧ ∃ record, made = some record ∧ record.refreshTokenHash = h ∧
          record.userId = live.userId ∧ record.familyId = live.familyId ∧
          record.successorHash = r.refreshTokenHash) past := by
  unfold retirementRecord
  by_cases hlegacy : live.familyId = ""
  · rw [if_pos hlegacy]
    exact ⟨rfl, fun made hmade => .inl ⟨hlegacy, (Except.ok.inj hmade).symm⟩⟩
  rw [if_neg hlegacy]
  cases hrecord : World.retirementRecord h live r secs now with
  | none => exact ⟨rfl, fun made hmade => by cases hmade⟩
  | some record =>
    refine ⟨rfl, fun made hmade => .inr ⟨hlegacy, record, (Except.ok.inj hmade).symm, ?_⟩⟩
    unfold World.retirementRecord at hrecord
    split at hrecord
    · split at hrecord
      · cases hrecord
      · obtain rfl := Option.some.inj hrecord
        exact ⟨rfl, rfl, rfl, rfl⟩
    · cases hrecord

theorem rotateRefreshToken_obeys (h : String) (r : Session) :
    (rotateRefreshToken secs h r).Obeys (Ready (.rotate h r)) (fun _ _ => True) [] := by
  refine Adapter.obeys_assert (fun hvalid => ?_) fun _ => trivial
  refine Adapter.obeys_assert (fun hfresh => ?_) fun _ => trivial
  refine ⟨rfl, ?_⟩
  rintro (e | (_ | live))
  · trivial
  · trivial
  have hfound : Found [⟨.getSession h, .ok (some live)⟩] h live := List.mem_singleton_self _
  refine Adapter.obeys_assert (fun hfamily => ?_) fun _ => trivial
  refine Adapter.obeys_assert (fun huser => ?_) fun _ => trivial
  rw [beq_iff_eq] at huser
  refine ⟨trivial, fun now => ?_⟩
  refine retirementRecord_obeys.bind ?_ fun _ _ _ => trivial
  rintro past record ⟨rfl, hrecord⟩
  have hfound := hfound.mono (List.suffix_cons ⟨.now, now⟩ _)
  refine ⟨⟨rfl, live, hfound, huser⟩, ?_⟩
  rintro (e | roster)
  · trivial
  refine Adapter.obeys_assert (fun hnamed => ?_) fun _ => trivial
  refine Adapter.obeys_assert (fun hnew => ?_) fun _ => trivial
  refine ⟨⟨live, roster, hfound.mono (List.suffix_cons ..), List.mem_cons_self .., ?_⟩, ?_⟩
  · refine ⟨rfl, rfl, hvalid, huser, rfl, ?_⟩
    refine (hrecord record rfl).imp_right ?_
    rintro ⟨hfiled, hmade⟩
    have hsame : live.familyId = "" ∨ live.familyId = r.familyId := by simpa using hfamily
    exact ⟨hsame.resolve_left hfiled, hmade⟩
  · rintro (e | (_ | failed))
    · trivial
    · trivial
    · show (if lostRaceReason failed 0 then _ else _ : Adapter Ans Bool).Obeys _ _ _
      split <;> trivial

theorem revokeSession_obeys (h : String) :
    (revokeSession h).Obeys (Ready (.revokeSession h)) (fun _ _ => True) [] := by
  refine Adapter.obeys_assert (fun _ => ?_) fun _ => trivial
  refine ⟨rfl, ?_⟩
  rintro (e | (_ | s))
  · trivial
  · trivial
  refine Adapter.obeys_assert (fun _ => ?_) fun _ => trivial
  refine ⟨⟨rfl, s, List.mem_singleton_self _, rfl, rfl⟩, ?_⟩
  rintro (e | outcome)
  · trivial
  · exact committed_obeys outcome

theorem resolveRefreshToken_obeys (h : String) :
    (resolveRefreshToken h).Obeys (Ready (.resolve h)) (fun _ _ => True) [] := by
  refine Adapter.obeys_assert (fun _ => ?_) fun _ => trivial
  refine ⟨.inl ⟨h, rfl⟩, ?_⟩
  rintro (e | (_ | s))
  · trivial
  · refine ⟨.inr (.inl ⟨h, rfl⟩), ?_⟩
    rintro (e | (_ | record))
    · trivial
    · trivial
    refine ⟨.inr (.inr rfl), fun now => ?_⟩
    show (if record.expiresAt ≤ now then _ else _ : Adapter Ans RefreshResolution).Obeys _ _ _
    split
    · trivial
    refine ⟨.inl ⟨record.successorHash, rfl⟩, ?_⟩
    rintro (e | (_ | successor)) <;> trivial
  · trivial

end Transactions

/-! ## Revocation of a family -/

section Family

variable {f : String} {base past : Past} {ids : List String} {removed : ℕ}

/-- Nothing of the family is left in the owner's roster, as far as the call has seen. -/
def Settled (f : String) (past : Past) (u : String) : Prop :=
  (∃ roster, Read past u roster ∧ roster.families.lookup f = none) ∨
    ∃ live, (⟨.clearFamily u f live, .ok ()⟩ : Performed Ans) ∈ past

theorem Settled.mono {past' : Past} {u : String} (h : Settled f past u) (hle : past <:+ past') :
    Settled f past' u := by
  obtain ⟨roster, hread, hnone⟩ | ⟨live, hmem⟩ := h
  · exact .inl ⟨roster, hread.mono hle, hnone⟩
  · exact .inr ⟨live, hle.mem hmem⟩

/-- What a call has done for the owners it has gone through. -/
structure Handled (f : String) (base past : Past) (ids : List String) (removed : ℕ) : Prop where
  since : Program.Since Revokes base past
  settled : ∀ u ∈ ids, Settled f past u
  deleted : Deleted past
  counted : ids.length ≤ 1 → ∃ keys : List Key, keys.Nodup ∧ keys.length = removed ∧
    ∀ k, k ∈ keys ↔ Submitted past k

/-- A call that has sent nothing yet. -/
theorem handled_nil (hnone : ∀ k, ¬ Submitted base k) : Handled f base base [] 0 where
  since := .refl _
  settled _ hu := absurd hu List.not_mem_nil
  deleted k hk := absurd hk (hnone k)
  counted _ := ⟨[], List.nodup_nil, rfl, fun k => ⟨fun hk => absurd hk List.not_mem_nil,
    fun hk => absurd hk (hnone k)⟩⟩

/-- One more owner. -/
theorem Handled.attempted (h : Handled f base past ids removed) {past' : Past} {u : String} {n : ℕ}
    (hnone : ids = [] → ∀ k, ¬ Submitted past k) (hs : Program.Since Revokes past past')
    (ha : Attempted f u past past' n) : Handled f base past' (ids ++ [u]) (removed + n) := by
  obtain ⟨counted, hc, hlength, hforgotten⟩ := ha.counted
  refine ⟨h.since.trans hs, fun v hv => ?_, fun k hk => ?_, fun hone => ?_⟩
  · obtain hv | hv := List.mem_append.mp hv
    · exact (h.settled v hv).mono hs.suffix
    · obtain rfl := List.mem_singleton.mp hv
      exact ha.handled
  · obtain hk | hk := hc.submitted k hk
    · obtain ⟨hprocessed, hsession⟩ := h.deleted k hk
      exact ⟨hprocessed.mono hs.suffix, fun t ht => (hsession t ht).mono hs.suffix⟩
    · refine ⟨hc.processed k hk, ?_⟩
      rintro t rfl
      exact hforgotten t hk
  · have hnil : ids = [] := by
      rw [List.length_append, List.length_singleton] at hone
      exact List.length_eq_zero_iff.mp (by omega)
    subst hnil
    obtain ⟨keys, -, hzero, hkeys⟩ := h.counted (Nat.zero_le _)
    have hempty : removed = 0 := by
      rw [← hzero, List.length_eq_zero_iff, List.eq_nil_iff_forall_not_mem]
      exact fun k hk => hnone rfl k ((hkeys k).mp hk)
    refine ⟨counted, hc.nodup, by omega, fun k => ⟨fun hk => (hc.processed k hk).submitted, ?_⟩⟩
    exact fun hk => (hc.submitted k hk).resolve_left (hnone rfl k)

/-- The owners one after another. -/
theorem revokeFamilyForUsers_obeys {rest : List String} (h : Handled f base past ids removed)
    (hnone : ids = [] → ∀ k, ¬ Submitted past k) (hscanned : ∀ u ∈ rest, Scanned base f u) :
    (revokeFamilyForUsers f rest removed).Obeys (Ready (.revokeFamily f)) (fun past r =>
      ∀ n, r = .ok n → Handled f base past (ids ++ rest) n) past := by
  induction rest generalizing past ids removed with
  | nil =>
    intro n hn
    obtain rfl := Except.ok.inj hn
    rwa [List.append_nil]
  | cons u rest ih =>
    have hstart : Counting f u past past [] :=
      ⟨.refl _, List.nodup_nil, fun _ hk => absurd hk List.not_mem_nil,
        fun _ hk => absurd hk List.not_mem_nil, fun _ hk => .inl hk⟩
    have hu := (hscanned u List.mem_cons_self).mono h.since.suffix
    refine (revokeFamilyAttempts_obeys revocationMaxAttempts hu hstart).bind ?_ ?_
    · rintro past' n ⟨hs, ha⟩
      have hnext := h.attempted hnone hs (ha n rfl)
      rw [List.append_cons]
      exact ih hnext (fun hnil => by simp at hnil) fun v hv => hscanned v (List.mem_cons_of_mem u hv)
    · intro past' e _ n hn
      cases hn

/-- **Revocation of a family**, from the scan to the count. -/
theorem revokeFamily_obeys (f : String) : (revokeFamily f).Obeys (Ready (.revokeFamily f))
    (fun past r => ∀ n, r = .ok n → FamilyOutcome f past n) [] := by
  refine Adapter.obeys_assert (fun _ => ?_) fun _ n hn => by cases hn
  refine (userIdsForFamily_obeys f).bind ?_ fun _ _ _ n hn => by cases hn
  intro past ids hids
  obtain ⟨hc, hended⟩ := hids ids rfl
  have hnone : ∀ k, ¬ Submitted past k := by
    rintro k ⟨keys, ans, hmem, -⟩
    obtain ⟨more, rfl, hall⟩ := hc.scans
    rw [List.append_nil] at hmem
    exact absurd (hall _ hmem) (by simp [Scans])
  refine (revokeFamilyForUsers_obeys (handled_nil hnone) (fun _ => hnone)
    fun u hu => (hc.mem u).mp hu).mono ?_
  intro past' r hr n hn
  have hh := hr n hn
  have hback : ∀ u, Scanned past' f u → u ∈ ids := fun u hu =>
    (hc.mem u).mpr (scanned_of_since hh.since (fun start last hrevokes =>
      hrevokes (.inr ⟨f, start, last, rfl⟩)) hu)
  refine ⟨hended.mono hh.since.suffix, fun u hu => hh.settled u (hback u hu), hh.deleted, ?_⟩
  intro hsame
  refine hh.counted ?_
  have hseen : ∀ u ∈ ids, Scanned past' f u := fun u hu => ((hc.mem u).mp hu).mono hh.since.suffix
  have hdistinct := hc.nodup
  rcases ids with _ | ⟨u, _ | ⟨v, rest⟩⟩
  · exact Nat.zero_le _
  · exact Nat.le_refl _
  · have huv : u = v := hsame u v (hseen u (by simp)) (hseen v (by simp))
    rw [huv] at hdistinct
    simp at hdistinct

end Family

/-! ## Revocation of all sessions -/

section User

variable {u : String} {past : Past} {fresh roster : UserRoster}

theorem mem_liveHashes {h : String} :
    h ∈ roster.liveHashes ↔ ∃ e ∈ roster.families.entries, e.2.live = h := by
  simp [UserRoster.liveHashes, UserRoster.values]

theorem retired_mem_deleteKeys {h : String} : Key.retired h ∈ roster.deleteKeys ↔
    (∃ e ∈ roster.families.entries, h ∈ e.2.members) ∧ h ∉ roster.liveHashes := by
  simp only [UserRoster.deleteKeys, UserRoster.values, List.mem_append, List.mem_map,
    List.mem_flatMap, List.mem_filter, decide_eq_true_eq, reduceCtorEq, and_false, exists_false,
    false_or, Key.retired.injEq]
  constructor
  · rintro ⟨family, ⟨e, he, rfl⟩, k, ⟨hk, hdead⟩, rfl⟩
    exact ⟨⟨e, he, hk⟩, hdead⟩
  · rintro ⟨⟨e, he, hh⟩, hdead⟩
    exact ⟨e.2, ⟨e, he, rfl⟩, h, ⟨hh, hdead⟩, rfl⟩

theorem session_mem_deleteKeys_iff {h : String} :
    Key.session h ∈ roster.deleteKeys ↔ h ∈ roster.sessions := by
  simp [UserRoster.deleteKeys]

/-- A roster that reads the same has the same entries, up to the order of their members. -/
theorem entry_of_unchanged (h : roster.unchanged fresh = true) {f : String}
    {family : FamilyRoster} (he : ⟨f, family⟩ ∈ fresh.families.entries) :
    ∃ family', ⟨f, family'⟩ ∈ roster.families.entries ∧ family.same family' = true := by
  simp only [UserRoster.unchanged, Bool.and_eq_true, beq_iff_eq, List.all_eq_true,
    List.contains_iff_mem] at h
  obtain ⟨⟨-, hlength⟩, hfamilies⟩ := h
  have hsub : roster.families.keys ⊆ fresh.families.keys := by
    intro f' hf'
    obtain ⟨family', he'⟩ := List.mem_keys.mp hf'
    obtain ⟨found, hfound, -⟩ := (Option.any_eq_true ..).mp (hfamilies _ he')
    exact List.mem_keys_of_mem (AList.mem_lookup_iff.mp hfound)
  have hperm : roster.families.keys.Perm fresh.families.keys := by
    refine (List.subperm_of_subset roster.families.nodupKeys hsub).perm_of_length_le ?_
    simp only [AList.keys, List.keys, List.length_map]
    exact hlength.le
  obtain ⟨family', he'⟩ := List.mem_keys.mp (hperm.mem_iff.mpr (List.mem_keys_of_mem he))
  obtain ⟨found, hfound, hsame⟩ := (Option.any_eq_true ..).mp (hfamilies _ he')
  obtain rfl : family = found :=
    Option.some.inj ((AList.mem_lookup_iff.mpr he).symm.trans hfound)
  exact ⟨family', he', hsame⟩

/-- A roster that reads the same names nothing else. -/
theorem deleteKeys_subset_of_unchanged (h : roster.unchanged fresh = true) :
    fresh.deleteKeys ⊆ roster.deleteKeys := by
  have hentry := fun f family => @entry_of_unchanged fresh roster h f family
  simp only [UserRoster.unchanged, Bool.and_eq_true, beq_iff_eq, List.all_eq_true,
    List.contains_iff_mem] at h
  obtain ⟨⟨⟨-, hsessions⟩, -⟩, hfamilies⟩ := h
  intro k hk
  cases k with
  | session t => exact session_mem_deleteKeys_iff.mpr (hsessions t (session_mem_deleteKeys_iff.mp hk))
  | retired t =>
    obtain ⟨⟨⟨f, family⟩, he, ht⟩, hdead⟩ := retired_mem_deleteKeys.mp hk
    obtain ⟨family', he', hsame⟩ := hentry f family he
    simp only [FamilyRoster.same, sameMembers, Bool.and_eq_true, List.all_eq_true,
      List.contains_iff_mem] at hsame
    refine retired_mem_deleteKeys.mpr ⟨⟨_, he', hsame.2.2 t ht⟩, fun hlive => hdead ?_⟩
    obtain ⟨e, he, hlive⟩ := mem_liveHashes.mp hlive
    obtain ⟨found, hfound, hsame⟩ := (Option.any_eq_true ..).mp (hfamilies e he)
    simp only [FamilyRoster.same, Bool.and_eq_true, beq_iff_eq] at hsame
    exact mem_liveHashes.mpr ⟨_, AList.mem_lookup_iff.mp hfound, hsame.1.trans hlive⟩

/-- What a call has done before an attempt. -/
structure Clearing (u : String) (past : Past) : Prop where
  uncleared : ∀ ans, (⟨.clearRoster u, ans⟩ : Performed Ans) ∉ past
  processed : ∀ k, Submitted past k → Processed past k
  named : ∀ h, Submitted past (.session h) → Names past u h

theorem Clearing.read (hc : Clearing u past) (roster : UserRoster) :
    Clearing u (⟨.getRoster u, .ok roster⟩ :: past) where
  uncleared ans hmem := by
    obtain heq | hmem := List.mem_cons.mp hmem
    · cases heq
    · exact hc.uncleared ans hmem
  processed k hk :=
    (hc.processed k ((submitted_cons_of_ne (by simp)).mp hk)).mono (List.suffix_cons ..)
  named h hk := (hc.named h ((submitted_cons_of_ne (by simp)).mp hk)).mono (List.suffix_cons ..)

theorem Clearing.deleted (hc : Clearing u past) (hread : Read past u roster) {past' : Past}
    (hs : Program.Since (Deletes roster.deleteKeys) past past')
    (hdone : ∀ k ∈ roster.deleteKeys, Processed past' k) : Clearing u past' where
  uncleared ans hmem := by
    obtain ⟨more, rfl, hall⟩ := hs
    obtain hmem | hmem := List.mem_append.mp hmem
    · obtain ⟨batch, hbatch, -⟩ := hall _ hmem
      cases hbatch
    · exact hc.uncleared ans hmem
  processed k hk := by
    obtain hk | hk := submitted_of_deletes hs hk
    · exact hdone k hk
    · exact (hc.processed k hk).mono hs.suffix
  named h hk := by
    obtain hk | hk := submitted_of_deletes hs hk
    · exact ⟨roster, hread.mono hs.suffix, session_mem_deleteKeys_iff.mp hk⟩
    · exact (hc.named h hk).mono hs.suffix

/-- A roster that is read empty forgets everything. -/
theorem Clearing.outcome_of_isEmpty (hc : Clearing u past) (hempty : roster.isEmpty = true) :
    UserOutcome u (⟨.getRoster u, .ok roster⟩ :: past) 0 := by
  obtain ⟨hsessions, hfamilies⟩ : roster.sessions = [] ∧ roster.families.entries = [] := by
    simpa [UserRoster.isEmpty] using hempty
  have hread := hc.read roster
  refine ⟨.inl ⟨roster, List.mem_cons_self .., hempty⟩, fun k hk => ⟨hread.processed k hk, ?_⟩,
    roster, past, List.suffix_rfl, ?_, fun h hk => .inr ?_, fun h hh => ?_⟩
  · rintro h rfl
    have hnamed := hc.named h ((submitted_cons_of_ne (by simp)).mp hk)
    refine ⟨u, _, past, List.suffix_rfl, .inr ⟨hnamed, .inl ⟨roster, rfl, ?_⟩⟩⟩
    rw [hsessions]
    exact List.not_mem_nil
  · simp [UserRoster.sessionsRemoved, UserRoster.values, hsessions, hfamilies]
  · exact (submitted_cons_of_ne (by simp)).mp hk
  · rw [hsessions] at hh
    exact absurd hh List.not_mem_nil

/-- A roster that is cleared forgets everything. -/
theorem Clearing.outcome_of_clear (hc : Clearing u past) {older : Past}
    (hsuffix : (⟨.getRoster u, .ok roster⟩ :: older) <:+ past)
    (hsub : ∀ h, Submitted past (.session h) → h ∈ roster.sessions ∨ Submitted older (.session h))
    (hall : ∀ h ∈ roster.sessions, Submitted past (.session h)) :
    UserOutcome u (⟨.clearRoster u, .ok ()⟩ :: past) roster.sessionsRemoved where
  emptied := .inr (List.mem_cons_self ..)
  deleted k hk := by
    have hk := (submitted_cons_of_ne (by simp)).mp hk
    refine ⟨(hc.processed k hk).mono (List.suffix_cons ..), ?_⟩
    rintro h rfl
    exact ⟨u, _, past, List.suffix_rfl, .inr ⟨hc.named h hk, .inr rfl⟩⟩
  counted := ⟨roster, older, hsuffix.trans (List.suffix_cons ..), rfl,
    fun h hk => hsub h ((submitted_cons_of_ne (by simp)).mp hk),
    fun h hh => (hall h hh).mono (List.suffix_cons ..)⟩

theorem revokeAllAttempts_obeys (n : ℕ) (hc : Clearing u past) :
    (revokeAllAttempts u n).Obeys (Ready (.revokeAllUserSessions u))
      (fun past r => ∀ n, r = .ok n → UserOutcome u past n) past := by
  induction n generalizing past with
  | zero =>
    intro n hn
    cases hn
  | succ n ih =>
    refine ⟨⟨rfl, hc.uncleared⟩, ?_⟩
    rintro (e | roster)
    · intro n hn
      cases hn
    have hread : Read (⟨.getRoster u, .ok roster⟩ :: past) u roster := List.mem_cons_self ..
    have hafter : Clearing u (⟨.getRoster u, .ok roster⟩ :: past) := hc.read roster
    show (if roster.isEmpty = true then _ else _ : Adapter Ans ℕ).Obeys _ _ _
    by_cases hempty : roster.isEmpty = true
    · rw [if_pos hempty]
      intro n hn
      obtain rfl := Except.ok.inj hn
      exact hc.outcome_of_isEmpty hempty
    rw [if_neg hempty]
    refine Adapter.obeys_assert (fun _ => ?_) fun _ n hn => by cases hn
    refine (deleteAll_obeys roster.deleteKeys ?_).bind ?_ fun _ _ _ n hn => by cases hn
    · intro past' hs batch hbatch k hk
      exact ⟨roster, hs.mem hread, hbatch hk⟩
    rintro past₂ ⟨⟩ ⟨hs, hdone⟩
    have hdeleted := hafter.deleted hread hs (hdone rfl)
    refine ⟨⟨rfl, hdeleted.uncleared⟩, ?_⟩
    rintro (e | fresh)
    · intro n hn
      cases hn
    have hconfirm := hdeleted.read fresh
    show (if roster.unchanged fresh = true then _ else _ : Adapter Ans ℕ).Obeys _ _ _
    by_cases hsame : roster.unchanged fresh = true
    · rw [if_pos hsame]
      have hkeys := deleteKeys_subset_of_unchanged hsame
      refine ⟨⟨rfl, fresh, past₂, rfl, fun k hk => hdone rfl k (hkeys hk)⟩, ?_⟩
      rintro (e | ⟨⟩)
      · intro n hn
        cases hn
      intro n hn
      obtain rfl := Except.ok.inj hn
      refine hconfirm.outcome_of_clear (hs.suffix.trans (List.suffix_cons ..)) (fun h hk => ?_)
        fun h hh => ?_
      · have hk := submitted_of_deletes hs ((submitted_cons_of_ne (by simp)).mp hk)
        exact hk.imp session_mem_deleteKeys_iff.mp fun hk => (submitted_cons_of_ne (by simp)).mp hk
      · have hk := hdone rfl _ (session_mem_deleteKeys_iff.mpr hh)
        exact hk.submitted.mono (List.suffix_cons ..)
    · rw [if_neg hsame]
      exact ih hconfirm

theorem revokeAllUserSessions_obeys (u : String) :
    (revokeAllUserSessions u).Obeys (Ready (.revokeAllUserSessions u))
      (fun past r => ∀ n, r = .ok n → UserOutcome u past n) [] := by
  refine Adapter.obeys_assert (fun _ => ?_) fun _ n hn => by cases hn
  refine revokeAllAttempts_obeys revocationMaxAttempts ⟨fun _ => List.not_mem_nil, ?_, ?_⟩
  · rintro k ⟨keys, ans, hmem, -⟩
    exact absurd hmem List.not_mem_nil
  · rintro h ⟨keys, ans, hmem, -⟩
    exact absurd hmem List.not_mem_nil

end User

/-- Every call obeys. -/
theorem serve_obeys (secs : UInt64) (request : Request) :
    (serve secs request).Obeys (Ready request) (Result request) [] := by
  cases request with
  | createUser u => exact (createUser_obeys u).bind (fun _ _ _ => trivial) fun _ _ _ => trivial
  | store s => exact (storeRefreshToken_obeys s).bind (fun _ _ _ => trivial) fun _ _ _ => trivial
  | rotate h r =>
    exact (rotateRefreshToken_obeys h r).bind (fun _ _ _ => trivial) fun _ _ _ => trivial
  | revokeSession h => exact (revokeSession_obeys h).bind (fun _ _ _ => trivial) fun _ _ _ => trivial
  | revokeFamily f =>
    exact (revokeFamily_obeys f).bind (fun _ n hn => ⟨n, rfl, hn n rfl⟩) fun _ _ _ => trivial
  | revokeAllUserSessions u =>
    exact (revokeAllUserSessions_obeys u).bind (fun _ n hn => ⟨n, rfl, hn n rfl⟩) fun _ _ _ => trivial
  | resolve h =>
    exact (resolveRefreshToken_obeys h).bind (fun _ _ _ => trivial) fun _ _ _ => trivial

end Dynamo

end OidcExchange
