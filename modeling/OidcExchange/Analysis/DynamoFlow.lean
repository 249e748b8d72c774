import OidcExchange.Adapters.Dynamo
import Mathlib.Data.List.Nodup

/-!
# What the calls on DynamoDB have done when they act

A rotation writes back the sessions it has read; a revocation deletes what a roster it has read
names, and clears an entry that it has read again since. What a revocation returns is judged by
its own past here, whatever the table holds by then.
-/

set_option autoImplicit false

namespace OidcExchange

namespace Dynamo

open Interleaving Storage

abbrev Past : Type := List (Performed Ans)

/-! ## Facts about a past -/

/-- The call has read the session. -/
def Found (past : Past) (h : String) (s : Session) : Prop :=
  (⟨.getSession h, .ok (some s)⟩ : Performed Ans) ∈ past

/-- The call has read the roster. -/
def Read (past : Past) (u : String) (roster : UserRoster) : Prop :=
  (⟨.getRoster u, .ok roster⟩ : Performed Ans) ∈ past

/-- The call has sent the key in a batch of deletions. -/
def Submitted (past : Past) (k : Key) : Prop :=
  ∃ keys ans, (⟨.batchDelete keys, ans⟩ : Performed Ans) ∈ past ∧ k ∈ keys

/-- A round of deletions of the call has processed the key. -/
def Processed (past : Past) (k : Key) : Prop :=
  ∃ keys, ∃ left : Leftover keys,
    (⟨.batchDelete keys, .ok left⟩ : Performed Ans) ∈ past ∧ k ∈ keys ∧ k ∉ left.1

/-- A page of the call's scan has shown the owner. -/
def Scanned (past : Past) (f u : String) : Prop :=
  ∃ start last owners next,
    (⟨.scanPage f start last, .ok (owners, next)⟩ : Performed Ans) ∈ past ∧ u ∈ owners

/-- The last page of the scan has been read. -/
def ScanEnded (past : Past) (f : String) : Prop :=
  ∃ start owners next, (⟨.scanPage f start true, .ok (owners, next)⟩ : Performed Ans) ∈ past

/-- Where a page ends. -/
def pageEnd : (o : Command) → Ans o → Option ℕ
  | .scanPage _ _ _, .ok (_, next) => some next
  | _, _ => none

/-- Where the scan goes on. -/
def scanPosition (past : Past) : ℕ := (past.findSome? fun e => pageEnd e.1 e.2).getD 0

/-- A roster the call has read points at the hash in the family. -/
def Points (past : Past) (u f h : String) : Prop :=
  ∃ roster family, Read past u roster ∧ roster.families.lookup f = some family ∧
    family.live = h ∧ h ≠ ""

/-- A roster the call has read has the hash among its sessions. -/
def Names (past : Past) (u h : String) : Prop := ∃ roster, Read past u roster ∧ h ∈ roster.sessions

/-- The last thing the call did is to read an entry of which it has processed every key. -/
def FamilyConfirmed (past : Past) (u f live : String) : Prop :=
  ∃ roster family older, past = ⟨.getRoster u, .ok roster⟩ :: older ∧
    roster.families.lookup f = some family ∧ family.live = live ∧
    ∀ k ∈ family.entries, Processed older k

/-- The last thing the call did is to read a roster of which it has processed every key. -/
def RosterConfirmed (past : Past) (u : String) : Prop :=
  ∃ roster older, past = ⟨.getRoster u, .ok roster⟩ :: older ∧
    ∀ k ∈ roster.deleteKeys, Processed older k

/-- After a roster of the user named the hash, the call found it gone from the roster or cleared
it. -/
def ForgottenBy (u : String) (e : Performed Ans) (older : Past) (h : String) : Prop :=
  (∃ f, Points older u f h ∧
    ((∃ fresh, e = ⟨.getRoster u, .ok fresh⟩ ∧
        ∀ family, fresh.families.lookup f = some family → family.live ≠ h) ∨
      e = ⟨.clearFamily u f h, .ok ()⟩)) ∨
  (Names older u h ∧
    ((∃ fresh, e = ⟨.getRoster u, .ok fresh⟩ ∧ h ∉ fresh.sessions) ∨
      e = ⟨.clearRoster u, .ok ()⟩))

def Forgotten (past : Past) (h : String) : Prop :=
  ∃ u e older, (e :: older) <:+ past ∧ ForgottenBy u e older h

/-- What a rotation has read shapes its transaction. -/
structure RotationFrom (h : String) (r live : Session) (roster : UserRoster) (a : Rotation) :
    Prop where
  liveHash : a.liveHash = h
  replacement : a.replacement = r
  valid : isValidFamilyId r.familyId = true
  user : live.userId = r.userId
  sessions : a.sessions = roster.sessions.filter (· != h) ++ [r.refreshTokenHash]
  record : (live.familyId = "" ∧ a.record = none) ∨
    (live.familyId = r.familyId ∧ ∃ record, a.record = some record ∧
      record.refreshTokenHash = h ∧ record.userId = live.userId ∧
      record.familyId = live.familyId ∧ record.successorHash = r.refreshTokenHash)

/-- What the past of a call contains when it performs a request. -/
def Ready : Request → Past → Command → Prop
  | .createUser u, _, o => o = .createUser u
  | .store s, _, o => o = .store s ∧ isValidFamilyId s.familyId = true ∧ s.refreshTokenHash ≠ ""
  | .rotate h r, past, o =>
    match o with
    | .now => True
    | .getSession h' => h' = h
    | .getRoster u => u = r.userId ∧ ∃ live, Found past h live ∧ live.userId = r.userId
    | .rotate a => ∃ live roster, Found past h live ∧ Read past r.userId roster ∧
        RotationFrom h r live roster a
    | _ => False
  | .revokeSession h, past, o =>
    match o with
    | .getSession h' => h' = h
    | .revoke h' u f => h' = h ∧ ∃ s, Found past h s ∧ s.userId = u ∧ s.familyId = f
    | _ => False
  | .revokeFamily f, past, o =>
    match o with
    | .scanPages => True
    | .scanPage f' start _ => f' = f ∧ start = scanPosition past ∧ ¬ ScanEnded past f
    | .getRoster u => Scanned past f u
    | .batchDelete keys => ∀ k ∈ keys, ∃ u roster family, Read past u roster ∧
        roster.families.lookup f = some family ∧ k ∈ family.entries
    | .clearFamily u f' live => f' = f ∧ FamilyConfirmed past u f live
    | _ => False
  | .revokeAllUserSessions u, past, o =>
    match o with
    | .getRoster u' => u' = u ∧ ∀ ans, (⟨.clearRoster u, ans⟩ : Performed Ans) ∉ past
    | .batchDelete keys => ∀ k ∈ keys, ∃ roster, Read past u roster ∧ k ∈ roster.deleteKeys
    | .clearRoster u' => u' = u ∧ RosterConfirmed past u
    | _ => False
  | .resolve _, _, o => (∃ h, o = .getSession h) ∨ (∃ h, o = .getRetired h) ∨ o = .now

/-- A revocation that returns has deleted what it sent, and none of it is left in the roster. -/
def Deleted (past : Past) : Prop :=
  ∀ k, Submitted past k → Processed past k ∧ ∀ h, k = .session h → Forgotten past h

/-- What a revocation of a family has done when it returns. -/
structure FamilyOutcome (f : String) (past : Past) (n : ℕ) : Prop where
  scanned : ScanEnded past f
  handled : ∀ u, Scanned past f u →
    (∃ roster, Read past u roster ∧ roster.families.lookup f = none) ∨
      ∃ live, (⟨.clearFamily u f live, .ok ()⟩ : Performed Ans) ∈ past
  deleted : Deleted past
  counted : (∀ u u', Scanned past f u → Scanned past f u' → u = u') →
    ∃ keys : List Key, keys.Nodup ∧ keys.length = n ∧ ∀ k, k ∈ keys ↔ Submitted past k

/-- What a revocation of all sessions has done when it returns. -/
structure UserOutcome (u : String) (past : Past) (n : ℕ) : Prop where
  emptied : (∃ roster, Read past u roster ∧ roster.isEmpty = true) ∨
    (⟨.clearRoster u, .ok ()⟩ : Performed Ans) ∈ past
  deleted : Deleted past
  counted : ∃ roster older, (⟨.getRoster u, .ok roster⟩ :: older) <:+ past ∧
    n = roster.sessionsRemoved ∧
    (∀ h, Submitted past (.session h) → h ∈ roster.sessions ∨ Submitted older (.session h)) ∧
    ∀ h ∈ roster.sessions, Submitted past (.session h)

def Result : Request → Past → Except (Fault Error) Response → Prop
  | .revokeFamily f, past, .ok a => ∃ n, a = .revoked n ∧ FamilyOutcome f past n
  | .revokeAllUserSessions u, past, .ok a => ∃ n, a = .revoked n ∧ UserOutcome u past n
  | _, _, _ => True

section Grows

variable {past past' : Past} {e : Performed Ans} {k : Key} {u f h : String} {s : Session}
  {roster : UserRoster}

theorem Found.mono (hf : Found past h s) (hle : past <:+ past') : Found past' h s :=
  hle.mem hf

theorem Read.mono (hr : Read past u roster) (hle : past <:+ past') : Read past' u roster :=
  hle.mem hr

theorem Submitted.mono (hs : Submitted past k) (hle : past <:+ past') : Submitted past' k := by
  obtain ⟨keys, ans, hmem, hk⟩ := hs
  exact ⟨keys, ans, hle.mem hmem, hk⟩

theorem Processed.mono (hp : Processed past k) (hle : past <:+ past') : Processed past' k := by
  obtain ⟨keys, left, hmem, hk⟩ := hp
  exact ⟨keys, left, hle.mem hmem, hk⟩

theorem Processed.submitted (hp : Processed past k) : Submitted past k := by
  obtain ⟨keys, left, hmem, hk, -⟩ := hp
  exact ⟨keys, _, hmem, hk⟩

theorem Scanned.mono (hs : Scanned past f u) (hle : past <:+ past') : Scanned past' f u := by
  obtain ⟨start, last, owners, next, hmem, hu⟩ := hs
  exact ⟨start, last, owners, next, hle.mem hmem, hu⟩

theorem ScanEnded.mono (hs : ScanEnded past f) (hle : past <:+ past') : ScanEnded past' f := by
  obtain ⟨start, owners, next, hmem⟩ := hs
  exact ⟨start, owners, next, hle.mem hmem⟩

theorem Points.mono (hp : Points past u f h) (hle : past <:+ past') : Points past' u f h := by
  obtain ⟨roster, family, hread, hrest⟩ := hp
  exact ⟨roster, family, hread.mono hle, hrest⟩

theorem Names.mono (hn : Names past u h) (hle : past <:+ past') : Names past' u h := by
  obtain ⟨roster, hread, hmem⟩ := hn
  exact ⟨roster, hread.mono hle, hmem⟩

theorem Forgotten.mono (hf : Forgotten past h) (hle : past <:+ past') : Forgotten past' h := by
  obtain ⟨u, e, older, hsuffix, hby⟩ := hf
  exact ⟨u, e, older, hsuffix.trans hle, hby⟩

/-- A key that is sent is sent by the last request or before. -/
theorem submitted_cons : Submitted (e :: past) k ↔
    (∃ keys ans, e = ⟨.batchDelete keys, ans⟩ ∧ k ∈ keys) ∨ Submitted past k := by
  constructor
  · rintro ⟨keys, ans, hmem, hk⟩
    obtain heq | hmem := List.mem_cons.mp hmem
    · exact .inl ⟨keys, ans, heq.symm, hk⟩
    · exact .inr ⟨keys, ans, hmem, hk⟩
  · rintro (⟨keys, ans, rfl, hk⟩ | hs)
    · exact ⟨keys, ans, List.mem_cons_self .., hk⟩
    · exact hs.mono (List.suffix_cons ..)

/-- Where the last request is no batch, nothing new has been sent. -/
theorem submitted_cons_of_ne (hne : ∀ keys, e.1 ≠ .batchDelete keys) :
    Submitted (e :: past) k ↔ Submitted past k := by
  rw [submitted_cons]
  constructor
  · rintro (⟨keys, ans, rfl, -⟩ | hs)
    · exact absurd rfl (hne keys)
    · exact hs
  · exact .inr

/-- Requests that show no page show no owner. -/
theorem scanned_of_since {P : Command → Prop} (hs : Program.Since P past past')
    (hblind : ∀ start last, ¬ P (.scanPage f start last)) (hscan : Scanned past' f u) :
    Scanned past f u := by
  obtain ⟨more, rfl, hall⟩ := hs
  obtain ⟨start, last, owners, next, hmem, hu⟩ := hscan
  obtain hmem | hmem := List.mem_append.mp hmem
  · exact absurd (hall _ hmem) (hblind start last)
  · exact ⟨start, last, owners, next, hmem, hu⟩

end Grows

/-! ## Batches of deletions -/

section Batches

variable {ready : Past → Command → Prop} {past : Past}

/-- The request deletes only these keys. -/
def Deletes (keys : List Key) (o : Command) : Prop := ∃ batch, o = .batchDelete batch ∧ batch ⊆ keys

theorem flatten_toChunks_go {α : Type} (n : ℕ) (l : List α) (chunk : Array α)
    (chunks : Array (List α)) : (List.toChunks.go n l chunk chunks).flatten =
      chunks.toList.flatten ++ (chunk.toList ++ l) := by
  induction l generalizing chunk chunks with
  | nil => simp [List.toChunks.go]
  | cons a l ih =>
    unfold List.toChunks.go
    by_cases hfull : (chunk.size == n) = true
    · rw [if_pos hfull, ih]
      simp
    · rw [if_neg hfull, ih]
      simp

/-- The batches together are the list. -/
theorem flatten_toChunks {α : Type} (n : ℕ) (l : List α) : (l.toChunks n).flatten = l := by
  cases l with
  | nil => cases n <;> rfl
  | cons a l =>
    cases n with
    | zero => simp [List.toChunks]
    | succ n => simpa [List.toChunks] using flatten_toChunks_go (n + 1) l #[a] #[]

/-- Rounds that come to an end have processed every key. -/
theorem drainRounds_obeys {keys : List Key} (n : ℕ) {pending : List Key} (hsub : pending ⊆ keys)
    (hready : ∀ past', Program.Since (Deletes keys) past past' → ∀ batch ⊆ keys,
      ready past' (.batchDelete batch)) :
    (drainRounds n pending).Obeys ready (fun past' r => Program.Since (Deletes keys) past past' ∧
      (r = .ok () → ∀ k ∈ pending, Processed past' k)) past := by
  induction n generalizing past pending with
  | zero => exact ⟨.refl _, by simp⟩
  | succ n ih =>
    refine ⟨hready past (.refl _) _ hsub, ?_⟩
    intro ans
    have hsince : Program.Since (Deletes keys) past (⟨.batchDelete pending, ans⟩ :: past) :=
      .cons ⟨pending, rfl, hsub⟩ (.refl _)
    obtain e | left := ans
    · exact ⟨hsince, by simp⟩
    have hprocessed : ∀ k ∈ pending, k ∉ left.1 →
        Processed (⟨.batchDelete pending, .ok left⟩ :: past) k :=
      fun k hk hnot => ⟨pending, left, List.mem_cons_self .., hk, hnot⟩
    change (if left.1 = [] then .done () else drainRounds n left.1 : Adapter Ans Unit).Obeys ready _
      (⟨.batchDelete pending, .ok left⟩ :: past)
    by_cases hleft : left.1 = []
    · rw [if_pos hleft]
      exact ⟨hsince, fun _ k hk => hprocessed k hk (by simp [hleft])⟩
    rw [if_neg hleft]
    refine (ih (fun k hk => hsub (left.2 hk)) fun past' hs => hready past' (hsince.trans hs)).mono ?_
    rintro past' r ⟨hs, hdone⟩
    refine ⟨hsince.trans hs, fun hr k hk => ?_⟩
    by_cases hin : k ∈ left.1
    · exact hdone hr k hin
    · exact (hprocessed k hk hin).mono hs.suffix

theorem deleteChunks_obeys {keys : List Key} (chunks : List (List Key))
    (hsub : chunks.flatten ⊆ keys)
    (hready : ∀ past', Program.Since (Deletes keys) past past' → ∀ batch ⊆ keys,
      ready past' (.batchDelete batch)) :
    (deleteChunks chunks).Obeys ready (fun past' r => Program.Since (Deletes keys) past past' ∧
      (r = .ok () → ∀ k ∈ chunks.flatten, Processed past' k)) past := by
  induction chunks generalizing past with
  | nil => exact ⟨.refl _, by simp⟩
  | cons chunk chunks ih =>
    have hchunk : chunk ⊆ keys := fun k hk => hsub (by simp [hk])
    have hrest : chunks.flatten ⊆ keys := fun k hk => hsub (by
      rw [List.flatten_cons]
      exact List.mem_append_right _ hk)
    have hdrain : (drainUnprocessed chunk).Obeys ready (fun past' r =>
        Program.Since (Deletes keys) past past' ∧ ∀ n, r = .ok n → ∀ k ∈ chunk, Processed past' k)
        past := by
      unfold drainUnprocessed
      by_cases hnil : chunk = []
      · rw [if_pos hnil]
        exact ⟨.refl _, fun _ _ k hk => by simp [hnil] at hk⟩
      rw [if_neg hnil]
      refine (drainRounds_obeys _ hchunk hready).bind ?_ ?_
      · rintro past' ⟨⟩ ⟨hs, hdone⟩
        exact ⟨hs, fun _ _ => hdone rfl⟩
      · rintro past' e ⟨hs, -⟩
        exact ⟨hs, by simp⟩
    refine hdrain.bind ?_ ?_
    · rintro past₁ n ⟨hs, hdone⟩
      refine (ih hrest fun past' hs' => hready past' (hs.trans hs')).mono ?_
      rintro past' r ⟨hs', hdone'⟩
      refine ⟨hs.trans hs', fun hr k hk => ?_⟩
      obtain hk | hk := List.mem_append.mp (List.flatten_cons ▸ hk)
      · exact (hdone n rfl k hk).mono hs'.suffix
      · exact hdone' hr k hk
    · rintro past' e ⟨hs, -⟩
      exact ⟨hs, by simp⟩

/-- All the keys, batch by batch. -/
theorem deleteAll_obeys (keys : List Key)
    (hready : ∀ past', Program.Since (Deletes keys) past past' → ∀ batch ⊆ keys,
      ready past' (.batchDelete batch)) :
    (deleteChunks (keys.toChunks batchWriteMaxItems)).Obeys ready (fun past' r =>
      Program.Since (Deletes keys) past past' ∧ (r = .ok () → ∀ k ∈ keys, Processed past' k))
      past := by
  have hflatten := flatten_toChunks batchWriteMaxItems keys
  have hall := deleteChunks_obeys (keys.toChunks batchWriteMaxItems)
    (fun k hk => hflatten ▸ hk) hready
  rw [hflatten] at hall
  exact hall

/-- Deletions send nothing but their keys. -/
theorem submitted_of_deletes {keys : List Key} {past past' : Past}
    (hs : Program.Since (Deletes keys) past past') {k : Key} (hk : Submitted past' k) :
    k ∈ keys ∨ Submitted past k := by
  obtain ⟨more, rfl, hall⟩ := hs
  obtain ⟨batch, ans, hmem, hk⟩ := hk
  obtain hmem | hmem := List.mem_append.mp hmem
  · obtain ⟨batch', heq, hsub⟩ := hall _ hmem
    obtain rfl : batch = batch' := by simpa using heq
    exact .inl (hsub hk)
  · exact .inr ⟨batch, ans, hmem, hk⟩

end Batches

/-! ## The scan for the owners of a family -/

section Scan

variable {f u : String} {past : Past} {ids : List String}

/-- The request belongs to the scan. -/
def Scans (o : Command) : Prop := o = .scanPages ∨ ∃ f start last, o = .scanPage f start last

/-- The owners that the pages read so far have shown. -/
structure Collected (f : String) (past : Past) (ids : List String) : Prop where
  scans : Program.Since Scans [] past
  mem : ∀ u, u ∈ ids ↔ Scanned past f u
  nodup : ids.Nodup

theorem mem_foldl_owners (owners : List String) :
    u ∈ owners.foldl (fun ids u => if u ∈ ids then ids else ids ++ [u]) ids ↔
      u ∈ ids ∨ u ∈ owners := by
  induction owners generalizing ids with
  | nil => simp
  | cons v owners ih =>
    rw [List.foldl_cons, ih]
    by_cases hv : v ∈ ids
    · rw [if_pos hv, List.mem_cons]
      constructor
      · rintro (h | h)
        · exact .inl h
        · exact .inr (.inr h)
      · rintro (h | rfl | h)
        · exact .inl h
        · exact .inl hv
        · exact .inr h
    · rw [if_neg hv]
      simp [or_assoc]

theorem nodup_foldl_owners (owners : List String) (hids : ids.Nodup) :
    (owners.foldl (fun ids u => if u ∈ ids then ids else ids ++ [u]) ids).Nodup := by
  induction owners generalizing ids with
  | nil => exact hids
  | cons v owners ih =>
    rw [List.foldl_cons]
    by_cases hv : v ∈ ids
    · rw [if_pos hv]
      exact ih hids
    · rw [if_neg hv]
      refine ih (List.nodup_append.mpr ⟨hids, List.nodup_singleton v, ?_⟩)
      rintro a ha b hb rfl
      exact hv (List.mem_singleton.mp hb ▸ ha)

/-- One more page. -/
theorem Collected.page (hc : Collected f past ids) (start : ℕ) (last : Bool)
    (owners : List String) (next : ℕ) :
    Collected f (⟨.scanPage f start last, .ok (owners, next)⟩ :: past)
      (owners.foldl (fun ids u => if u ∈ ids then ids else ids ++ [u]) ids) := by
  refine ⟨.cons (.inr ⟨f, start, last, rfl⟩) hc.scans, ?_, nodup_foldl_owners owners hc.nodup⟩
  intro u
  rw [mem_foldl_owners, hc.mem]
  constructor
  · rintro (hscanned | hu)
    · exact hscanned.mono (List.suffix_cons ..)
    · exact ⟨start, last, owners, next, List.mem_cons_self .., hu⟩
  · rintro ⟨start', last', owners', next', hmem, hu⟩
    obtain heq | hmem := List.mem_cons.mp hmem
    · cases heq
      exact .inr hu
    · exact .inl ⟨start', last', owners', next', hmem, hu⟩

theorem collectOwners_obeys {ready : Past → Command → Prop} {owners : List String}
    {Q : Past → List String → Prop}
    (h : Q past (owners.foldl (fun ids u => if u ∈ ids then ids else ids ++ [u]) ids)) :
    (collectOwners ids owners).Obeys ready (fun past r => ∀ ids, r = .ok ids → Q past ids) past := by
  refine Adapter.obeys_assert (fun _ => ?_) fun _ => by simp
  intro ids' hids
  obtain rfl := Except.ok.inj hids
  exact h

/-- The whole scan. -/
theorem scanFrom_obeys (n start : ℕ) (hc : Collected f past ids)
    (hstart : start = scanPosition past) (hopen : ¬ ScanEnded past f) :
    (scanFrom f n start ids).Obeys (Ready (.revokeFamily f)) (fun past r => ∀ ids, r = .ok ids →
      Collected f past ids ∧ ScanEnded past f) past := by
  induction n generalizing start past ids with
  | zero =>
    refine ⟨⟨rfl, hstart, hopen⟩, ?_⟩
    rintro (e | ⟨owners, next⟩)
    · exact fun _ h => by cases h
    · exact collectOwners_obeys (Q := fun past ids => Collected f past ids ∧ ScanEnded past f)
        ⟨hc.page start true owners next, start, owners, next, List.mem_cons_self ..⟩
  | succ n ih =>
    refine ⟨⟨rfl, hstart, hopen⟩, ?_⟩
    rintro (e | ⟨owners, next⟩)
    · exact fun _ h => by cases h
    refine (@collectOwners_obeys _ _ (Ready (.revokeFamily f)) _ (fun past' ids =>
      past' = ⟨.scanPage f start false, .ok (owners, next)⟩ :: past ∧ Collected f past' ids)
      ⟨rfl, hc.page start false owners next⟩).bind ?_ fun _ _ _ _ h => by cases h
    rintro past' ids' hq
    obtain ⟨rfl, hc'⟩ := hq ids' rfl
    refine ih next hc' rfl ?_
    rintro ⟨start', owners', next', hmem⟩
    obtain heq | hmem := List.mem_cons.mp hmem
    · cases heq
    · exact hopen ⟨start', owners', next', hmem⟩

theorem userIdsForFamily_obeys (f : String) :
    (userIdsForFamily f).Obeys (Ready (.revokeFamily f)) (fun past r => ∀ ids, r = .ok ids →
      Collected f past ids ∧ ScanEnded past f) [] := by
  refine Adapter.obeys_assert (fun _ => ?_) fun _ => by simp
  refine ⟨trivial, fun pages => ?_⟩
  refine scanFrom_obeys pages 0 ⟨.cons (.inl rfl) (.refl _), ?_, List.nodup_nil⟩ rfl ?_
  · intro u
    constructor
    · exact fun hu => absurd hu List.not_mem_nil
    · rintro ⟨start, last, owners, next, hmem, -⟩
      obtain heq | hmem := List.mem_cons.mp hmem
      · cases heq
      · exact absurd hmem List.not_mem_nil
  · rintro ⟨start, owners, next, hmem⟩
    obtain heq | hmem := List.mem_cons.mp hmem
    · cases heq
    · exact absurd hmem List.not_mem_nil

end Scan

/-! ## The attempts of a revocation of a family -/

section FamilyAttempts

variable {f u : String} {base past : Past} {counted : List Key}

/-- Requests for one user, after the scan. -/
def Revokes (o : Command) : Prop := ¬ Scans o

/-- What the attempts for a user have counted so far, since they began. -/
structure Counting (f u : String) (base past : Past) (counted : List Key) : Prop where
  since : Program.Since Revokes base past
  nodup : counted.Nodup
  processed : ∀ k ∈ counted, Processed past k
  pointed : ∀ h, .session h ∈ counted → Points past u f h
  submitted : ∀ k, Submitted past k → Submitted base k ∨ k ∈ counted

/-- What the attempts for a user have done when they return. -/
structure Attempted (f u : String) (base past : Past) (n : ℕ) : Prop where
  handled : (∃ roster, Read past u roster ∧ roster.families.lookup f = none) ∨
    ∃ live, (⟨.clearFamily u f live, .ok ()⟩ : Performed Ans) ∈ past
  counted : ∃ counted, Counting f u base past counted ∧ counted.length = n ∧
    ∀ h, .session h ∈ counted → Forgotten past h

/-- A read of the roster is no scan and sends nothing. -/
theorem Counting.read (hc : Counting f u base past counted) (u' : String)
    (ans : Answer UserRoster) : Counting f u base (⟨.getRoster u', ans⟩ :: past) counted where
  since := .cons (by simp [Revokes, Scans]) hc.since
  nodup := hc.nodup
  processed k hk := (hc.processed k hk).mono (List.suffix_cons ..)
  pointed h hk := (hc.pointed h hk).mono (List.suffix_cons ..)
  submitted k hk := hc.submitted k ((submitted_cons_of_ne (by simp)).mp hk)

/-- The live session is the only session among the keys of an entry. -/
theorem session_mem_entries {family : FamilyRoster} {h : String} :
    Key.session h ∈ family.entries ↔ family.live = h ∧ h ≠ "" := by
  unfold FamilyRoster.entries
  by_cases hlive : family.live = ""
  · simp only [hlive, if_true, List.nil_append, List.mem_map, reduceCtorEq, and_false, exists_false,
      false_iff, not_and, not_not]
    exact fun heq => heq.symm
  · simp only [hlive, if_false, List.mem_append, List.mem_singleton, Key.session.injEq, List.mem_map,
      reduceCtorEq, and_false, exists_false, or_false]
    constructor
    · rintro rfl
      exact ⟨rfl, hlive⟩
    · exact fun heq => heq.1.symm

/-- Every other hash of an entry is named as a retirement record. -/
theorem retired_mem_entries {family : FamilyRoster} {h : String} :
    Key.retired h ∈ family.entries ↔ h ∈ family.members ∧ h ≠ family.live := by
  unfold FamilyRoster.entries
  by_cases hlive : family.live = "" <;> simp [hlive]

/-- An entry that is the same when it is read again names nothing else. -/
theorem entries_subset_of_same {fresh family : FamilyRoster} (hsame : fresh.same family = true) :
    fresh.live = family.live ∧ fresh.entries ⊆ family.entries := by
  simp only [FamilyRoster.same, sameMembers, Bool.and_eq_true, beq_iff_eq, List.all_eq_true,
    List.contains_iff_mem] at hsame
  obtain ⟨hlive, -, hmembers⟩ := hsame
  refine ⟨hlive, fun k hk => ?_⟩
  cases k with
  | session h => exact session_mem_entries.mpr (hlive ▸ session_mem_entries.mp hk)
  | retired h =>
    obtain ⟨hmem, hne⟩ := retired_mem_entries.mp hk
    exact retired_mem_entries.mpr ⟨hmembers h hmem, hlive ▸ hne⟩

/-- The keys of one more entry, which have been processed since it was read. -/
theorem Counting.entry (hc : Counting f u base past counted) {past' : Past} {roster : UserRoster}
    {family : FamilyRoster} (hlookup : roster.families.lookup f = some family)
    (hs : Program.Since (Deletes family.entries) (⟨.getRoster u, .ok roster⟩ :: past) past')
    (hdone : ∀ k ∈ family.entries, Processed past' k) :
    Counting f u base past' (family.entries ∪ counted) := by
  have hread := hc.read u (.ok roster)
  refine ⟨hread.since.trans (hs.mono ?_), hc.nodup.union _, ?_, ?_, ?_⟩
  · rintro o ⟨batch, rfl, -⟩
    simp [Revokes, Scans]
  · intro k hk
    obtain hk | hk := List.mem_union_iff.mp hk
    · exact hdone k hk
    · exact (hread.processed k hk).mono hs.suffix
  · intro h hk
    obtain hk | hk := List.mem_union_iff.mp hk
    · obtain ⟨hlive, hne⟩ := session_mem_entries.mp hk
      exact ⟨roster, family, hs.mem (List.mem_cons_self ..), hlookup, hlive, hne⟩
    · exact (hread.pointed h hk).mono hs.suffix
  · intro k hk
    obtain hk | hk := submitted_of_deletes hs hk
    · exact .inr (List.mem_union_iff.mpr (.inl hk))
    · exact (hread.submitted k hk).imp_right fun hk => List.mem_union_iff.mpr (.inr hk)

/-- A session that was pointed at is forgotten when the entry is read without it. -/
theorem forgotten_of_read {h : String} (hp : Points past u f h) {fresh : UserRoster}
    (hfresh : ∀ family, fresh.families.lookup f = some family → family.live ≠ h) :
    Forgotten (⟨.getRoster u, .ok fresh⟩ :: past) h :=
  ⟨u, _, past, List.suffix_rfl, .inl ⟨f, hp, .inl ⟨fresh, rfl, hfresh⟩⟩⟩

/-- The attempts for one user. -/
theorem revokeFamilyAttempts_obeys (n : ℕ) (hscanned : Scanned base f u)
    (hc : Counting f u base past counted) :
    (revokeFamilyAttempts f u n counted).Obeys (Ready (.revokeFamily f)) (fun past r =>
      Program.Since Revokes base past ∧ ∀ n, r = .ok n → Attempted f u base past n) past := by
  induction n generalizing past counted with
  | zero => exact ⟨hc.since, fun n h => by cases h⟩
  | succ n ih =>
    refine ⟨hscanned.mono hc.since.suffix, ?_⟩
    rintro (e | roster)
    · exact ⟨(hc.read u (.error e)).since, fun n h => by cases h⟩
    have hread := hc.read u (.ok roster)
    cases hlookup : roster.families.lookup f with
    | none =>
      dsimp only [Program.bind, Program.ofExcept]
      rw [hlookup]
      refine ⟨hread.since, fun n hn => ?_⟩
      refine ⟨.inl ⟨roster, List.mem_cons_self .., hlookup⟩, counted, hread, Except.ok.inj hn, ?_⟩
      intro h hk
      exact forgotten_of_read (hc.pointed h hk) fun family hfamily => by
        rw [hlookup] at hfamily
        cases hfamily
    | some family =>
      dsimp only [Program.bind, Program.ofExcept]
      rw [hlookup]
      refine Adapter.obeys_assert (fun _ => ?_) fun _ => ⟨hread.since, fun n h => by cases h⟩
      refine (deleteAll_obeys family.entries ?_).bind ?_ ?_
      · intro past' hs batch hbatch k hk
        exact ⟨u, roster, family, hs.mem (List.mem_cons_self ..), hlookup, hbatch hk⟩
      · rintro past₂ ⟨⟩ ⟨hs, hdone⟩
        have hentry := hc.entry hlookup hs (hdone rfl)
        refine ⟨hscanned.mono hentry.since.suffix, ?_⟩
        rintro (e | fresh)
        · exact ⟨(hentry.read u (.error e)).since, fun n h => by cases h⟩
        have hconfirm := hentry.read u (.ok fresh)
        by_cases hsame : ((fresh.families.lookup f).any fun f => f.same family) = true
        · show (if ((fresh.families.lookup f).any fun f => f.same family) = true then _
            else _ : Adapter Ans ℕ).Obeys _ _ _
          rw [if_pos hsame]
          obtain ⟨fresh', hfresh, hsame⟩ := (Option.any_eq_true ..).mp hsame
          obtain ⟨hlive, hsub⟩ := entries_subset_of_same hsame
          refine ⟨⟨rfl, fresh, fresh', past₂, rfl, hfresh, hlive, fun k hk => hdone rfl k (hsub hk)⟩, ?_⟩
          have hcleared (ans : Answer Unit) : Program.Since Revokes base
              (⟨.clearFamily u f family.live, ans⟩ :: ⟨.getRoster u, .ok fresh⟩ :: past₂) :=
            .cons (by simp [Revokes, Scans]) hconfirm.since
          rintro (e | ⟨⟩)
          · exact ⟨hcleared (.error e), fun n h => by cases h⟩
          refine ⟨hcleared (.ok ()), fun n hn => ⟨.inr ⟨family.live, List.mem_cons_self ..⟩,
            family.entries ∪ counted, ?_, Except.ok.inj hn, ?_⟩⟩
          · exact ⟨hcleared (.ok ()), hconfirm.nodup,
              fun k hk => (hconfirm.processed k hk).mono (List.suffix_cons ..),
              fun h hk => (hconfirm.pointed h hk).mono (List.suffix_cons ..),
              fun k hk => hconfirm.submitted k ((submitted_cons_of_ne (by simp)).mp hk)⟩
          · intro h hk
            have hpoints := hentry.pointed h hk
            by_cases hcurrent : family.live = h
            · refine ⟨u, _, _, List.suffix_rfl, .inl ⟨f, hconfirm.pointed h hk, .inr ?_⟩⟩
              rw [hcurrent]
            · refine (forgotten_of_read hpoints ?_).mono (List.suffix_cons ..)
              intro family' hfamily'
              rw [hfresh] at hfamily'
              obtain rfl := Option.some.inj hfamily'
              exact hlive ▸ hcurrent
        · show (if ((fresh.families.lookup f).any fun f => f.same family) = true then _
            else _ : Adapter Ans ℕ).Obeys _ _ _
          rw [if_neg hsame]
          exact ih hconfirm
      · rintro past' e ⟨hs, -⟩
        refine ⟨hread.since.trans (hs.mono ?_), fun n h => by cases h⟩
        rintro o ⟨batch, rfl, -⟩
        simp [Revokes, Scans]

end FamilyAttempts

end Dynamo

end OidcExchange
