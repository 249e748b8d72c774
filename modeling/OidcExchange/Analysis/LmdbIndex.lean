import OidcExchange.Adapters.Lmdb

/-!
# The indexes of the LMDB store agree with its tables

A hash is filed under its owner and its family exactly as the tables hold it. Every step of a
transaction keeps that; a revocation that reads an index finds what the tables hold.
-/

set_option autoImplicit false

namespace OidcExchange

namespace Lmdb

open Storage

/-! ## Composite keys -/

/-- What a separator that is in neither first part splits is split in one way. -/
theorem split_unique {α : Type} {sep : α} {x y z w : List α} (hx : sep ∉ x) (hy : sep ∉ y)
    (h : x ++ sep :: z = y ++ sep :: w) : x = y ∧ z = w := by
  induction x generalizing y with
  | nil =>
    cases y with
    | nil => simpa using h
    | cons b y => exact absurd (List.cons.inj h).1 fun heq => hy (heq ▸ List.mem_cons_self ..)
  | cons a x ih =>
    cases y with
    | nil => exact absurd (List.cons.inj h).1 fun heq => hx (heq ▸ List.mem_cons_self ..)
    | cons b y =>
      obtain ⟨rfl, htail⟩ := List.cons.inj h
      obtain ⟨rfl, rfl⟩ := ih (fun hmem => hx (List.mem_cons_of_mem _ hmem))
        (fun hmem => hy (List.mem_cons_of_mem _ hmem)) htail
      exact ⟨rfl, rfl⟩

theorem toList_userSessionKey (u h : String) :
    (userSessionKey u h).toList = u.toList ++ ':' :: h.toList := by
  simp [userSessionKey]

theorem toList_familyIndexKey (f h : String) :
    (familyIndexKey f h).toList = f.toList ++ '\x00' :: h.toList := by
  simp [familyIndexKey]

theorem familyIndexKey_inj {f f' h h' : String} (hf : '\x00' ∉ f.toList) (hf' : '\x00' ∉ f'.toList)
    (heq : familyIndexKey f h = familyIndexKey f' h') : f = f' ∧ h = h' := by
  have hlist := congrArg String.toList heq
  rw [toList_familyIndexKey, toList_familyIndexKey] at hlist
  obtain ⟨hfirst, hrest⟩ := split_unique hf hf' hlist
  exact ⟨String.toList_injective hfirst, String.toList_injective hrest⟩

/-- A key whose parts have no separator is split in one way, whatever it is compared with. -/
theorem userSessionKey_inj {u u' h h' : String} (hu : ':' ∉ u.toList) (hh : ':' ∉ h.toList)
    (heq : userSessionKey u' h' = userSessionKey u h) : u' = u ∧ h' = h := by
  have hlist := congrArg String.toList heq
  rw [toList_userSessionKey, toList_userSessionKey] at hlist
  have hu' : ':' ∉ u'.toList := by
    intro hmem
    have hcount := congrArg (List.count ':') hlist
    have hpos := List.count_pos_iff.mpr hmem
    have hzero := List.count_eq_zero.mpr hu
    have hzero' := List.count_eq_zero.mpr hh
    simp only [List.count_append, List.count_cons_self] at hcount
    omega
  obtain ⟨hfirst, hrest⟩ := split_unique hu' hu hlist
  exact ⟨String.toList_injective hfirst, String.toList_injective hrest⟩

/-- A well-formed family identifier has no separator in it. -/
theorem nul_notMem_of_isValidFamilyId {f : String} (h : isValidFamilyId f = true) :
    '\x00' ∉ f.toList := by
  unfold isValidFamilyId at h
  split at h
  · exact absurd h (by simp)
  · rename_i rest hrest
    obtain ⟨pre, hsplit, hpre⟩ := List.dropPrefix?_eq_some_iff.mp hrest
    have hpre' : pre = familyIdPrefix.toList := by simpa using hpre
    obtain ⟨-, hall⟩ := Bool.and_eq_true _ _ ▸ h
    rw [hsplit, hpre', List.mem_append]
    rintro (hmem | hmem)
    · exact absurd hmem (by decide)
    · exact absurd (List.all_eq_true.mp hall _ hmem) (by decide)

/-- Stripping a prefix undoes putting it in front. -/
theorem stripPrefix_eq_some {start key rest : String} :
    stripPrefix start key = some rest ↔ key = start ++ rest := by
  unfold stripPrefix
  constructor
  · intro h
    split at h
    · rename_i hpre
      obtain ⟨tail, htail⟩ := List.isPrefixOf_iff_prefix.mp hpre
      have hrest := Option.some.inj h
      rw [← htail, List.drop_left] at hrest
      apply String.toList_injective
      rw [String.toList_append, ← hrest, ← htail, String.toList_ofList]
    · exact absurd h (by simp)
  · rintro rfl
    have hpre : start.toList.isPrefixOf (start ++ rest).toList = true := by
      rw [List.isPrefixOf_iff_prefix, String.toList_append]
      exact List.prefix_append _ _
    rw [if_pos hpre, String.toList_append, List.drop_left, String.ofList_toList]

theorem mem_prefixIter {ν : Type} {t : Table String ν} {start rest : String} {v : ν} :
    (rest, v) ∈ prefixIter t start ↔ t.lookup (start ++ rest) = some v := by
  unfold prefixIter
  rw [List.mem_filterMap]
  constructor
  · rintro ⟨⟨key, v'⟩, he, hstrip⟩
    obtain ⟨rest', hrest', heq⟩ := Option.map_eq_some_iff.mp hstrip
    obtain ⟨rfl, rfl⟩ := Prod.mk.inj heq
    obtain rfl := stripPrefix_eq_some.mp hrest'
    exact AList.mem_lookup_iff.mpr he
  · intro hlookup
    refine ⟨⟨start ++ rest, v⟩, AList.mem_lookup_iff.mp hlookup, ?_⟩
    simp [stripPrefix_eq_some.mpr rfl]

/-- A prefix scan names every rest of a key once. -/
theorem nodup_prefixIter {ν : Type} (t : Table String ν) (start : String) :
    ((prefixIter t start).map (·.1)).Nodup := by
  unfold prefixIter
  rw [List.map_filterMap]
  have hkeys : (t.entries.map Sigma.fst).Nodup := t.nodupKeys
  have hsame : (t.entries.filterMap fun e =>
      ((stripPrefix start e.1).map fun rest => (rest, e.2)).map (·.1)) =
      (t.entries.map Sigma.fst).filterMap (stripPrefix start) := by
    rw [List.filterMap_map]
    congr 1
    funext e
    cases h : stripPrefix start e.1 <;> simp [h]
  rw [hsame]
  refine hkeys.filterMap fun key key' rest hkey hkey' => ?_
  rw [stripPrefix_eq_some.mp hkey, stripPrefix_eq_some.mp hkey']

/-! ## Agreement -/

/-- The session can be filed: its owner and its hash have no separator, and its family is well
formed or missing. -/
structure Fileable (s : Session) : Prop where
  user : ':' ∉ s.userId.toList
  hash : ':' ∉ s.refreshTokenHash.toList
  family : s.familyId = "" ∨ isValidFamilyId s.familyId = true

theorem Fileable.nul {s : Session} (h : Fileable s) : '\x00' ∉ s.familyId.toList := by
  obtain hempty | hvalid := h.family
  · rw [hempty]
    decide
  · exact nul_notMem_of_isValidFamilyId hvalid

namespace Tables

/-- What the tables say should be filed under a family key. -/
def Files (t : Tables) (key : String) : FamilyIndexKind → Prop
  | .live => ∃ h s, t.sessions.lookup h = some s ∧ s.familyId ≠ "" ∧
      key = familyIndexKey s.familyId h
  | .retired => ∃ h r, t.retiredTokens.lookup h = some r ∧ key = familyIndexKey r.familyId h

/-- Rows bear their own hash, no hash is live and retired, and the indexes say what the tables
say. -/
structure Agrees (t : Tables) : Prop where
  session : ∀ h s, t.sessions.lookup h = some s → s.refreshTokenHash = h ∧ Fileable s
  retired : ∀ h r, t.retiredTokens.lookup h = some r →
    r.refreshTokenHash = h ∧ isValidFamilyId r.familyId = true
  apart : ∀ h s, t.sessions.lookup h = some s → t.retiredTokens.lookup h = none
  users : ∀ key, t.userSessions.lookup key = some () ↔
    ∃ h s, t.sessions.lookup h = some s ∧ key = userSessionKey s.userId h
  families : ∀ key kind, t.familyIndex.lookup key = some kind ↔ t.Files key kind

theorem agrees_empty : Tables.empty.Agrees := by
  constructor
  · simp [Tables.empty]
  · simp [Tables.empty]
  · simp [Tables.empty]
  · simp [Tables.empty]
  · rintro key (_ | _) <;> simp [Tables.empty, Files]

variable {t : Tables} {s : Session} {r : RetiredRefreshToken} {h : String}

theorem Agrees.nul (ht : t.Agrees) {h : String} {s : Session}
    (hs : t.sessions.lookup h = some s) : '\x00' ∉ s.familyId.toList :=
  (ht.session h s hs).2.nul

theorem Agrees.nul_retired (ht : t.Agrees) {h : String} {r : RetiredRefreshToken}
    (hr : t.retiredTokens.lookup h = some r) : '\x00' ∉ r.familyId.toList :=
  nul_notMem_of_isValidFamilyId (ht.retired h r hr).2

/-- Removing a live entry, which may have gone already, keeps the indexes in agreement. -/
theorem Agrees.removeLive (ht : t.Agrees) (hs : Fileable s) (hhash : s.refreshTokenHash = h)
    (hhere : t.sessions.lookup h = some s ∨ t.sessions.lookup h = none)
    (hnot : t.retiredTokens.lookup h = none) : (t.removeLiveEntry h s).Agrees := by
  have hleft : ∀ h' s', (t.sessions.erase h).lookup h' = some s' ↔
      h' ≠ h ∧ t.sessions.lookup h' = some s' := by
    intro h' s'
    rw [Table.lookup_erase_ite]
    by_cases heq : h' = h <;> simp [heq]
  have hsame : ∀ {s'}, t.sessions.lookup h = some s' → s' = s := by
    intro s' hlookup
    obtain hs | hnone := hhere
    · exact Option.some.inj (hlookup.symm.trans hs)
    · exact absurd (hlookup.symm.trans hnone) (by simp)
  constructor
  · exact fun h' s' hlookup => ht.session h' s' ((hleft h' s').mp hlookup).2
  · exact ht.retired
  · exact fun h' s' hlookup => ht.apart h' s' ((hleft h' s').mp hlookup).2
  · intro key
    simp only [removeLiveEntry, hleft]
    rw [Table.lookup_erase_ite]
    by_cases hkey : key = userSessionKey s.userId h
    · rw [if_pos hkey]
      refine iff_of_false (by simp) ?_
      rintro ⟨h', s', ⟨hne, hlookup⟩, hkey'⟩
      have hfile := (ht.session h' s' hlookup)
      have hcolon : ':' ∉ h.toList := hhash ▸ hs.hash
      exact hne (userSessionKey_inj hs.user hcolon (hkey'.symm.trans hkey)).2
    · rw [if_neg hkey, ht.users]
      constructor
      · rintro ⟨h', s', hlookup, rfl⟩
        refine ⟨h', s', ⟨?_, hlookup⟩, rfl⟩
        rintro rfl
        exact hkey (by rw [hsame hlookup])
      · rintro ⟨h', s', ⟨-, hlookup⟩, hkey'⟩
        exact ⟨h', s', hlookup, hkey'⟩
  · -- the filings of other hashes are the same before and after
    have hother : ∀ key kind, (s.familyId ≠ "" → key ≠ familyIndexKey s.familyId h) →
        (t.Files key kind ↔ (t.removeLiveEntry h s).Files key kind) := by
      intro key kind hkey
      cases kind with
      | live =>
        simp only [Files, removeLiveEntry, hleft]
        constructor
        · rintro ⟨h', s', hlookup, hfamily, rfl⟩
          refine ⟨h', s', ⟨?_, hlookup⟩, hfamily, rfl⟩
          rintro rfl
          obtain rfl := hsame hlookup
          exact hkey hfamily rfl
        · rintro ⟨h', s', ⟨-, hlookup⟩, hrest⟩
          exact ⟨h', s', hlookup, hrest⟩
      | retired => exact Iff.rfl
    intro key kind
    by_cases hfamily : s.familyId = ""
    · simp only [removeLiveEntry, if_pos hfamily]
      rw [ht.families]
      exact hother key kind fun hne => absurd hfamily hne
    by_cases hkey : key = familyIndexKey s.familyId h
    · simp only [removeLiveEntry, if_neg hfamily]
      rw [Table.lookup_erase_ite, if_pos hkey]
      refine iff_of_false (by simp) ?_
      cases kind with
      | live =>
        rintro ⟨h', s', hlookup, -, hkey'⟩
        obtain ⟨hne, hlookup⟩ := (hleft h' s').mp hlookup
        exact hne (familyIndexKey_inj (ht.nul hlookup) hs.nul (hkey'.symm.trans hkey)).2
      | retired =>
        rintro ⟨h', r, hlookup, hkey'⟩
        obtain ⟨-, rfl⟩ := familyIndexKey_inj (ht.nul_retired hlookup) hs.nul (hkey'.symm.trans hkey)
        exact absurd (hlookup.symm.trans hnot) (by simp)
    · simp only [removeLiveEntry, if_neg hfamily]
      rw [Table.lookup_erase_ite, if_neg hkey, ht.families]
      exact hother key kind fun _ => hkey

/-- Removing a retired entry, which may have gone already, keeps the indexes in agreement. -/
theorem Agrees.removeRetired (ht : t.Agrees) (hr : isValidFamilyId r.familyId = true)
    (hhere : t.retiredTokens.lookup r.refreshTokenHash = some r ∨
      t.retiredTokens.lookup r.refreshTokenHash = none)
    (hnot : t.sessions.lookup r.refreshTokenHash = none) : (t.removeRetiredEntry r).Agrees := by
  have hleft : ∀ h' r', (t.retiredTokens.erase r.refreshTokenHash).lookup h' = some r' ↔
      h' ≠ r.refreshTokenHash ∧ t.retiredTokens.lookup h' = some r' := by
    intro h' r'
    rw [Table.lookup_erase_ite]
    by_cases heq : h' = r.refreshTokenHash <;> simp [heq]
  have hnul := nul_notMem_of_isValidFamilyId hr
  constructor
  · exact ht.session
  · exact fun h' r' hlookup => ht.retired h' r' ((hleft h' r').mp hlookup).2
  · intro h' s' hlookup
    simp only [removeRetiredEntry]
    rw [Table.lookup_erase_ite, ht.apart h' s' hlookup, ite_self]
  · exact ht.users
  · intro key kind
    simp only [removeRetiredEntry]
    rw [Table.lookup_erase_ite]
    by_cases hkey : key = familyIndexKey r.familyId r.refreshTokenHash
    · rw [if_pos hkey]
      refine iff_of_false (by simp) ?_
      cases kind with
      | live =>
        rintro ⟨h', s', hlookup, -, hkey'⟩
        obtain ⟨-, rfl⟩ := familyIndexKey_inj (ht.nul hlookup) hnul (hkey'.symm.trans hkey)
        exact absurd (hlookup.symm.trans hnot) (by simp)
      | retired =>
        rintro ⟨h', r', hlookup, hkey'⟩
        obtain ⟨hne, hlookup⟩ := (hleft h' r').mp hlookup
        exact hne (familyIndexKey_inj (ht.nul_retired hlookup) hnul (hkey'.symm.trans hkey)).2
    · rw [if_neg hkey, ht.families]
      cases kind with
      | live => exact Iff.rfl
      | retired =>
        simp only [Files, hleft]
        constructor
        · rintro ⟨h', r', hlookup, rfl⟩
          refine ⟨h', r', ⟨?_, hlookup⟩, rfl⟩
          rintro rfl
          obtain hsame | hnone := hhere
          · obtain rfl := Option.some.inj (hlookup.symm.trans hsame)
            exact hkey rfl
          · exact absurd (hlookup.symm.trans hnone) (by simp)
        · rintro ⟨h', r', ⟨-, hlookup⟩, hrest⟩
          exact ⟨h', r', hlookup, hrest⟩

/-- Installing a live entry under a new hash keeps the indexes in agreement. -/
theorem Agrees.installLive (ht : t.Agrees) (hs : Fileable s)
    (hlive : t.sessions.lookup s.refreshTokenHash = none)
    (hretired : t.retiredTokens.lookup s.refreshTokenHash = none) :
    (t.installLiveEntry s).Agrees := by
  have hadded : ∀ h' s', (t.sessions.insert s.refreshTokenHash s).lookup h' = some s' ↔
      (h' = s.refreshTokenHash ∧ s' = s) ∨ t.sessions.lookup h' = some s' := by
    intro h' s'
    rw [Table.lookup_insert_ite]
    by_cases heq : h' = s.refreshTokenHash
    · rw [if_pos heq, heq, hlive]
      simp [eq_comm]
    · simp [heq]
  constructor
  · intro h' s' hlookup
    obtain ⟨rfl, rfl⟩ | hlookup := (hadded h' s').mp hlookup
    · exact ⟨rfl, hs⟩
    · exact ht.session h' s' hlookup
  · exact ht.retired
  · intro h' s' hlookup
    obtain ⟨rfl, rfl⟩ | hlookup := (hadded h' s').mp hlookup
    · exact hretired
    · exact ht.apart h' s' hlookup
  · intro key
    simp only [installLiveEntry, hadded]
    rw [Table.lookup_insert_ite]
    by_cases hkey : key = userSessionKey s.userId s.refreshTokenHash
    · rw [if_pos hkey]
      exact iff_of_true rfl ⟨_, s, .inl ⟨rfl, rfl⟩, hkey⟩
    · rw [if_neg hkey, ht.users]
      constructor
      · rintro ⟨h', s', hlookup, hkey'⟩
        exact ⟨h', s', .inr hlookup, hkey'⟩
      · rintro ⟨h', s', ⟨rfl, rfl⟩ | hlookup, hkey'⟩
        · exact absurd hkey' hkey
        · exact ⟨h', s', hlookup, hkey'⟩
  · intro key kind
    by_cases hfamily : s.familyId = ""
    · simp only [installLiveEntry, if_pos hfamily]
      rw [ht.families]
      cases kind with
      | live =>
        simp only [Files, hadded]
        constructor
        · rintro ⟨h', s', hlookup, hrest⟩
          exact ⟨h', s', .inr hlookup, hrest⟩
        · rintro ⟨h', s', ⟨rfl, rfl⟩ | hlookup, hne, hkey'⟩
          · exact absurd hfamily hne
          · exact ⟨h', s', hlookup, hne, hkey'⟩
      | retired => exact Iff.rfl
    simp only [installLiveEntry, if_neg hfamily]
    rw [Table.lookup_insert_ite]
    by_cases hkey : key = familyIndexKey s.familyId s.refreshTokenHash
    · rw [if_pos hkey]
      cases kind with
      | live => exact iff_of_true rfl ⟨_, s, (hadded _ _).mpr (.inl ⟨rfl, rfl⟩), hfamily, hkey⟩
      | retired =>
        refine iff_of_false (by simp) ?_
        rintro ⟨h', r', hlookup, hkey'⟩
        obtain ⟨-, rfl⟩ := familyIndexKey_inj (ht.nul_retired hlookup) hs.nul (hkey'.symm.trans hkey)
        exact absurd (hlookup.symm.trans hretired) (by simp)
    · rw [if_neg hkey, ht.families]
      cases kind with
      | live =>
        simp only [Files, hadded]
        constructor
        · rintro ⟨h', s', hlookup, hrest⟩
          exact ⟨h', s', .inr hlookup, hrest⟩
        · rintro ⟨h', s', ⟨rfl, rfl⟩ | hlookup, hne, hkey'⟩
          · exact absurd hkey' hkey
          · exact ⟨h', s', hlookup, hne, hkey'⟩
      | retired => exact Iff.rfl

/-- Filing a retired entry under a hash that is not live keeps the indexes in agreement. -/
theorem Agrees.fileRetired (ht : t.Agrees) (hr : isValidFamilyId r.familyId = true)
    (hlive : t.sessions.lookup r.refreshTokenHash = none)
    (hretired : t.retiredTokens.lookup r.refreshTokenHash = none) : (t.fileRetired r).Agrees := by
  have hadded : ∀ h' r', (t.retiredTokens.insert r.refreshTokenHash r).lookup h' = some r' ↔
      (h' = r.refreshTokenHash ∧ r' = r) ∨ t.retiredTokens.lookup h' = some r' := by
    intro h' r'
    rw [Table.lookup_insert_ite]
    by_cases heq : h' = r.refreshTokenHash
    · rw [if_pos heq, heq, hretired]
      simp [eq_comm]
    · simp [heq]
  have hnul := nul_notMem_of_isValidFamilyId hr
  constructor
  · exact ht.session
  · intro h' r' hlookup
    obtain ⟨rfl, rfl⟩ | hlookup := (hadded h' r').mp hlookup
    · exact ⟨rfl, hr⟩
    · exact ht.retired h' r' hlookup
  · intro h' s' hlookup
    have hne : h' ≠ r.refreshTokenHash := by
      rintro rfl
      exact absurd (hlookup.symm.trans hlive) (by simp)
    simp only [Tables.fileRetired]
    rw [Table.lookup_insert_ite, if_neg hne]
    exact ht.apart h' s' hlookup
  · exact ht.users
  · intro key kind
    simp only [Tables.fileRetired]
    rw [Table.lookup_insert_ite]
    by_cases hkey : key = familyIndexKey r.familyId r.refreshTokenHash
    · rw [if_pos hkey]
      cases kind with
      | live =>
        refine iff_of_false (by simp) ?_
        rintro ⟨h', s', hlookup, -, hkey'⟩
        obtain ⟨-, rfl⟩ := familyIndexKey_inj (ht.nul hlookup) hnul (hkey'.symm.trans hkey)
        exact absurd (hlookup.symm.trans hlive) (by simp)
      | retired => exact iff_of_true rfl ⟨_, r, (hadded _ _).mpr (.inl ⟨rfl, rfl⟩), hkey⟩
    · rw [if_neg hkey, ht.families]
      cases kind with
      | live => exact Iff.rfl
      | retired =>
        simp only [Files, hadded]
        constructor
        · rintro ⟨h', r', hlookup, hrest⟩
          exact ⟨h', r', .inr hlookup, hrest⟩
        · rintro ⟨h', r', ⟨rfl, rfl⟩ | hlookup, hkey'⟩
          · exact absurd hkey' hkey
          · exact ⟨h', r', hlookup, hkey'⟩

/-! ## What a revocation finds -/

section Revocation

variable {f u : String}

/-- The hashes a family's filings name are the ones the tables hold. -/
theorem mem_filed {kind : FamilyIndexKind} :
    h ∈ t.filed f kind ↔ t.familyIndex.lookup (familyIndexKey f h) = some kind := by
  unfold filed
  rw [List.mem_map]
  have hkey : f ++ "\x00" ++ h = familyIndexKey f h := String.append_assoc ..
  constructor
  · rintro ⟨⟨h', kind'⟩, he, rfl⟩
    obtain ⟨hmem, hkind⟩ := List.mem_filter.mp he
    obtain rfl := of_decide_eq_true hkind
    rw [← hkey]
    exact mem_prefixIter.mp hmem
  · intro hlookup
    rw [← hkey] at hlookup
    exact ⟨(h, kind), List.mem_filter.mpr ⟨mem_prefixIter.mpr hlookup, by simp⟩, rfl⟩

theorem nodup_filed (t : Tables) (f : String) (kind : FamilyIndexKind) : (t.filed f kind).Nodup :=
  (nodup_prefixIter t.familyIndex (f ++ "\x00")).sublist (List.filter_sublist.map _)

theorem Agrees.mem_filed_live (ht : t.Agrees) (hf : isValidFamilyId f = true) :
    h ∈ t.filed f .live ↔ ∃ s, t.sessions.lookup h = some s ∧ s.familyId = f := by
  rw [mem_filed, ht.families]
  constructor
  · rintro ⟨h', s, hlookup, -, hkey⟩
    obtain ⟨rfl, rfl⟩ :=
      familyIndexKey_inj (nul_notMem_of_isValidFamilyId hf) (ht.nul hlookup) hkey
    exact ⟨s, hlookup, rfl⟩
  · rintro ⟨s, hlookup, rfl⟩
    exact ⟨h, s, hlookup, ne_empty_of_isValidFamilyId hf, rfl⟩

theorem Agrees.mem_filed_retired (ht : t.Agrees) (hf : isValidFamilyId f = true) :
    h ∈ t.filed f .retired ↔ ∃ r, t.retiredTokens.lookup h = some r ∧ r.familyId = f := by
  rw [mem_filed, ht.families]
  constructor
  · rintro ⟨h', r, hlookup, hkey⟩
    obtain ⟨rfl, rfl⟩ :=
      familyIndexKey_inj (nul_notMem_of_isValidFamilyId hf) (ht.nul_retired hlookup) hkey
    exact ⟨r, hlookup, rfl⟩
  · rintro ⟨r, hlookup, rfl⟩
    exact ⟨h, r, hlookup, rfl⟩

/-- Removing the live entries of a family, one after another. -/
theorem Agrees.revokeLives (ht : t.Agrees) {l : List String} (hl : l.Nodup)
    (hall : ∀ h ∈ l, ∃ s, t.sessions.lookup h = some s ∧ s.familyId = f) :
    ∃ t', l.foldlM (fun t h => t.revokeLive f h) t = .ok t' ∧ t'.Agrees ∧
      (∀ h, t'.sessions.lookup h = if h ∈ l then none else t.sessions.lookup h) ∧
      t'.retiredTokens = t.retiredTokens := by
  induction l generalizing t with
  | nil => exact ⟨t, rfl, ht, by simp, rfl⟩
  | cons h l ih =>
    obtain ⟨hnot, hl⟩ := List.nodup_cons.mp hl
    obtain ⟨s, hlookup, hfamily⟩ := hall h (List.mem_cons_self ..)
    obtain ⟨hhash, hfile⟩ := ht.session h s hlookup
    have hagrees := ht.removeLive hfile hhash (.inl hlookup) (ht.apart h s hlookup)
    have hstep : t.revokeLive f h = .ok (t.removeLiveEntry h s) := by
      simp [revokeLive, hlookup, hfamily]
    have hleft : ∀ h', (t.removeLiveEntry h s).sessions.lookup h' =
        if h' = h then none else t.sessions.lookup h' := fun h' => Table.lookup_erase_ite ..
    obtain ⟨t', hfold, hagrees', hsessions, hretired⟩ := ih hagrees hl fun h' hmem => by
      have hne : h' ≠ h := fun heq => hnot (heq ▸ hmem)
      rw [hleft, if_neg hne]
      exact hall h' (List.mem_cons_of_mem _ hmem)
    refine ⟨t', ?_, hagrees', fun h' => ?_, hretired⟩
    · rw [List.foldlM_cons, hstep]
      exact hfold
    · rw [hsessions, hleft]
      by_cases heq : h' = h
      · simp [heq]
      · simp [heq]

/-- Removing the retired entries of a family, one after another. -/
theorem Agrees.revokeRetireds (ht : t.Agrees) {l : List String} (hl : l.Nodup)
    (hall : ∀ h ∈ l, ∃ r, t.retiredTokens.lookup h = some r ∧ r.familyId = f) :
    ∃ t', l.foldlM (fun t h => t.revokeRetired f h) t = .ok t' ∧ t'.Agrees ∧
      t'.sessions = t.sessions ∧
      ∀ h, t'.retiredTokens.lookup h = if h ∈ l then none else t.retiredTokens.lookup h := by
  induction l generalizing t with
  | nil => exact ⟨t, rfl, ht, rfl, by simp⟩
  | cons h l ih =>
    obtain ⟨hnot, hrest⟩ := List.nodup_cons.mp hl
    obtain ⟨r, hlookup, hfamily⟩ := hall h (List.mem_cons_self ..)
    obtain ⟨rfl, hvalid⟩ := ht.retired h r hlookup
    have hlive : t.sessions.lookup r.refreshTokenHash = none := by
      cases hs : t.sessions.lookup r.refreshTokenHash with
      | none => rfl
      | some s => exact absurd (hlookup.symm.trans (ht.apart _ s hs)) (by simp)
    have hagrees := ht.removeRetired hvalid (.inl hlookup) hlive
    have hstep : t.revokeRetired f r.refreshTokenHash = .ok (t.removeRetiredEntry r) := by
      simp [revokeRetired, hlookup, hfamily]
    have hleft : ∀ h', (t.removeRetiredEntry r).retiredTokens.lookup h' =
        if h' = r.refreshTokenHash then none else t.retiredTokens.lookup h' :=
      fun h' => Table.lookup_erase_ite ..
    obtain ⟨t', hfold, hagrees', hsessions, hretired⟩ := ih hagrees hrest fun h' hmem => by
      have hne : h' ≠ r.refreshTokenHash := fun heq => hnot (heq ▸ hmem)
      rw [hleft, if_neg hne]
      exact hall h' (List.mem_cons_of_mem _ hmem)
    refine ⟨t', ?_, hagrees', hsessions, fun h' => ?_⟩
    · rw [List.foldlM_cons, hstep]
      exact hfold
    · rw [hretired, hleft]
      by_cases heq : h' = r.refreshTokenHash
      · simp [heq]
      · simp [heq]

/-- What a revocation of one family does where the indexes agree with the tables. -/
structure FamilyRevoked (t : Tables) (f : String) (n : ℕ) (t' : Tables) : Prop where
  count : n = t.sessions.countWhere (fun _ s => s.familyId = f) +
    t.retiredTokens.countWhere (fun _ r => r.familyId = f)
  sessions : ∀ h s, t'.sessions.lookup h = some s ↔
    t.sessions.lookup h = some s ∧ s.familyId ≠ f
  retired : ∀ h r, t'.retiredTokens.lookup h = some r ↔
    t.retiredTokens.lookup h = some r ∧ r.familyId ≠ f
  agrees : t'.Agrees

theorem Agrees.revokeFamily (ht : t.Agrees) (hf : isValidFamilyId f = true) :
    ∃ n t', t.revokeFamilyWtxn f = .ok (n, t') ∧ FamilyRevoked t f n t' := by
  obtain ⟨t₁, hfold₁, ht₁, hsessions₁, hretired₁⟩ := ht.revokeLives (nodup_filed t f .live)
    fun h hmem => (ht.mem_filed_live hf).mp hmem
  obtain ⟨t₂, hfold₂, ht₂, hsessions₂, hretired₂⟩ := ht₁.revokeRetireds (nodup_filed t f .retired)
    fun h hmem => by
      rw [hretired₁]
      exact (ht.mem_filed_retired hf).mp hmem
  refine ⟨(t.filed f .live).length + (t.filed f .retired).length, t₂, ?_, ?_, ?_, ?_, ht₂⟩
  · simp only [revokeFamilyWtxn, hfold₁, hfold₂, bind, Except.bind]
  · congr 1
    · exact (Table.countWhere_eq_length (nodup_filed t f .live) fun h => by
        simp [ht.mem_filed_live hf]).symm
    · exact (Table.countWhere_eq_length (nodup_filed t f .retired) fun h => by
        simp [ht.mem_filed_retired hf]).symm
  · intro h s
    rw [hsessions₂, hsessions₁]
    by_cases hmem : h ∈ t.filed f .live
    · obtain ⟨s', hlookup, hfamily⟩ := (ht.mem_filed_live hf).mp hmem
      rw [if_pos hmem]
      refine iff_of_false (by simp) ?_
      rintro ⟨hs, hne⟩
      obtain rfl := Option.some.inj (hlookup.symm.trans hs)
      exact hne hfamily
    · rw [if_neg hmem]
      refine ⟨fun hs => ⟨hs, fun hfamily => hmem ?_⟩, And.left⟩
      exact (ht.mem_filed_live hf).mpr ⟨s, hs, hfamily⟩
  · intro h r
    rw [hretired₂, hretired₁]
    by_cases hmem : h ∈ t.filed f .retired
    · obtain ⟨r', hlookup, hfamily⟩ := (ht.mem_filed_retired hf).mp hmem
      rw [if_pos hmem]
      refine iff_of_false (by simp) ?_
      rintro ⟨hr, hne⟩
      obtain rfl := Option.some.inj (hlookup.symm.trans hr)
      exact hne hfamily
    · rw [if_neg hmem]
      refine ⟨fun hr => ⟨hr, fun hfamily => hmem ?_⟩, And.left⟩
      exact (ht.mem_filed_retired hf).mpr ⟨r, hr, hfamily⟩

/-- The hashes that the filings of a user name. -/
def named (t : Tables) (u : String) : List String :=
  (prefixIter t.userSessions (u ++ ":")).map (·.1)

theorem Agrees.mem_named (ht : t.Agrees) :
    h ∈ t.named u ↔ ∃ s, t.sessions.lookup h = some s ∧ s.userId = u := by
  have hkey : u ++ ":" ++ h = userSessionKey u h := String.append_assoc ..
  have hfiled : h ∈ t.named u ↔ t.userSessions.lookup (userSessionKey u h) = some () := by
    unfold named
    rw [List.mem_map, ← hkey, ← mem_prefixIter]
    constructor
    · rintro ⟨⟨h', ⟨⟩⟩, hmem, rfl⟩
      exact hmem
    · exact fun hmem => ⟨(h, ()), hmem, rfl⟩
  rw [hfiled, ht.users]
  constructor
  · rintro ⟨h', s, hlookup, hsame⟩
    obtain ⟨hhash, hfile⟩ := ht.session h' s hlookup
    obtain ⟨rfl, rfl⟩ := userSessionKey_inj hfile.user (hhash ▸ hfile.hash) hsame
    exact ⟨s, hlookup, rfl⟩
  · rintro ⟨s, hlookup, rfl⟩
    exact ⟨h, s, hlookup, rfl⟩

/-- Checking the entries of a user against the stored sessions. -/
theorem mapM_namedSession {l : List String}
    (hall : ∀ h ∈ l, ∃ s, t.sessions.lookup h = some s ∧ s.userId = u) :
    ∃ live, l.mapM (t.namedSession u) = .ok live ∧ live.map (·.1) = l ∧
      ∀ e ∈ live, t.sessions.lookup e.1 = some e.2 ∧ e.2.userId = u := by
  induction l with
  | nil => exact ⟨[], rfl, rfl, by simp⟩
  | cons h l ih =>
    obtain ⟨s, hlookup, huser⟩ := hall h (List.mem_cons_self ..)
    obtain ⟨live, hmap, hnames, hlive⟩ := ih fun h' hmem => hall h' (List.mem_cons_of_mem _ hmem)
    have hstep : t.namedSession u h = .ok (h, s) := by
      simp [namedSession, hlookup, huser]
    refine ⟨(h, s) :: live, ?_, by rw [List.map_cons, hnames], ?_⟩
    · rw [List.mapM_cons, hstep, hmap]
      rfl
    · intro e he
      obtain rfl | he := List.mem_cons.mp he
      · exact ⟨hlookup, huser⟩
      · exact hlive e he

/-- Removing some live entries, one after another. -/
theorem Agrees.removeLives (ht : t.Agrees) {l : List (String × Session)} (hl : (l.map (·.1)).Nodup)
    (hall : ∀ e ∈ l, t.sessions.lookup e.1 = some e.2) :
    (l.foldl (fun t e => t.removeLiveEntry e.1 e.2) t).Agrees ∧
      (∀ h, (l.foldl (fun t e => t.removeLiveEntry e.1 e.2) t).sessions.lookup h =
        if h ∈ l.map (·.1) then none else t.sessions.lookup h) ∧
      (l.foldl (fun t e => t.removeLiveEntry e.1 e.2) t).retiredTokens = t.retiredTokens := by
  induction l generalizing t with
  | nil => exact ⟨ht, by simp, rfl⟩
  | cons e l ih =>
    obtain ⟨hnot, hrest⟩ := List.nodup_cons.mp hl
    have hlookup := hall e (List.mem_cons_self ..)
    obtain ⟨hhash, hfile⟩ := ht.session e.1 e.2 hlookup
    have hagrees := ht.removeLive hfile hhash (.inl hlookup) (ht.apart _ _ hlookup)
    have hleft : ∀ h', (t.removeLiveEntry e.1 e.2).sessions.lookup h' =
        if h' = e.1 then none else t.sessions.lookup h' := fun h' => Table.lookup_erase_ite ..
    obtain ⟨hagrees', hsessions, hretired⟩ := ih hagrees hrest fun e' hmem => by
      have hne : e'.1 ≠ e.1 := fun heq => hnot (List.mem_map.mpr ⟨e', hmem, heq⟩)
      rw [hleft, if_neg hne]
      exact hall e' (List.mem_cons_of_mem _ hmem)
    refine ⟨hagrees', fun h => ?_, hretired⟩
    rw [List.foldl_cons, hsessions, hleft]
    simp only [List.map_cons, List.mem_cons]
    by_cases heq : h = e.1
    · rw [if_pos heq, ite_self, if_pos (.inl heq)]
    · simp only [heq, if_false, false_or]

/-- Removing some retired entries, one after another. -/
theorem Agrees.removeRetireds (ht : t.Agrees) {l : List RetiredRefreshToken}
    (hall : ∀ r ∈ l, isValidFamilyId r.familyId = true ∧
      t.sessions.lookup r.refreshTokenHash = none ∧
      (t.retiredTokens.lookup r.refreshTokenHash = some r ∨
        t.retiredTokens.lookup r.refreshTokenHash = none)) :
    (l.foldl removeRetiredEntry t).Agrees ∧
      (l.foldl removeRetiredEntry t).sessions = t.sessions ∧
      ∀ h, (l.foldl removeRetiredEntry t).retiredTokens.lookup h =
        if h ∈ l.map (·.refreshTokenHash) then none else t.retiredTokens.lookup h := by
  induction l generalizing t with
  | nil => exact ⟨ht, rfl, by simp⟩
  | cons r l ih =>
    obtain ⟨hvalid, hlive, hhere⟩ := hall r (List.mem_cons_self ..)
    have hagrees := ht.removeRetired hvalid hhere hlive
    have hleft : ∀ h', (t.removeRetiredEntry r).retiredTokens.lookup h' =
        if h' = r.refreshTokenHash then none else t.retiredTokens.lookup h' :=
      fun h' => Table.lookup_erase_ite ..
    obtain ⟨hagrees', hsessions, hretired⟩ := ih hagrees fun r' hmem => by
      obtain ⟨hvalid', hlive', hhere'⟩ := hall r' (List.mem_cons_of_mem _ hmem)
      refine ⟨hvalid', hlive', ?_⟩
      rw [hleft]
      by_cases heq : r'.refreshTokenHash = r.refreshTokenHash
      · exact .inr (if_pos heq)
      · rwa [if_neg heq]
    refine ⟨hagrees', hsessions, fun h => ?_⟩
    rw [List.foldl_cons, hretired, hleft]
    simp only [List.map_cons, List.mem_cons]
    by_cases heq : h = r.refreshTokenHash
    · rw [if_pos heq, ite_self, if_pos (.inl heq)]
    · simp only [heq, if_false, false_or]

/-- What a revocation of one user does where the indexes agree with the tables. -/
structure UserRevoked (t : Tables) (u : String) (n : ℕ) (t' : Tables) : Prop where
  count : n = t.sessions.countWhere (fun _ s => s.userId = u)
  sessions : ∀ h s, t'.sessions.lookup h = some s ↔ t.sessions.lookup h = some s ∧ s.userId ≠ u
  retired : ∀ h r, t'.retiredTokens.lookup h = some r ↔
    t.retiredTokens.lookup h = some r ∧ r.userId ≠ u
  agrees : t'.Agrees

theorem Agrees.revokeAll (ht : t.Agrees) (u : String) :
    ∃ n t', t.revokeAllWtxn u = .ok (n, t') ∧ UserRevoked t u n t' := by
  obtain ⟨live, hmap, hnames, hlive⟩ := mapM_namedSession (t := t) (u := u) (l := t.named u)
    fun h hmem => ht.mem_named.mp hmem
  have hnodup : (live.map (·.1)).Nodup := hnames ▸ nodup_prefixIter t.userSessions (u ++ ":")
  obtain ⟨ht₁, hsessions₁, hretired₁⟩ := ht.removeLives hnodup fun e he => (hlive e he).1
  let retired := (t.retiredTokens.entries.map (·.2)).filter fun r => r.userId = u
  have hmem : ∀ r, r ∈ retired ↔
      t.retiredTokens.lookup r.refreshTokenHash = some r ∧ r.userId = u := by
    intro r
    simp only [retired, List.mem_filter, List.mem_map, decide_eq_true_eq]
    refine and_congr_left fun _ => ⟨?_, fun hlookup => ?_⟩
    · rintro ⟨⟨h, r'⟩, he, rfl⟩
      have hlookup := AList.mem_lookup_iff.mpr he
      rwa [(ht.retired h r' hlookup).1]
    · exact ⟨⟨r.refreshTokenHash, r⟩, AList.mem_lookup_iff.mp hlookup, rfl⟩
  obtain ⟨ht₂, hsessions₂, hretired₂⟩ := ht₁.removeRetireds (l := retired) fun r hr => by
    obtain ⟨hlookup, -⟩ := (hmem r).mp hr
    refine ⟨(ht.retired _ r hlookup).2, ?_, .inl (hretired₁ ▸ hlookup)⟩
    rw [hsessions₁]
    cases hs : t.sessions.lookup r.refreshTokenHash with
    | none => exact ite_self _
    | some s => exact absurd (hlookup.symm.trans (ht.apart _ s hs)) (by simp)
  refine ⟨live.length, _, ?_, ?_, fun h s => ?_, fun h r => ?_, ht₂⟩
  · simp only [revokeAllWtxn]
    rw [show (prefixIter t.userSessions (u ++ ":")).map (·.1) = t.named u from rfl, hmap]
    rfl
  · have hlen : (t.named u).length = live.length := by rw [← hnames, List.length_map]
    rw [← hlen]
    exact (Table.countWhere_eq_length (nodup_prefixIter t.userSessions (u ++ ":")) fun h => by
      rw [show (prefixIter t.userSessions (u ++ ":")).map (·.1) = t.named u from rfl]
      simp [ht.mem_named]).symm
  · rw [hsessions₂, hsessions₁, hnames]
    by_cases hnamed : h ∈ t.named u
    · obtain ⟨s', hlookup, huser⟩ := ht.mem_named.mp hnamed
      rw [if_pos hnamed]
      refine iff_of_false (by simp) ?_
      rintro ⟨hs, hne⟩
      obtain rfl := Option.some.inj (hlookup.symm.trans hs)
      exact hne huser
    · rw [if_neg hnamed]
      exact ⟨fun hs => ⟨hs, fun huser => hnamed (ht.mem_named.mpr ⟨s, hs, huser⟩)⟩, And.left⟩
  · rw [hretired₂, hretired₁]
    by_cases hgone : h ∈ retired.map (·.refreshTokenHash)
    · obtain ⟨r', hr', rfl⟩ := List.mem_map.mp hgone
      obtain ⟨hlookup, huser⟩ := (hmem r').mp hr'
      rw [if_pos hgone]
      refine iff_of_false (by simp) ?_
      rintro ⟨hr, hne⟩
      obtain rfl := Option.some.inj (hlookup.symm.trans hr)
      exact hne huser
    · rw [if_neg hgone]
      refine ⟨fun hr => ⟨hr, fun huser => hgone ?_⟩, And.left⟩
      obtain ⟨rfl, -⟩ := ht.retired h r hr
      exact List.mem_map_of_mem ((hmem r).mpr ⟨hr, huser⟩)

end Revocation

end Tables

end Lmdb

end OidcExchange
