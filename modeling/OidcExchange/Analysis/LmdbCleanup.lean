import OidcExchange.Analysis.LmdbAlone
import OidcExchange.Analysis.LmdbIndex

/-!
# What a cleanup of LMDB deletes

A cleanup that runs alone takes exactly the sessions, the retirement records and the single-use
records that have expired, and counts them; the indexes go on agreeing with the tables.
-/

set_option autoImplicit false

namespace OidcExchange

open Storage Interleaving

namespace Lmdb

/-! ## Sessions and retirement records -/

namespace Tables

variable {t : Tables} {now : Instant}

/-- Live entries that are all there go, and each is counted. -/
theorem commitDeletionBatch_live {l : List Session}
    (hnodup : (l.map Session.refreshTokenHash).Nodup)
    (hall : ∀ s ∈ l, t.sessions.lookup s.refreshTokenHash = some s) :
    t.commitDeletionBatch (l.map .live) =
      (l.length, l.foldl (fun t s => t.removeLiveEntry s.refreshTokenHash s) t) := by
  induction l generalizing t with
  | nil => rfl
  | cons s l ih =>
    obtain ⟨hnot, hrest⟩ := List.nodup_cons.mp hnodup
    have hleft : ∀ s' ∈ l, (t.removeLiveEntry s.refreshTokenHash s).sessions.lookup
        s'.refreshTokenHash = some s' := by
      intro s' hs'
      have hne : s'.refreshTokenHash ≠ s.refreshTokenHash := fun heq =>
        hnot (heq ▸ List.mem_map_of_mem hs')
      exact (AList.lookup_erase_ne hne).trans (hall s' (List.mem_cons_of_mem _ hs'))
    have hhere : (t.sessions.lookup s.refreshTokenHash).isSome = true := by
      rw [hall s List.mem_cons_self, Option.isSome_some]
    rw [List.map_cons, commitDeletionBatch_cons]
    simp only [removeExpired, hhere, ih hrest hleft, List.length_cons, List.foldl_cons,
      Bool.toNat_true, Nat.add_comm]

/-- Retired entries that are all there go, and each is counted. -/
theorem commitDeletionBatch_retired {l : List RetiredRefreshToken}
    (hnodup : (l.map RetiredRefreshToken.refreshTokenHash).Nodup)
    (hall : ∀ r ∈ l, t.retiredTokens.lookup r.refreshTokenHash = some r) :
    t.commitDeletionBatch (l.map .retired) = (l.length, l.foldl removeRetiredEntry t) := by
  induction l generalizing t with
  | nil => rfl
  | cons r l ih =>
    obtain ⟨hnot, hrest⟩ := List.nodup_cons.mp hnodup
    have hleft : ∀ r' ∈ l, (t.removeRetiredEntry r).retiredTokens.lookup r'.refreshTokenHash =
        some r' := by
      intro r' hr'
      have hne : r'.refreshTokenHash ≠ r.refreshTokenHash := fun heq =>
        hnot (heq ▸ List.mem_map_of_mem hr')
      exact (AList.lookup_erase_ne hne).trans (hall r' (List.mem_cons_of_mem _ hr'))
    have hhere : (t.retiredTokens.lookup r.refreshTokenHash).isSome = true := by
      rw [hall r List.mem_cons_self, Option.isSome_some]
    rw [List.map_cons, commitDeletionBatch_cons]
    simp only [removeExpired, hhere, ih hrest hleft, List.length_cons, List.foldl_cons,
      Bool.toNat_true, Nat.add_comm]

/-- The expired sessions. -/
def expiredSessions (t : Tables) (now : Instant) : List Session :=
  (t.sessions.entries.map (·.2)).filter fun s => s.expiresAt ≤ now

/-- The expired retirement records. -/
def expiredRecords (t : Tables) (now : Instant) : List RetiredRefreshToken :=
  (t.retiredTokens.entries.map (·.2)).filter fun r => r.expiresAt ≤ now

theorem length_filter_values {ν : Type} (t : Table String ν) (p : ν → Bool) :
    ((t.entries.map (·.2)).filter p).length = t.countWhere fun _ x => p x := by
  rw [← List.countP_eq_length_filter, List.countP_map]
  rfl

/-- Values that bear their own key are found under it. -/
theorem mem_filter_values {ν : Type} {t : Table String ν} {key : ν → String} {p : ν → Bool} {x : ν}
    (hkey : ∀ k x, t.lookup k = some x → key x = k) :
    x ∈ (t.entries.map (·.2)).filter p ↔ t.lookup (key x) = some x ∧ p x = true := by
  rw [List.mem_filter, List.mem_map]
  refine and_congr_left fun _ => ⟨?_, fun h => ⟨⟨key x, x⟩, AList.mem_lookup_iff.mp h, rfl⟩⟩
  rintro ⟨⟨k, x'⟩, he, rfl⟩
  have hlookup := AList.mem_lookup_iff.mpr he
  rwa [hkey k x' hlookup]

theorem nodup_filter_values {ν : Type} {t : Table String ν} {key : ν → String} {p : ν → Bool}
    (hkey : ∀ k x, t.lookup k = some x → key x = k) :
    (((t.entries.map (·.2)).filter p).map key).Nodup := by
  have hsame : (t.entries.map (·.2)).map key = t.entries.map Sigma.fst := by
    rw [List.map_map]
    refine List.map_congr_left ?_
    rintro ⟨k, x⟩ he
    exact hkey k x (AList.mem_lookup_iff.mpr he)
  have hkeys : (t.entries.map Sigma.fst).Nodup := t.nodupKeys
  rw [← hsame] at hkeys
  exact hkeys.sublist (List.filter_sublist.map _)

/-- The key of a value is among those of the filtered values when the value meets the filter. -/
theorem mem_map_filter_values {ν : Type} {t : Table String ν} {key : ν → String} {p : ν → Bool}
    {k : String} {x : ν} (hkey : ∀ k x, t.lookup k = some x → key x = k)
    (hlookup : t.lookup k = some x) :
    k ∈ ((t.entries.map (·.2)).filter p).map key ↔ p x = true := by
  rw [List.mem_map]
  constructor
  · rintro ⟨x', hx', rfl⟩
    obtain ⟨hfound, hp⟩ := (mem_filter_values hkey).mp hx'
    obtain rfl := Option.some.inj (hfound.symm.trans hlookup)
    exact hp
  · intro hp
    have hk := hkey k x hlookup
    exact ⟨x, (mem_filter_values hkey).mpr ⟨hk ▸ hlookup, hp⟩, hk⟩

/-- A cleanup of sessions and retirement records has taken what has expired. -/
structure Swept (t : Tables) (now : Instant) (n : ℕ) (t' : Tables) : Prop where
  count : n = t.sessions.countWhere (fun _ s => s.expiresAt ≤ now) +
    t.retiredTokens.countWhere (fun _ r => r.expiresAt ≤ now)
  sessions : ∀ h s, t'.sessions.lookup h = some s ↔
    t.sessions.lookup h = some s ∧ ¬s.expiresAt ≤ now
  retired : ∀ h r, t'.retiredTokens.lookup h = some r ↔
    t.retiredTokens.lookup h = some r ∧ ¬r.expiresAt ≤ now
  agrees : t'.Agrees

/-- What is left of a table without some keys. -/
theorem ite_none_eq_some {ν : Type} {t : Table String ν} {keys : List String} {k : String} {x : ν}
    {gone : Prop} (hgone : t.lookup k = some x → (k ∈ keys ↔ gone)) :
    (if k ∈ keys then none else t.lookup k) = some x ↔ t.lookup k = some x ∧ ¬gone := by
  by_cases hmem : k ∈ keys
  · rw [if_pos hmem]
    exact iff_of_false nofun fun h => h.2 ((hgone h.1).mp hmem)
  · rw [if_neg hmem]
    exact ⟨fun h => ⟨h, fun hg => hmem ((hgone h).mpr hg)⟩, And.left⟩

theorem Agrees.sweep (ht : t.Agrees) (now : Instant) :
    Swept t now (t.commitDeletionBatch (t.listExpired now)).1
      (t.commitDeletionBatch (t.listExpired now)).2 := by
  have hsession := fun h s hs => (ht.session h s hs).1
  have hretired := fun h r hr => (ht.retired h r hr).1
  have hlive : ∀ s ∈ t.expiredSessions now, t.sessions.lookup s.refreshTokenHash = some s :=
    fun s hs => ((mem_filter_values hsession).mp hs).1
  have hrecord : ∀ r ∈ t.expiredRecords now, t.retiredTokens.lookup r.refreshTokenHash = some r :=
    fun r hr => ((mem_filter_values hretired).mp hr).1
  -- the live entries go first
  let named := (t.expiredSessions now).map fun s => (s.refreshTokenHash, s)
  have hnames : named.map (·.1) = (t.expiredSessions now).map Session.refreshTokenHash := by
    rw [List.map_map]
    rfl
  obtain ⟨ht₁, hsessions₁, hretired₁⟩ := ht.removeLives (l := named)
    (hnames ▸ nodup_filter_values hsession) (by
      intro e he
      obtain ⟨s, hs, rfl⟩ := List.mem_map.mp he
      exact hlive s hs)
  rw [hnames] at hsessions₁
  have hbatch₁ : t.commitDeletionBatch ((t.expiredSessions now).map .live) =
      ((t.expiredSessions now).length,
        (t.expiredSessions now).foldl (fun t s => t.removeLiveEntry s.refreshTokenHash s) t) :=
    commitDeletionBatch_live (nodup_filter_values hsession) hlive
  have hfold : named.foldl (fun t e => t.removeLiveEntry e.1 e.2) t =
      (t.expiredSessions now).foldl (fun t s => t.removeLiveEntry s.refreshTokenHash s) t :=
    List.foldl_map
  rw [hfold] at ht₁ hsessions₁ hretired₁
  generalize (t.expiredSessions now).foldl (fun t s => t.removeLiveEntry s.refreshTokenHash s) t =
    t₁ at ht₁ hsessions₁ hretired₁ hbatch₁
  -- then the retired ones
  have hrecord₁ : ∀ r ∈ t.expiredRecords now,
      t₁.retiredTokens.lookup r.refreshTokenHash = some r := hretired₁ ▸ hrecord
  obtain ⟨ht₂, hsessions₂, hretired₂⟩ := ht₁.removeRetireds (l := t.expiredRecords now) (by
    intro r hr
    have hlookup := hrecord₁ r hr
    refine ⟨(ht₁.retired _ r hlookup).2, ?_, .inl hlookup⟩
    cases hs : t₁.sessions.lookup r.refreshTokenHash with
    | none => rfl
    | some s => exact absurd (hlookup.symm.trans (ht₁.apart _ s hs)) nofun)
  have hbatch₂ : t₁.commitDeletionBatch ((t.expiredRecords now).map .retired) =
      ((t.expiredRecords now).length, (t.expiredRecords now).foldl removeRetiredEntry t₁) :=
    commitDeletionBatch_retired (nodup_filter_values hretired) hrecord₁
  have hbatch : t.commitDeletionBatch (t.listExpired now) =
      ((t.expiredSessions now).length + (t.expiredRecords now).length,
        (t.expiredRecords now).foldl removeRetiredEntry t₁) := by
    have happend := t.commitDeletionBatch_append ((t.expiredSessions now).map .live)
      ((t.expiredRecords now).map .retired)
    rw [hbatch₁, hbatch₂] at happend
    exact happend
  rw [hbatch]
  refine ⟨?_, ?_, ?_, ht₂⟩
  · exact congrArg₂ (· + ·) (length_filter_values ..) (length_filter_values ..)
  · intro h s
    rw [hsessions₂, hsessions₁]
    exact ite_none_eq_some fun hlookup =>
      (mem_map_filter_values hsession hlookup).trans decide_eq_true_iff
  · intro h r
    rw [hretired₂, hretired₁]
    exact ite_none_eq_some fun hlookup =>
      (mem_map_filter_values hretired hlookup).trans decide_eq_true_iff

end Tables

/-! ## Single-use records -/

/-- A fold whose steps succeed and add the keys of expired entries lists those keys. -/
theorem foldlM_expired {now : Instant} {l : List (Sigma fun _ : String => Instant)}
    {step : List String → (Sigma fun _ : String => Instant) → Answer (List String)}
    (hstep : ∀ keys, ∀ e ∈ l, step keys e = .ok (if e.2 ≤ now then keys ++ [e.1] else keys))
    (keys : List String) :
    l.foldlM step keys = .ok (keys ++ (l.filter fun e => e.2 ≤ now).map Sigma.fst) := by
  induction l generalizing keys with
  | nil =>
    rw [List.filter_nil, List.map_nil, List.append_nil]
    rfl
  | cons e l ih =>
    have hrest := ih fun keys e' he' => hstep keys e' (List.mem_cons_of_mem _ he')
    rw [List.foldlM_cons, hstep keys e List.mem_cons_self, List.filter_cons]
    show (List.foldlM _ (if e.2 ≤ now then keys ++ [e.1] else keys) l) = _
    rw [hrest]
    by_cases hexpired : e.2 ≤ now
    · simp [hexpired]
    · simp [hexpired]

/-- Where every expiry can be read, cleanup lists the keys of what has expired. -/
theorem listSingleUse_eq {now : Instant} {t : Table String Instant}
    (hyears : ∀ k e, t.lookup k = some e → FourDigitYear e) :
    listSingleUse now t =
      .ok ((t.entries.filter fun e => e.2 ≤ now).map Sigma.fst) := by
  have hall : ∀ e ∈ t.entries, reread e.2 = .ok e.2 := fun e he =>
    if_pos (hyears e.1 e.2 (AList.mem_lookup_iff.mpr he))
  refine (foldlM_expired (fun keys e he => ?_) []).trans (by rw [List.nil_append])
  rw [hall e he]

end Lmdb

end OidcExchange
