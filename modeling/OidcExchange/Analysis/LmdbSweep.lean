import OidcExchange.Analysis.LmdbIndex
import OidcExchange.Analysis.PortFacts

/-!
# The indexes of the LMDB store over whole runs

Cleanup decides in a read transaction what a later write transaction deletes. As long as no
session it listed as live has been retired when its batch is written, the indexes agree with the
tables in every state, and a revocation finds all there is. A session that is rotated in between
loses the filing of its retirement record.
-/

set_option autoImplicit false

namespace OidcExchange

namespace Lmdb

open Interleaving Storage

/-! ## What a call has done when it acts -/

/-- What a call has performed so far, newest first. -/
abbrev Past : Type := List (Performed Ans)

/-- A batch is part of what the call has listed, and the arguments of the other transactions
meet the assertions of the adapter. -/
def Ready (_request : Request) (past : Past) : Txn → Prop
  | .store s => (s.familyId = "" ∨ isValidFamilyId s.familyId = true) ∧ s.refreshTokenHash ≠ ""
  | .rotate h r => isValidFamilyId r.familyId = true ∧ h ≠ r.refreshTokenHash
  | .revokeFamily f => isValidFamilyId f = true
  | .deleteBatch batch => ∃ now listed, ⟨.listExpired now, .ok listed⟩ ∈ past ∧ batch ⊆ listed
  | .deleteSingleUse keys => ∃ now, ⟨.listSingleUse now, .ok keys⟩ ∈ past
  | _ => True

section Compliance

variable {request : Request} {past : Past}

theorem deleteFitting_obeys {now : Instant} {listed queue : List Expired} (hqueue : queue ⊆ listed)
    (halvings width : ℕ) (hlisted : ⟨.listExpired now, .ok listed⟩ ∈ past) :
    (deleteFitting queue halvings width).Obeys (Ready request)
      (fun past' _ => ⟨.listExpired now, .ok listed⟩ ∈ past') past := by
  induction halvings generalizing width past with
  | zero =>
    refine ⟨⟨now, listed, hlisted, fun e he => hqueue (List.mem_of_mem_take he)⟩, ?_⟩
    rintro ((_ | e) | removed) <;> exact List.mem_cons_of_mem _ hlisted
  | succ halvings ih =>
    refine ⟨⟨now, listed, hlisted, fun e he => hqueue (List.mem_of_mem_take he)⟩, ?_⟩
    rintro ((_ | e) | removed)
    · show (if 1 < width then _ else _ : Adapter Ans (ℕ × ℕ)).Obeys _ _ _
      split
      · exact ih _ (List.mem_cons_of_mem _ hlisted)
      · exact List.mem_cons_of_mem _ hlisted
    · exact List.mem_cons_of_mem _ hlisted
    · exact List.mem_cons_of_mem _ hlisted

theorem deleteQueue_obeys {now : Instant} {listed queue : List Expired} (hqueue : queue ⊆ listed)
    (fuel deleted : ℕ) (hlisted : ⟨.listExpired now, .ok listed⟩ ∈ past) :
    (deleteQueue fuel queue deleted).Obeys (Ready request) (fun _ _ => True) past := by
  induction fuel generalizing queue deleted past with
  | zero => trivial
  | succ fuel ih =>
    unfold deleteQueue
    split
    · trivial
    · refine (deleteFitting_obeys hqueue _ _ hlisted).bind ?_ (fun _ _ _ => trivial)
      rintro past' ⟨removed, width⟩ hlisted'
      exact ih (fun e he => hqueue (List.mem_of_mem_drop he)) _ hlisted'

theorem cleanupExpiredSessions_obeys :
    cleanupExpiredSessions.Obeys (Ready request) (fun _ _ => True) past := by
  refine ⟨trivial, fun now => ⟨trivial, ?_⟩⟩
  rintro (e | expired)
  · trivial
  refine (deleteQueue_obeys (List.Subset.refl expired) expired.length 0
    (List.mem_cons_self ..)).bind ?_ (fun _ _ _ => trivial)
  intro past' deleted _
  refine ⟨trivial, ?_⟩
  rintro (e | keys)
  · trivial
  show (if keys = [] then _ else _ : Adapter Ans ℕ).Obeys _ _ _
  split
  · trivial
  · refine ⟨⟨now, List.mem_cons_self ..⟩, ?_⟩
    rintro (e | _) <;> trivial

theorem storeRefreshToken_obeys (s : Session) :
    (storeRefreshToken s).Obeys (Ready request) (fun _ _ => True) past := by
  refine Adapter.obeys_assert (fun hfamily => ?_) (fun _ => trivial)
  refine Adapter.obeys_assert (fun hhash => ?_) (fun _ => trivial)
  refine ⟨⟨by simpa using hfamily, by simpa using hhash⟩, ?_⟩
  rintro (e | _) <;> trivial

theorem rotateRefreshToken_obeys (h : String) (r : Session) :
    (rotateRefreshToken h r).Obeys (Ready request) (fun _ _ => True) past := by
  refine Adapter.obeys_assert (fun hfamily => ?_) (fun _ => trivial)
  refine Adapter.obeys_assert (fun hhash => ?_) (fun _ => trivial)
  refine ⟨⟨hfamily, by simpa using hhash⟩, ?_⟩
  rintro (e | _) <;> trivial

/-- A transaction behind an assertion. -/
theorem asserted_obeys {α : Type} {b : Bool} {o : Txn} {f : Ans o → Adapter Ans α}
    (hready : b = true → Ready request past o)
    (hrest : ∀ ans, (f ans).Obeys (Ready request) (fun _ _ => True) (⟨o, ans⟩ :: past)) :
    (Adapter.assert b >>= fun _ => Program.perform o f).Obeys (Ready request)
      (fun _ _ => True) past :=
  Adapter.obeys_assert (fun hb => ⟨hready hb, hrest⟩) (fun _ => trivial)

/-- **Every call complies.** -/
theorem serve_obeys (request : Request) :
    (serve request).Obeys (Ready request) (fun _ _ => True) [] := by
  have hmap : ∀ {α : Type} {p : Adapter Ans α} (f : α → Response),
      p.Obeys (Ready request) (fun _ _ => True) [] →
      (f <$> p).Obeys (Ready request) (fun _ _ => True) [] :=
    fun f hp => hp.bind (fun _ _ _ => trivial) (fun _ _ _ => trivial)
  cases request with
  | store s => exact hmap _ (storeRefreshToken_obeys s)
  | rotate h r => exact hmap _ (rotateRefreshToken_obeys h r)
  | revokeSession h =>
    refine hmap _ (asserted_obeys (fun _ => trivial) ?_)
    rintro (e | _) <;> trivial
  | revokeFamily f =>
    refine hmap _ (asserted_obeys (fun hvalid => hvalid) ?_)
    rintro (e | _) <;> trivial
  | revokeAllUserSessions u =>
    refine hmap _ (asserted_obeys (fun _ => trivial) ?_)
    rintro (e | _) <;> trivial
  | cleanup => exact hmap _ cleanupExpiredSessions_obeys
  | putSingleUse key e =>
    refine ⟨trivial, ?_⟩
    rintro (e | _) <;> trivial
  | takeSingleUse key =>
    refine ⟨trivial, ?_⟩
    rintro (e | _) <;> trivial

end Compliance

/-! ## Steps of the tables -/

/-- What a transaction can do to the tables, and what a read of them returns. -/
inductive TableStep (reuseRetentionSecs : UInt64) (env : Env) : (o : Txn) → Ans o → Tables → Prop
  | same {o : Txn} {ans : Ans o} (unlisted : ∀ now l,
      (⟨o, ans⟩ : Performed Ans) ≠ ⟨.listExpired now, .ok l⟩) :
      TableStep reuseRetentionSecs env o ans env.tables
  | listed (now : Instant) : TableStep reuseRetentionSecs env (.listExpired now)
      (.ok (env.tables.listExpired now)) env.tables
  | stored (s : Session) : TableStep reuseRetentionSecs env (.store s) (.ok ())
      (env.tables.installLiveEntry s)
  | rotated (h : String) (r : Session) : TableStep reuseRetentionSecs env (.rotate h r)
      (env.tables.rotate reuseRetentionSecs env.clock h r).1
      (env.tables.rotate reuseRetentionSecs env.clock h r).2
  | revokedSession (h : String) : TableStep reuseRetentionSecs env (.revokeSession h) (.ok ())
      (env.tables.revokeSession h)
  | revokedFamily (f : String) {n : ℕ} {t : Tables}
      (done : env.tables.revokeFamilyWtxn f = .ok (n, t)) :
      TableStep reuseRetentionSecs env (.revokeFamily f) (.ok n) t
  | revokedAll (u : String) {n : ℕ} {t : Tables} (done : env.tables.revokeAllWtxn u = .ok (n, t)) :
      TableStep reuseRetentionSecs env (.revokeAll u) (.ok n) t
  | deleted (batch : List Expired) : TableStep reuseRetentionSecs env (.deleteBatch batch)
      (.ok (env.tables.commitDeletionBatch batch).1) (env.tables.commitDeletionBatch batch).2

section Steps

variable {reuseRetentionSecs : UInt64} {x : Choice} {c : ℕ} {env env' : Env}

theorem tableStep_of_exec {o : Txn} {ans : Ans o}
    (h : Env.exec reuseRetentionSecs x c o env = some (ans, env')) :
    TableStep reuseRetentionSecs env o ans env'.tables := by
  cases o with
  | now =>
    obtain ⟨rfl, rfl⟩ := Prod.mk.inj (Option.some.inj h)
    exact .same fun _ _ heq => by cases heq
  | store s =>
    obtain hdone | ⟨⟨e, rfl⟩, rfl⟩ := Env.transact_eq_some h
    · obtain ⟨rfl, rfl⟩ := Prod.mk.inj hdone
      exact .stored s
    · exact .same fun _ _ heq => by cases heq
  | rotate k r =>
    obtain hdone | ⟨⟨e, rfl⟩, rfl⟩ := Env.transact_eq_some h
    · obtain ⟨rfl, rfl⟩ := Prod.mk.inj hdone
      exact .rotated k r
    · exact .same fun _ _ heq => by cases heq
  | revokeSession k =>
    obtain hdone | ⟨⟨e, rfl⟩, rfl⟩ := Env.transact_eq_some h
    · obtain ⟨rfl, rfl⟩ := Prod.mk.inj hdone
      exact .revokedSession k
    · exact .same fun _ _ heq => by cases heq
  | revokeFamily f =>
    obtain hdone | ⟨⟨e, rfl⟩, rfl⟩ := Env.transact_eq_some h
    · cases hf : env.tables.revokeFamilyWtxn f with
      | error e =>
        rw [hf] at hdone
        obtain ⟨rfl, rfl⟩ := Prod.mk.inj hdone
        exact .same fun _ _ heq => by cases heq
      | ok done =>
        rw [hf] at hdone
        obtain ⟨rfl, rfl⟩ := Prod.mk.inj hdone
        exact .revokedFamily f hf
    · exact .same fun _ _ heq => by cases heq
  | revokeAll u =>
    obtain hdone | ⟨⟨e, rfl⟩, rfl⟩ := Env.transact_eq_some h
    · cases hu : env.tables.revokeAllWtxn u with
      | error e =>
        rw [hu] at hdone
        obtain ⟨rfl, rfl⟩ := Prod.mk.inj hdone
        exact .same fun _ _ heq => by cases heq
      | ok done =>
        rw [hu] at hdone
        obtain ⟨rfl, rfl⟩ := Prod.mk.inj hdone
        exact .revokedAll u hu
    · exact .same fun _ _ heq => by cases heq
  | listExpired now =>
    obtain hdone | ⟨⟨e, rfl⟩, rfl⟩ := Env.transact_eq_some h
    · obtain ⟨rfl, rfl⟩ := Prod.mk.inj hdone
      exact .listed now
    · exact .same fun _ _ heq => by cases heq
  | deleteBatch batch =>
    cases x with
    | proceed =>
      obtain ⟨rfl, rfl⟩ := Prod.mk.inj (Option.some.inj h)
      exact .deleted batch
    | fail e =>
      obtain ⟨rfl, rfl⟩ := Prod.mk.inj (Option.some.inj h)
      exact .same fun _ _ heq => by cases heq
    | mapFull =>
      obtain ⟨rfl, rfl⟩ := Prod.mk.inj (Option.some.inj h)
      exact .same fun _ _ heq => by cases heq
  | listSingleUse _ | deleteSingleUse _ | putSingleUse _ _ | takeSingleUse _ =>
    obtain hdone | ⟨⟨e, rfl⟩, rfl⟩ := Env.transact_eq_some h
    · obtain ⟨rfl, rfl⟩ := Prod.mk.inj hdone
      exact .same fun _ _ heq => by cases heq
    · exact .same fun _ _ heq => by cases heq

end Steps

/-! ## Batches -/

namespace Tables

/-- Every row of the second tables is a row of the first. -/
structure Shrinks (t t' : Tables) : Prop where
  sessions : ∀ h s, t'.sessions.lookup h = some s → t.sessions.lookup h = some s
  retired : ∀ h r, t'.retiredTokens.lookup h = some r → t.retiredTokens.lookup h = some r

theorem Shrinks.refl (t : Tables) : t.Shrinks t := ⟨fun _ _ h => h, fun _ _ h => h⟩

theorem Shrinks.trans {t t' t'' : Tables} (h : t.Shrinks t') (h' : t'.Shrinks t'') :
    t.Shrinks t'' :=
  ⟨fun k s hs => h.sessions k s (h'.sessions k s hs),
    fun k r hr => h.retired k r (h'.retired k r hr)⟩

variable {t t' : Tables}

theorem removeLiveEntry_shrinks (h : String) (s : Session) : t.Shrinks (t.removeLiveEntry h s) :=
  ⟨fun _ _ => lookup_of_erase, fun _ _ hr => hr⟩

theorem removeRetiredEntry_shrinks (r : RetiredRefreshToken) :
    t.Shrinks (t.removeRetiredEntry r) :=
  ⟨fun _ _ hs => hs, fun _ _ => lookup_of_erase⟩

/-- What is listed of a hash is what the tables hold of it, or it has gone. -/
def Listed (t : Tables) : Expired → Prop
  | .live s => Fileable s ∧
      (t.sessions.lookup s.refreshTokenHash = some s ∨
        t.sessions.lookup s.refreshTokenHash = none)
  | .retired r => isValidFamilyId r.familyId = true ∧
      t.sessions.lookup r.refreshTokenHash = none ∧
      (t.retiredTokens.lookup r.refreshTokenHash = some r ∨
        t.retiredTokens.lookup r.refreshTokenHash = none)

/-- No session of the batch has been retired. -/
def Unretired (t : Tables) (batch : List Expired) : Prop :=
  ∀ s, .live s ∈ batch → t.retiredTokens.lookup s.refreshTokenHash = none

theorem lookup_of_shrinks {ν : Type} {a b : Table String ν} {k : String} {v : ν}
    (hle : ∀ v', b.lookup k = some v' → a.lookup k = some v')
    (h : a.lookup k = some v ∨ a.lookup k = none) : b.lookup k = some v ∨ b.lookup k = none := by
  cases hb : b.lookup k with
  | none => exact .inr rfl
  | some v' =>
    obtain hv | hnone := h
    · exact .inl ((hle v' hb).symm.trans hv)
    · exact absurd ((hle v' hb).symm.trans hnone) (by simp)

theorem lookup_none_of_shrinks {ν : Type} {a b : Table String ν} {k : String}
    (hle : ∀ v', b.lookup k = some v' → a.lookup k = some v') (h : a.lookup k = none) :
    b.lookup k = none := by
  cases hb : b.lookup k with
  | none => rfl
  | some v' => exact absurd ((hle v' hb).symm.trans h) (by simp)

theorem Listed.shrinks {e : Expired} (h : t.Listed e) (hle : t.Shrinks t') : t'.Listed e := by
  cases e with
  | live s => exact ⟨h.1, lookup_of_shrinks (hle.sessions _) h.2⟩
  | retired r =>
    exact ⟨h.1, lookup_none_of_shrinks (hle.sessions _) h.2.1,
      lookup_of_shrinks (hle.retired _) h.2.2⟩

theorem Agrees.removeExpired (ht : t.Agrees) {e : Expired} (he : t.Listed e)
    (hunretired : t.Unretired [e]) :
    (t.removeExpired e).2.Agrees ∧ t.Shrinks (t.removeExpired e).2 := by
  cases e with
  | live s =>
    exact ⟨ht.removeLive he.1 rfl he.2 (hunretired s (List.mem_singleton_self _)),
      removeLiveEntry_shrinks ..⟩
  | retired r => exact ⟨ht.removeRetired he.1 he.2.2 he.2.1, removeRetiredEntry_shrinks r⟩

/-- A batch of what was listed, none of it retired since, keeps the indexes in agreement. -/
theorem Agrees.commitDeletionBatch (ht : t.Agrees) {batch : List Expired}
    (hlisted : ∀ e ∈ batch, t.Listed e) (hunretired : t.Unretired batch) :
    (t.commitDeletionBatch batch).2.Agrees ∧ t.Shrinks (t.commitDeletionBatch batch).2 := by
  unfold Tables.commitDeletionBatch
  generalize 0 = n
  induction batch generalizing t n with
  | nil => exact ⟨ht, .refl t⟩
  | cons e batch ih =>
    rw [List.foldl_cons]
    obtain ⟨hagrees, hshrinks⟩ := ht.removeExpired (hlisted e (List.mem_cons_self ..)) fun s hs =>
      hunretired s (by simpa [eq_comm] using List.mem_cons.mpr (.inl (List.mem_singleton.mp hs)))
    obtain ⟨hagrees', hshrinks'⟩ := ih hagrees
      (fun e' he' => (hlisted e' (List.mem_cons_of_mem _ he')).shrinks hshrinks)
      (fun s hs => lookup_none_of_shrinks (hshrinks.retired _)
        (hunretired s (List.mem_cons_of_mem _ hs))) (n + (t.removeExpired e).1.toNat)
    exact ⟨hagrees', hshrinks.trans hshrinks'⟩

/-- Cleanup lists what the tables hold. -/
theorem Agrees.listed (ht : t.Agrees) {now : Instant} {e : Expired}
    (he : e ∈ t.listExpired now) : t.Listed e := by
  unfold listExpired at he
  obtain hmem | hmem := List.mem_append.mp he
  · obtain ⟨s, hs, rfl⟩ := List.mem_map.mp hmem
    obtain ⟨⟨h, s'⟩, hentry, rfl⟩ := List.mem_map.mp (List.mem_of_mem_filter hs)
    have hlookup := AList.mem_lookup_iff.mpr hentry
    obtain ⟨rfl, hfile⟩ := ht.session h s' hlookup
    exact ⟨hfile, .inl hlookup⟩
  · obtain ⟨r, hr, rfl⟩ := List.mem_map.mp hmem
    obtain ⟨⟨h, r'⟩, hentry, rfl⟩ := List.mem_map.mp (List.mem_of_mem_filter hr)
    have hlookup := AList.mem_lookup_iff.mpr hentry
    obtain ⟨rfl, hvalid⟩ := ht.retired h r' hlookup
    refine ⟨hvalid, ?_, .inl hlookup⟩
    cases hs : t.sessions.lookup r'.refreshTokenHash with
    | none => rfl
    | some s => exact absurd ((ht.apart _ s hs).symm.trans hlookup) (by simp)

end Tables

/-! ## The ledger -/

/-- The hash of an entry. -/
def Expired.hash : Expired → String
  | .live s => s.refreshTokenHash
  | .retired r => r.refreshTokenHash

/-- The transaction tries to install a live session under the hash. -/
def Txn.Installs : Txn → String → Prop
  | .store s, h => s.refreshTokenHash = h
  | .rotate _ r, h => r.refreshTokenHash = h
  | _, _ => False

/-- A call has tried to install a live session under the hash. -/
def Used (m : StoreMoment) (h : String) : Prop :=
  ∃ c o ans, .performed c o ans ∈ m.history ∧ o.Installs h

/-- New sessions bear a hash that nobody has used and name their owner and their hash without
the separator, and no session of a batch has been retired since it was listed. -/
def Orderly (m : StoreMoment) (_c : ℕ) (_x : Choice) : Txn → Prop
  | .store s => ¬ Used m s.refreshTokenHash ∧ ':' ∉ s.userId.toList ∧
      ':' ∉ s.refreshTokenHash.toList
  | .rotate _ r => ¬ Used m r.refreshTokenHash ∧ ':' ∉ r.refreshTokenHash.toList
  | .deleteBatch batch => m.world.tables.Unretired batch
  | _ => True

/-- What the history and the tables say of each other. -/
structure Ledger (m : StoreMoment) : Prop where
  agrees : m.world.tables.Agrees
  usedLive : ∀ h s, m.world.tables.sessions.lookup h = some s → Used m h
  usedRetired : ∀ h r, m.world.tables.retiredTokens.lookup h = some r → Used m h
  listed : ∀ c now l, .performed c (.listExpired now) (.ok l) ∈ m.history →
    ∀ e ∈ l, Used m e.hash ∧ m.world.tables.Listed e

/-- A transaction takes the tables to `t`: what is there was there, or was live and is now
retired, or was installed under a new hash. -/
structure Moves (m : StoreMoment) (o : Txn) (t : Tables) : Prop where
  agrees : t.Agrees
  sessions : ∀ h s, t.sessions.lookup h = some s →
    m.world.tables.sessions.lookup h = some s ∨ (o.Installs h ∧ ¬ Used m h)
  retired : ∀ h r, t.retiredTokens.lookup h = some r →
    m.world.tables.retiredTokens.lookup h = some r ∨
      ∃ s, m.world.tables.sessions.lookup h = some s

section Ledger

variable {m : StoreMoment} {o : Txn} {t : Tables} {c : ℕ} {reuseRetentionSecs : UInt64}

theorem Used.later {h : String} (hused : Used m h) {ans : Ans o} {w : Env} :
    Used (m.performed c o ans w) h := by
  obtain ⟨c', o', ans', hmem, hinstalls⟩ := hused
  exact ⟨c', o', ans', List.mem_cons_of_mem _ hmem, hinstalls⟩

theorem Moves.of_shrinks (hagrees : t.Agrees) (hle : m.world.tables.Shrinks t) : Moves m o t :=
  ⟨hagrees, fun h s hs => .inl (hle.sessions h s hs), fun h r hr => .inl (hle.retired h r hr)⟩

theorem Moves.listed {e : Expired} (h : Moves m o t) (hused : Used m e.hash)
    (he : m.world.tables.Listed e) : t.Listed e := by
  have hsessions : ∀ s, t.sessions.lookup e.hash = some s →
      m.world.tables.sessions.lookup e.hash = some s := by
    intro s hs
    obtain hs | ⟨-, hfresh⟩ := h.sessions _ s hs
    · exact hs
    · exact absurd hused hfresh
  cases e with
  | live s => exact ⟨he.1, Tables.lookup_of_shrinks hsessions he.2⟩
  | retired r =>
    refine ⟨he.1, Tables.lookup_none_of_shrinks hsessions he.2.1,
      Tables.lookup_of_shrinks (fun r' hr' => ?_) he.2.2⟩
    obtain hr' | ⟨s, hs⟩ := h.retired _ r' hr'
    · exact hr'
    · exact absurd (hs.symm.trans he.2.1) (by simp)

/-- A transaction that takes the tables so keeps the ledger. -/
theorem Ledger.moves (h : Ledger m) {ans : Ans o} {w : Env} (hmoves : Moves m o w.tables)
    (hlist : ∀ now l, (⟨o, ans⟩ : Performed Ans) = ⟨.listExpired now, .ok l⟩ →
      ∀ e ∈ l, Used m e.hash ∧ w.tables.Listed e) : Ledger (m.performed c o ans w) := by
  have hinstalled : ∀ {k}, o.Installs k → Used (m.performed c o ans w) k :=
    fun hinstalls => ⟨c, o, ans, List.mem_cons_self .., hinstalls⟩
  refine ⟨hmoves.agrees, fun k s hs => ?_, fun k r hr => ?_, fun c' now l hmem e he => ?_⟩
  · obtain hs | ⟨hinstalls, -⟩ := hmoves.sessions k s hs
    · exact (h.usedLive k s hs).later
    · exact hinstalled hinstalls
  · obtain hr | ⟨s, hs⟩ := hmoves.retired k r hr
    · exact (h.usedRetired k r hr).later
    · exact (h.usedLive k s hs).later
  · obtain heq | hmem := List.mem_cons.mp hmem
    · cases heq
      obtain ⟨hused, hlisted⟩ := hlist now l rfl e he
      exact ⟨hused.later, hlisted⟩
    · obtain ⟨hused, hlisted⟩ := h.listed c' now l hmem e he
      exact ⟨hused.later, hmoves.listed hused hlisted⟩

/-- A hash that nobody has used is in no table. -/
theorem Ledger.unused (h : Ledger m) {k : String} (hfresh : ¬ Used m k) :
    m.world.tables.sessions.lookup k = none ∧ m.world.tables.retiredTokens.lookup k = none := by
  constructor
  · cases hs : m.world.tables.sessions.lookup k with
    | none => rfl
    | some s => exact absurd (h.usedLive k s hs) hfresh
  · cases hr : m.world.tables.retiredTokens.lookup k with
    | none => rfl
    | some r => exact absurd (h.usedRetired k r hr) hfresh

theorem Ledger.store_moves (h : Ledger m) {s : Session} (hs : Fileable s)
    (hfresh : ¬ Used m s.refreshTokenHash) :
    Moves m (.store s) (m.world.tables.installLiveEntry s) := by
  obtain ⟨hlive, hretired⟩ := h.unused hfresh
  refine ⟨h.agrees.installLive hs hlive hretired, fun k s' hs' => ?_, fun _ _ hr => .inl hr⟩
  simp only [Tables.installLiveEntry] at hs'
  rw [Table.lookup_insert_ite] at hs'
  split at hs'
  · rename_i hk
    exact .inr ⟨hk.symm, hk ▸ hfresh⟩
  · exact .inl hs'

theorem Ledger.rotate_moves (h : Ledger m) {now : Instant} {k : String} {r : Session}
    (hvalid : isValidFamilyId r.familyId = true) (hne : k ≠ r.refreshTokenHash)
    (hfresh : ¬ Used m r.refreshTokenHash) (hcolon : ':' ∉ r.refreshTokenHash.toList) :
    Moves m (.rotate k r) (m.world.tables.rotate reuseRetentionSecs now k r).2 := by
  obtain ⟨hlive, hretired⟩ := h.unused hfresh
  have hsame : Moves m (.rotate k r) m.world.tables := .of_shrinks h.agrees (.refl _)
  unfold Tables.rotate
  split
  · exact hsame
  split
  · exact hsame
  rename_i live hlookup
  split
  · exact hsame
  rename_i hchecks
  obtain ⟨hhash, hfile⟩ := h.agrees.session k live hlookup
  have hnot := h.agrees.apart k live hlookup
  have huser : live.userId = r.userId := by
    by_contra huser
    exact hchecks (.inr (.inl huser))
  have hr : Fileable r := ⟨huser ▸ hfile.user, hcolon, .inr hvalid⟩
  have hremoved := h.agrees.removeLive hfile hhash (.inl hlookup) hnot
  have hleft : ∀ k', (m.world.tables.removeLiveEntry k live).sessions.lookup k' =
      if k' = k then none else m.world.tables.sessions.lookup k' :=
    fun k' => Table.lookup_erase_ite ..
  have hfree : (m.world.tables.removeLiveEntry k live).sessions.lookup r.refreshTokenHash = none := by
    rw [hleft, if_neg (Ne.symm hne)]
    exact hlive
  -- the sessions after the swap, whether or not a record is filed
  have hsessions : ∀ k' s', ((m.world.tables.sessions.erase k).insert r.refreshTokenHash r).lookup
      k' = some s' → m.world.tables.sessions.lookup k' = some s' ∨
        (Txn.Installs (.rotate k r) k' ∧ ¬ Used m k') := by
    intro k' s' hs'
    rw [Table.lookup_insert_ite] at hs'
    split at hs'
    · rename_i hk
      exact .inr ⟨hk.symm, hk ▸ hfresh⟩
    · exact .inl (lookup_of_erase hs')
  split
  · exact ⟨hremoved.installLive hr hfree hretired, hsessions, fun _ _ hr => .inl hr⟩
  rename_i hnonempty
  split
  · exact hsame
  rename_i record hrecord
  obtain ⟨rfl, hfamily, -, -, -⟩ := retirementRecord_recordOf hrecord
  have hvalidLive : isValidFamilyId record.familyId = true := by
    rw [hfamily]
    obtain hempty | hvalidLive := hfile.family
    · exact absurd hempty hnonempty
    · exact hvalidLive
  have hfiled := hremoved.fileRetired hvalidLive (by rw [hleft, if_pos rfl]) hnot
  refine ⟨hfiled.installLive hr hfree ?_, hsessions, fun k' r' hr' => ?_⟩
  · simp only [Tables.fileRetired, Tables.removeLiveEntry]
    rw [Table.lookup_insert_ite, if_neg (Ne.symm hne)]
    exact hretired
  · simp only [Tables.installLiveEntry, Tables.fileRetired, Tables.removeLiveEntry] at hr'
    rw [Table.lookup_insert_ite] at hr'
    split at hr'
    · rename_i hk
      exact .inr ⟨live, hk ▸ hlookup⟩
    · exact .inl hr'

theorem Ledger.performs (h : Ledger m) {request : Request} {x : Choice} {ans : Ans o} {w : Env}
    (hready : Ready request (m.past c) o) (horderly : Orderly m c x o)
    (hstep : TableStep reuseRetentionSecs m.world o ans w.tables) :
    Ledger (m.performed c o ans w) := by
  have hmoves : Moves m o w.tables → (∀ now l,
      (⟨o, ans⟩ : Performed Ans) ≠ ⟨.listExpired now, .ok l⟩) → Ledger (m.performed c o ans w) :=
    fun hmoves hunlisted => h.moves hmoves fun now l heq => absurd heq (hunlisted now l)
  generalize ht : w.tables = t at hstep
  cases hstep with
  | same hunlisted =>
    refine hmoves (.of_shrinks ?_ ?_) hunlisted
    · rw [ht]
      exact h.agrees
    · rw [ht]
      exact .refl _
  | listed now =>
    refine h.moves (.of_shrinks ?_ ?_) fun now' l heq e he => ?_
    · rw [ht]
      exact h.agrees
    · rw [ht]
      exact .refl _
    · cases heq
      rw [ht]
      have hlisted := h.agrees.listed he
      refine ⟨?_, hlisted⟩
      obtain hmem | hmem := List.mem_append.mp he
      · obtain ⟨s, hs, rfl⟩ := List.mem_map.mp hmem
        obtain ⟨⟨k, s'⟩, hentry, rfl⟩ := List.mem_map.mp (List.mem_of_mem_filter hs)
        have hlookup := AList.mem_lookup_iff.mpr hentry
        obtain ⟨rfl, -⟩ := h.agrees.session k s' hlookup
        exact h.usedLive _ s' hlookup
      · obtain ⟨r, hr, rfl⟩ := List.mem_map.mp hmem
        obtain ⟨⟨k, r'⟩, hentry, rfl⟩ := List.mem_map.mp (List.mem_of_mem_filter hr)
        have hlookup := AList.mem_lookup_iff.mpr hentry
        obtain ⟨rfl, -⟩ := h.agrees.retired k r' hlookup
        exact h.usedRetired _ r' hlookup
  | stored s =>
    obtain ⟨hfresh, huser, hhash⟩ := horderly
    refine hmoves ?_ fun _ _ heq => by cases heq
    rw [ht]
    exact h.store_moves ⟨huser, hhash, hready.1⟩ hfresh
  | rotated k r =>
    obtain ⟨hfresh, hcolon⟩ := horderly
    refine hmoves ?_ fun _ _ heq => by cases heq
    rw [ht]
    exact h.rotate_moves hready.1 hready.2 hfresh hcolon
  | revokedSession k =>
    refine hmoves ?_ fun _ _ heq => by cases heq
    rw [ht]
    unfold Tables.revokeSession
    split
    · rename_i s hlookup
      obtain ⟨hhash, hfile⟩ := h.agrees.session k s hlookup
      exact .of_shrinks (h.agrees.removeLive hfile hhash (.inl hlookup) (h.agrees.apart k s hlookup))
        (Tables.removeLiveEntry_shrinks k s)
    · exact .of_shrinks h.agrees (.refl _)
  | revokedFamily f hdone =>
    refine hmoves ?_ fun _ _ heq => by cases heq
    obtain ⟨n, t', hdone', hrevoked⟩ := h.agrees.revokeFamily hready
    obtain ⟨-, rfl⟩ := Prod.mk.inj (Except.ok.inj (hdone.symm.trans hdone'))
    rw [ht]
    exact .of_shrinks hrevoked.agrees ⟨fun k s hs => ((hrevoked.sessions k s).mp hs).1,
      fun k r hr => ((hrevoked.retired k r).mp hr).1⟩
  | revokedAll u hdone =>
    refine hmoves ?_ fun _ _ heq => by cases heq
    obtain ⟨n, t', hdone', hrevoked⟩ := h.agrees.revokeAll u
    obtain ⟨-, rfl⟩ := Prod.mk.inj (Except.ok.inj (hdone.symm.trans hdone'))
    rw [ht]
    exact .of_shrinks hrevoked.agrees ⟨fun k s hs => ((hrevoked.sessions k s).mp hs).1,
      fun k r hr => ((hrevoked.retired k r).mp hr).1⟩
  | deleted batch =>
    refine hmoves ?_ fun _ _ heq => by cases heq
    obtain ⟨now, listed, hlisted, hsub⟩ := hready
    obtain ⟨hagrees, hshrinks⟩ := h.agrees.commitDeletionBatch (fun e he =>
      (h.listed c now listed ((Moment.mem_past m c _ _).mp hlisted) e (hsub he)).2) horderly
    rw [ht]
    exact .of_shrinks hagrees hshrinks

/-- The ledger speaks of the tables and of what was performed. -/
theorem Ledger.same (h : Ledger m) {m' : StoreMoment} (htables : m'.world.tables = m.world.tables)
    (hperformed : ∀ c o (ans : Ans o),
      .performed c o ans ∈ m'.history ↔ .performed c o ans ∈ m.history) : Ledger m' := by
  have hused : ∀ k, Used m' k ↔ Used m k := by
    intro k
    simp only [Used, hperformed]
  constructor
  · rw [htables]
    exact h.agrees
  · intro k s hs
    rw [htables] at hs
    exact (hused k).mpr (h.usedLive k s hs)
  · intro k r hr
    rw [htables] at hr
    exact (hused k).mpr (h.usedRetired k r hr)
  · intro c now l hmem e he
    obtain ⟨hlive, hlisted⟩ := h.listed c now l ((hperformed c _ _).mp hmem) e he
    refine ⟨(hused _).mpr hlive, ?_⟩
    rw [htables]
    exact hlisted

/-- Nothing is in the empty tables. -/
theorem Ledger.start (clock : Instant) : Ledger (StorePool.start clock).toMoment where
  agrees := Tables.agrees_empty
  usedLive _ _ hs := absurd hs (by simp [StorePool.start, Pool.initial, Env.empty, Tables.empty])
  usedRetired _ _ hr := absurd hr (by simp [StorePool.start, Pool.initial, Env.empty, Tables.empty])
  listed _ _ _ hmem := absurd hmem (by simp [StorePool.start, Pool.initial])

end Ledger

/-- The ledger, kept by every orderly step. -/
def indexProtocol (reuseRetentionSecs : UInt64) :
    Protocol (semantics reuseRetentionSecs) Ready where
  inv := Ledger
  allowed := Orderly
  begins h _ := h.same rfl fun _ _ _ => by simp
  performs {_ c _ _ _ _ _} h _ hready horderly hex :=
    h.performs hready horderly (tableStep_of_exec (c := c) hex)
  ends h _ := h.same rfl fun _ _ _ => by simp
  drifts h hdrift := by
    obtain rfl := Option.some.inj hdrift
    exact h.same rfl fun _ _ _ => Iff.rfl

/-! ## What the indexes say -/

section Runs

variable {reuseRetentionSecs : UInt64} {clock : Instant} {as : List StoreAct} {p : StorePool}

theorem ledger_of_run
    (hrun : (store reuseRetentionSecs).Run (Pool.Under Orderly) (.start clock) as p) :
    Ledger p.toMoment :=
  @Protocol.run _ _ _ _ _ _ _ _ _ _ _ (fun _ _ _ => True) (indexProtocol reuseRetentionSecs)
    serve_obeys _ _ _ hrun (.initial _) (.start clock)

/-- The user index and the family index agree with the tables in every state, so a revocation of a
family or of a user does not fail, leaves nothing and counts what there was. -/
theorem indexes_agree
    (hrun : (store reuseRetentionSecs).Run (Pool.Under Orderly) (.start clock) as p) :
    p.world.tables.Agrees ∧
      (∀ f, isValidFamilyId f = true → ∃ n t, p.world.tables.revokeFamilyWtxn f = .ok (n, t) ∧
        p.world.tables.FamilyRevoked f n t) ∧
      ∀ u, ∃ n t, p.world.tables.revokeAllWtxn u = .ok (n, t) ∧
        p.world.tables.UserRevoked u n t := by
  have hagrees := (ledger_of_run hrun).agrees
  exact ⟨hagrees, fun f hf => hagrees.revokeFamily hf, fun u => hagrees.revokeAll u⟩

end Runs

/-! ## A rotation between the list and the batch -/

namespace Sample

open Adapter.Sample

/-- The first generation is stored, and cleanup lists it when it has expired. -/
def listing : List StoreAct :=
  once 0 (.store (generation "a" 0)) ++
    .drift 3600000000000 :: .begin 1 .cleanup :: advance 1 2

/-- It is rotated before cleanup's first batch. -/
def overtaken : List StoreAct :=
  listing ++ once 2 (.rotate "a" (generation "b" 1)) ++ advance 1 1

/-- Another session of the family is rotated first; what cleanup lists stays as it was. -/
def uncontested : List StoreAct :=
  once 3 (.store (generation "c" 0)) ++
    once 4 (.rotate "c" { generation "d" 1 with expiresAt := 7200000000000 }) ++ listing ++
    advance 1 1

/-- The transaction tries to install a live session under the hash. -/
def installs : Txn → String → Bool
  | .store s, h => s.refreshTokenHash == h
  | .rotate _ r, h => r.refreshTokenHash == h
  | _, _ => false

def used (p : StorePool) (h : String) : Bool :=
  p.history.any fun e => match e with
    | .performed _ o _ => installs o h
    | _ => false

/-- The operation is orderly. -/
def isOrderly (p : StorePool) : StoreAct → Bool
  | .advance c _ =>
    match p.calls c with
    | some ⟨_, .perform (.store s) _⟩ => !used p s.refreshTokenHash &&
        decide (':' ∉ s.userId.toList) && decide (':' ∉ s.refreshTokenHash.toList)
    | some ⟨_, .perform (.rotate _ r) _⟩ => !used p r.refreshTokenHash &&
        decide (':' ∉ r.refreshTokenHash.toList)
    | some ⟨_, .perform (.deleteBatch batch) _⟩ => batch.all fun e => match e with
        | .live s => (p.world.tables.retiredTokens.lookup s.refreshTokenHash).isNone
        | .retired _ => true
    | _ => true
  | _ => true

theorem used_of_used {p : StorePool} {h : String} (hused : Used p.toMoment h) :
    used p h = true := by
  obtain ⟨c, o, ans, hmem, hinstalls⟩ := hused
  refine List.any_eq_true.mpr ⟨_, hmem, ?_⟩
  cases o with
  | store s => exact beq_iff_eq.mpr hinstalls
  | rotate k r => exact beq_iff_eq.mpr hinstalls
  | _ => exact absurd hinstalls id

theorem orderly_of_test (p : StorePool) (a : StoreAct) (htest : isOrderly p a = true) :
    p.Under Orderly a := by
  rintro c x o ⟨rfl, i, next, hc⟩
  have hfresh : ∀ {h}, (!used p h) = true → ¬ Used p.toMoment h := by
    intro h hno hused
    rw [used_of_used hused] at hno
    exact absurd hno (by simp)
  simp only [isOrderly, hc] at htest
  cases o with
  | store s =>
    simp only [Bool.and_eq_true, decide_eq_true_eq] at htest
    exact ⟨hfresh htest.1.1, htest.1.2, htest.2⟩
  | rotate k r =>
    simp only [Bool.and_eq_true, decide_eq_true_eq] at htest
    exact ⟨hfresh htest.1, htest.2⟩
  | deleteBatch batch =>
    intro s hs
    simpa using List.all_eq_true.mp htest _ hs
  | _ => trivial

/-- The retirement record of the first generation is there and not filed, and a revocation of the
family counts the second generation alone and leaves it. -/
def unfiled (p : StorePool) : Bool :=
  p.world.tables.retiredTokens.lookup "a" |>.any fun r => r.familyId == theFamily &&
    (p.world.tables.familyIndex.lookup (familyIndexKey theFamily "a")).isNone &&
    match p.world.tables.revokeFamilyWtxn theFamily with
    | .ok (n, t) => n == 1 && (t.retiredTokens.lookup "a").any fun r' => r'.familyId == theFamily
    | .error _ => false

end Sample

open Sample Adapter.Sample in
/-- A rotation, and then a cleanup of another session of the family. -/
theorem indexes_agree_uncontested : ∃ as p,
    (store retention).Run (Pool.Under Orderly) start as p ∧
    p.world.tables.sessions.lookup "a" = none ∧ p.world.tables.Agrees ∧
    ∃ t, p.world.tables.revokeFamilyWtxn theFamily = .ok (2, t) := by
  have hrun : ((store retention).followWhen isOrderly start uncontested).any (fun p =>
      (p.world.tables.sessions.lookup "a").isNone &&
        match p.world.tables.revokeFamilyWtxn theFamily with
        | .ok (n, _) => n == 2
        | .error _ => false) = true := by
    decide +kernel
  obtain ⟨p, hrun, htest⟩ := System.Run.of_followWhen_any orderly_of_test hrun
  simp only [Bool.and_eq_true, Option.isNone_iff_eq_none] at htest
  obtain ⟨hgone, hcount⟩ := htest
  obtain ⟨hagrees, hfamily, -⟩ := indexes_agree hrun
  obtain ⟨n, t, hdone, -⟩ := hfamily theFamily (by decide)
  rw [hdone] at hcount
  obtain rfl : n = 2 := by simpa using hcount
  exact ⟨_, p, hrun, hgone, hagrees, t, hdone⟩

open Sample Adapter.Sample in
/-- **Cleanup removes the filing of a session that was rotated since it was listed**: the
retirement record stays without one, and the next revocation of its family leaves it. -/
theorem cleanup_unfiles_retired : ∃ as p r n t r',
    (store retention).Run System.anyStep start as p ∧
    p.world.tables.retiredTokens.lookup "a" = some r ∧ r.familyId = theFamily ∧
    p.world.tables.familyIndex.lookup (familyIndexKey theFamily "a") = none ∧
    p.world.tables.revokeFamilyWtxn theFamily = .ok (n, t) ∧ n = 1 ∧
    t.retiredTokens.lookup "a" = some r' ∧ r'.familyId = theFamily := by
  have hrun : ((store retention).follow start overtaken).any unfiled = true := by
    decide +kernel
  obtain ⟨p, hrun, htest⟩ := System.Run.of_follow_any hrun
  obtain ⟨r, hr, htest⟩ := (Option.any_eq_true _ _).mp htest
  simp only [Bool.and_eq_true, beq_iff_eq, Option.isNone_iff_eq_none] at htest
  obtain ⟨⟨hfamily, hunfiled⟩, hrevoked⟩ := htest
  split at hrevoked
  · rename_i n t hdone
    simp only [Bool.and_eq_true, beq_iff_eq] at hrevoked
    obtain ⟨r', hr', hfamily'⟩ := (Option.any_eq_true _ _).mp hrevoked.2
    exact ⟨_, p, r, n, t, r', hrun, hr, hfamily, hunfiled, hdone, hrevoked.1, hr',
      by simpa using hfamily'⟩
  · exact absurd hrevoked (by simp)

end Lmdb

end OidcExchange
