import OidcExchange.Adapters.Lmdb

/-!
# Single-use claims of the LMDB store beside cleanup

A key that has been claimed stays claimed until its record expires or is burned, as long as no
cleanup deletes a key that was claimed again after cleanup had listed it.
-/

set_option autoImplicit false

namespace OidcExchange

namespace Lmdb

open Interleaving Storage

/-! ## Steps of the single-use records -/

/-- What a transaction can do to the single-use records. -/
inductive ClaimStep (env : Env) : (o : Txn) → Ans o → Table String Instant → Prop
  | same {o : Txn} {ans : Ans o} (unclaimed : ∀ key e,
      (⟨o, ans⟩ : Performed Ans) ≠ ⟨.putSingleUse key e, .ok true⟩) :
      ClaimStep env o ans env.singleUse
  | claimed (key : String) (e : Instant)
      (free : ∀ e', env.singleUse.lookup key = some e' → e' ≤ env.clock) :
      ClaimStep env (.putSingleUse key e) (.ok true) (env.singleUse.insert key e)
  | burned (key : String) {e : Instant} (held : env.singleUse.lookup key = some e) :
      ClaimStep env (.takeSingleUse key) (.ok (decide (env.clock < e))) (env.singleUse.erase key)
  | deleted (keys : List String) : ClaimStep env (.deleteSingleUse keys) (.ok ())
      (keys.foldl (fun t k => t.erase k) env.singleUse)

section Steps

variable {reuseRetentionSecs : UInt64} {x : Choice} {c : ℕ} {env env' : Env}

/-- What is read back is what was written. -/
theorem eq_of_reread {t t' : Instant} (h : reread t = .ok t') : t = t' := by
  unfold reread at h
  split at h
  · exact Except.ok.inj h
  · exact absurd h (by simp)

theorem putSingleUse_claimStep (key : String) (e : Instant) :
    ClaimStep env (.putSingleUse key e) (Lmdb.putSingleUse env.clock key e env.singleUse).1
      (Lmdb.putSingleUse env.clock key e env.singleUse).2 := by
  unfold Lmdb.putSingleUse
  split
  · exact .same fun _ _ heq => by cases heq
  split
  · rename_i hnone
    exact .claimed key e fun e' he' => absurd (hnone.symm.trans he') (by simp)
  rename_i existing hlookup
  split
  · exact .same fun _ _ heq => by cases heq
  rename_i existingExpiry hread
  obtain rfl := eq_of_reread hread
  split
  · exact .same fun _ _ heq => by cases heq
  · rename_i hpassed
    refine .claimed key e fun e' he' => ?_
    obtain rfl := Option.some.inj (hlookup.symm.trans he')
    exact Int.not_lt.mp hpassed

theorem takeSingleUse_claimStep (key : String) :
    ClaimStep env (.takeSingleUse key) (Lmdb.takeSingleUse env.clock key env.singleUse).1
      (Lmdb.takeSingleUse env.clock key env.singleUse).2 := by
  unfold Lmdb.takeSingleUse
  split
  · exact .same fun _ _ heq => by cases heq
  split
  · exact .same fun _ _ heq => by cases heq
  rename_i existing hlookup
  split
  · exact .same fun _ _ heq => by cases heq
  · rename_i expiresAt hread
    obtain rfl := eq_of_reread hread
    exact .burned key hlookup

/-- Everything one transaction can do to the single-use records. -/
theorem claimStep_of_exec {o : Txn} {ans : Ans o}
    (h : Env.exec reuseRetentionSecs x c o env = some (ans, env')) :
    ClaimStep env o ans env'.singleUse ∧ env'.clock = env.clock := by
  have hcommit : ∀ {α : Type} (done : Answer (α × Tables)),
      (env.commit done).2.singleUse = env.singleUse ∧ (env.commit done).2.clock = env.clock := by
    rintro α (e | ⟨a, t⟩)
    · exact ⟨rfl, rfl⟩
    · exact ⟨rfl, rfl⟩
  cases o with
  | now =>
    obtain ⟨rfl, rfl⟩ := Prod.mk.inj (Option.some.inj h)
    exact ⟨.same (fun _ _ heq => by cases heq), rfl⟩
  | putSingleUse key e =>
    obtain hdone | ⟨⟨e, rfl⟩, rfl⟩ := Env.transact_eq_some h
    · obtain ⟨rfl, rfl⟩ := Prod.mk.inj hdone
      exact ⟨putSingleUse_claimStep key e, rfl⟩
    · exact ⟨.same (fun _ _ heq => by cases heq), rfl⟩
  | takeSingleUse key =>
    obtain hdone | ⟨⟨e, rfl⟩, rfl⟩ := Env.transact_eq_some h
    · obtain ⟨rfl, rfl⟩ := Prod.mk.inj hdone
      exact ⟨takeSingleUse_claimStep key, rfl⟩
    · exact ⟨.same (fun _ _ heq => by cases heq), rfl⟩
  | deleteSingleUse keys =>
    obtain hdone | ⟨⟨e, rfl⟩, rfl⟩ := Env.transact_eq_some h
    · obtain ⟨rfl, rfl⟩ := Prod.mk.inj hdone
      exact ⟨.deleted keys, rfl⟩
    · exact ⟨.same (fun _ _ heq => by cases heq), rfl⟩
  | deleteBatch batch =>
    cases x with
    | proceed =>
      obtain ⟨rfl, rfl⟩ := Prod.mk.inj (Option.some.inj h)
      exact ⟨.same (fun _ _ heq => by cases heq), rfl⟩
    | fail e =>
      obtain ⟨rfl, rfl⟩ := Prod.mk.inj (Option.some.inj h)
      exact ⟨.same (fun _ _ heq => by cases heq), rfl⟩
    | mapFull =>
      obtain ⟨rfl, rfl⟩ := Prod.mk.inj (Option.some.inj h)
      exact ⟨.same (fun _ _ heq => by cases heq), rfl⟩
  | revokeFamily f =>
    obtain hdone | ⟨⟨e, rfl⟩, rfl⟩ := Env.transact_eq_some h
    · obtain ⟨hsame, hclock⟩ := hcommit (env.tables.revokeFamilyWtxn f)
      rw [hdone] at hsame hclock
      exact ⟨hsame ▸ .same (fun _ _ heq => by cases heq), hclock⟩
    · exact ⟨.same (fun _ _ heq => by cases heq), rfl⟩
  | revokeAll u =>
    obtain hdone | ⟨⟨e, rfl⟩, rfl⟩ := Env.transact_eq_some h
    · obtain ⟨hsame, hclock⟩ := hcommit (env.tables.revokeAllWtxn u)
      rw [hdone] at hsame hclock
      exact ⟨hsame ▸ .same (fun _ _ heq => by cases heq), hclock⟩
    · exact ⟨.same (fun _ _ heq => by cases heq), rfl⟩
  | store _ | rotate _ _ | revokeSession _ | listExpired _ | listSingleUse _ =>
    obtain hdone | ⟨⟨e, rfl⟩, rfl⟩ := Env.transact_eq_some h
    · obtain ⟨rfl, rfl⟩ := Prod.mk.inj hdone
      exact ⟨.same (fun _ _ heq => by cases heq), rfl⟩
    · exact ⟨.same (fun _ _ heq => by cases heq), rfl⟩

end Steps

/-! ## Claims over runs -/

/-- Whatever cleanup deletes among the single-use records has expired. -/
def DeletesExpired (m : StoreMoment) (_c : ℕ) (_x : Choice) (o : Txn) : Prop :=
  ∀ keys, o = .deleteSingleUse keys → ∀ key ∈ keys, ∀ e,
    m.world.singleUse.lookup key = some e → e ≤ m.world.clock

section Runs

variable {reuseRetentionSecs : UInt64} {p p' q q' s s' : StorePool} {a a' : StoreAct}
  {as : List StoreAct} {c c' : ℕ} {key : String} {e e' : Instant}

/-- A claim made in `p`: burned since, or expired, or still there. -/
structure Kept (p s : StorePool) (key : String) (e : Instant) : Prop where
  history : p.history <:+ s.history
  claim : (∃ d, p.Between s d (.takeSingleUse key) (.ok true)) ∨ e ≤ s.world.clock ∨
    s.world.singleUse.lookup key = some e

/-- A transaction that deletes only what has expired keeps the claim. -/
theorem Kept.performed (h : Kept p s key e) {x : Choice} {o : Txn} {ans : Ans o} {w : Env}
    {rest : Adapter Ans Response} (hexpired : DeletesExpired s.toMoment c x o)
    (hm : s'.toMoment = Pool.settle c rest (s.toMoment.performed c o ans w))
    (hstep : ClaimStep s.world o ans w.singleUse) (hclock : w.clock = s.world.clock)
    (hhistory : s.history <:+ s'.history) : Kept p s' key e := by
  have hworld : s'.world = w := by
    rw [hm, Disciplined.settle_world, Moment.performed_world]
  refine ⟨h.history.trans hhistory, ?_⟩
  obtain ⟨d, hburned⟩ | hpassed | hlookup := h.claim
  · exact .inl ⟨d, hburned.suffix hhistory⟩
  · exact .inr (.inl (by rw [hworld, hclock]; exact hpassed))
  rw [hworld, hclock]
  generalize ht : w.singleUse = t at hstep
  cases hstep with
  | same => exact .inr (.inr hlookup)
  | claimed key' e' hfree =>
    by_cases hkey : key = key'
    · subst hkey
      exact .inr (.inl (hfree e hlookup))
    · exact .inr (.inr ((AList.lookup_insert_ne hkey).trans hlookup))
  | burned key' hheld =>
    by_cases hkey : key = key'
    · subst hkey
      obtain rfl := Option.some.inj (hlookup.symm.trans hheld)
      by_cases hlive : s.world.clock < e
      · rw [decide_eq_true hlive] at hm
        exact .inl ⟨c, Pool.between_of_performed h.history hm⟩
      · exact .inr (.inl (Int.not_lt.mp hlive))
    · exact .inr (.inr ((AList.lookup_erase_ne hkey).trans hlookup))
  | deleted keys =>
    by_cases hmem : key ∈ keys
    · exact .inr (.inl (hexpired keys rfl key hmem e hlookup))
    · exact .inr (.inr ((Table.lookup_foldl_erase keys _ key).trans ((if_neg hmem).trans hlookup)))

theorem Kept.step (h : Kept p s key e) (hexpired : s.Under DeletesExpired a)
    (hstep : (store reuseRetentionSecs).step s a = some s') : Kept p s' key e := by
  have hhistory := Pool.history_of_step hstep
  obtain ⟨c, i, rfl, hnone, hm, -⟩ | ⟨c, x, i, o, next, ans, w, rfl, hc, hex, hm, -⟩ |
    ⟨k, w, rfl, hdrift, hm, -⟩ := Pool.step_cases hstep
  · have hworld : s'.world = s.world := by
      rw [hm, Disciplined.settle_world, Moment.begin_world]
    refine ⟨h.history.trans hhistory, ?_⟩
    rw [hworld]
    obtain ⟨d, hburned⟩ | hrest := h.claim
    · exact .inl ⟨d, hburned.suffix hhistory⟩
    · exact .inr hrest
  · obtain ⟨hclaim, hclock⟩ := claimStep_of_exec (c := c) hex
    exact h.performed (hexpired c x o ⟨rfl, i, next, hc⟩) hm hclaim hclock hhistory
  · obtain rfl := Option.some.inj hdrift
    have hworld : s'.world = { s.world with clock := s.world.clock + k } := by
      rw [hm, Moment.drifted_world]
    refine ⟨h.history.trans hhistory, ?_⟩
    rw [hworld]
    obtain ⟨d, hburned⟩ | hpassed | hlookup := h.claim
    · exact .inl ⟨d, hburned.suffix hhistory⟩
    · exact .inr (.inl (Int.le_trans hpassed (Int.le_add_of_nonneg_right (Int.natCast_nonneg k))))
    · exact .inr (.inr hlookup)

theorem claimStep_of_answers {o : Txn} {ans : Ans o}
    (h : Pool.Answers (semantics reuseRetentionSecs) serve p a p' c o ans) :
    ClaimStep p.world o ans p'.world.singleUse := by
  obtain ⟨x, hex⟩ := h.world
  have hex : Env.exec reuseRetentionSecs x c o p.world = some (ans, p'.world) := hex
  exact (claimStep_of_exec hex).1

/-- A claim that is answered puts its record there. -/
theorem kept_of_claim
    (h : Pool.Answers (semantics reuseRetentionSecs) serve p a p' c (.putSingleUse key e) (.ok true)) :
    Kept p' p' key e := by
  refine ⟨List.suffix_rfl, .inr (.inr ?_)⟩
  have hclaim := claimStep_of_answers h
  generalize p'.world.singleUse = t at hclaim
  cases hclaim with
  | same hunclaimed => exact absurd rfl (hunclaimed key e)
  | claimed => exact AList.lookup_insert ..

/-- A claim is answered where the key is free. -/
theorem free_of_claim
    (h : Pool.Answers (semantics reuseRetentionSecs) serve p a p' c (.putSingleUse key e) (.ok true))
    (hlookup : p.world.singleUse.lookup key = some e') : e' ≤ p.world.clock := by
  have hclaim := claimStep_of_answers h
  generalize p'.world.singleUse = t at hclaim
  cases hclaim with
  | same hunclaimed => exact absurd rfl (hunclaimed key e)
  | claimed _ _ hfree => exact hfree e' hlookup

/-- As long as cleanup deletes only what has expired, a key that was claimed is claimed again
before its expiry only if it was burned in between. -/
theorem claim_held_beside_cleanup
    (hclaim : Pool.Answers (semantics reuseRetentionSecs) serve p a p' c (.putSingleUse key e)
      (.ok true))
    (hrun : (store reuseRetentionSecs).Run (Pool.Under DeletesExpired) p' as q)
    (hagain : Pool.Answers (semantics reuseRetentionSecs) serve q a' q' c' (.putSingleUse key e')
      (.ok true))
    (hbefore : q.world.clock < e) : ∃ d, p'.Between q d (.takeSingleUse key) (.ok true) := by
  have hkept : Kept p' q key e :=
    hrun.preserves (I := fun s => Kept p' s key e)
      (fun _ _ _ hs hmeets hstep => hs.step hmeets hstep) (kept_of_claim hclaim)
  obtain hburned | hpassed | hlookup := hkept.claim
  · exact hburned
  · exact absurd hbefore (Int.not_lt.mpr hpassed)
  · exact absurd hbefore (Int.not_lt.mpr (free_of_claim hagain hlookup))

end Runs

/-! ## A key claimed again between the list and the deletion -/

namespace Sample

def nonceKey : String := "nonce:1"

/-- The key is claimed, expires, and is about to be claimed again. -/
def claiming (between : List StoreAct) : List StoreAct :=
  once 0 (.putSingleUse nonceKey 10) ++ .drift 10 :: between ++
    [.begin 2 (.putSingleUse nonceKey 20)]

/-- Cleanup lists the expired key and has not deleted it yet. -/
def listed : List StoreAct := .begin 1 .cleanup :: advance 1 3

/-- Call `c` is about to claim the key until `e`, and the claim will be answered. -/
def claims (c : ℕ) (e : Instant) (p : StorePool) : Bool :=
  match p.calls c with
  | some ⟨_, .perform (.putSingleUse key e') _⟩ => key == nonceKey && e' == e &&
      decide ((Lmdb.putSingleUse p.world.clock key e' p.world.singleUse).1 = .ok true)
  | _ => false

theorem answers_of_claims {c : ℕ} {e : Instant} {p q : StorePool} (htest : claims c e p = true)
    (hstep : (store retention).step p (.advance c .proceed) = some q) :
    Pool.Answers (semantics retention) serve p (.advance c .proceed) q c
      (.putSingleUse nonceKey e) (.ok true) := by
  unfold claims at htest
  split at htest
  · rename_i i key e' next hc
    simp only [Bool.and_eq_true, beq_iff_eq, decide_eq_true_eq] at htest
    obtain ⟨⟨rfl, rfl⟩, hanswer⟩ := htest
    refine ⟨.proceed, i, next,
      { p.world with singleUse := (Lmdb.putSingleUse p.world.clock nonceKey e'
          p.world.singleUse).2 }, rfl, hc, ?_, hstep⟩
    rw [← hanswer]
    rfl
  · exact absurd htest (by simp)

/-- Nobody has burned a key. -/
def unburned (p : StorePool) : Bool :=
  p.history.all fun e => match e with
    | .performed _ (.takeSingleUse _) _ => false
    | _ => true

theorem not_between_of_unburned {p q : StorePool} (htest : unburned q = true) (d : ℕ) :
    ¬ p.Between q d (.takeSingleUse nonceKey) (.ok true) := by
  rintro ⟨more, hq, hmem⟩
  have hin : Event.performed d (.takeSingleUse nonceKey) (.ok true) ∈ q.history := by
    rw [hq]
    exact List.mem_append_left _ hmem
  exact absurd (List.all_eq_true.mp htest _ hin) (by simp)

/-- Whatever is deleted has expired. -/
def deletesExpired (p : StorePool) : StoreAct → Bool
  | .advance c _ =>
    match p.calls c with
    | some ⟨_, .perform (.deleteSingleUse keys) _⟩ => keys.all fun key =>
        (p.world.singleUse.lookup key).all fun e => decide (e ≤ p.world.clock)
    | _ => true
  | _ => true

theorem deletesExpired_of_test (p : StorePool) (a : StoreAct) (htest : deletesExpired p a = true) :
    p.Under DeletesExpired a := by
  rintro c x o ⟨rfl, i, next, hc⟩ keys rfl key hkey e hlookup
  simp only [deletesExpired, hc] at htest
  have hall := List.all_eq_true.mp htest key hkey
  rw [hlookup] at hall
  exact of_decide_eq_true hall

end Sample

open Sample in
/-- The second claim is burned before a third one, and cleanup deletes in time. -/
theorem claim_held_beside_cleanup_burned : ∃ p p' as q q' d,
    Pool.Answers (semantics retention) serve p (.advance 2 .proceed) p' 2
      (.putSingleUse nonceKey 20) (.ok true) ∧
    (store retention).Run (Pool.Under DeletesExpired) p' as q ∧
    Pool.Answers (semantics retention) serve q (.advance 3 .proceed) q' 3
      (.putSingleUse nonceKey 30) (.ok true) ∧
    p'.Between q d (.takeSingleUse nonceKey) (.ok true) := by
  have hrun : ((store retention).follow start (claiming (listed ++ advance 1 1))).any (fun p =>
      claims 2 20 p && ((store retention).step p (.advance 2 .proceed)).any fun p' =>
        ((store retention).followWhen deletesExpired p' (once 4 (.takeSingleUse nonceKey) ++
          [.begin 3 (.putSingleUse nonceKey 30)])).any fun q =>
            claims 3 30 q && decide (q.world.clock < 20) &&
              ((store retention).step q (.advance 3 .proceed)).isSome) = true := by
    decide +kernel
  obtain ⟨p, -, htest⟩ := System.Run.of_follow_any hrun
  obtain ⟨hclaim, hrest⟩ := Bool.and_eq_true _ _ ▸ htest
  obtain ⟨p', hstep, hrest⟩ := (Option.any_eq_true _ _).mp hrest
  obtain ⟨q, hbetween, hrest⟩ := System.Run.of_followWhen_any deletesExpired_of_test hrest
  simp only [Bool.and_eq_true, decide_eq_true_eq] at hrest
  obtain ⟨⟨hagain, hbefore⟩, hnext⟩ := hrest
  obtain ⟨q', hstep'⟩ := Option.isSome_iff_exists.mp hnext
  have hfirst := answers_of_claims hclaim hstep
  have hsecond := answers_of_claims hagain hstep'
  obtain ⟨d, hburned⟩ := claim_held_beside_cleanup hfirst hbetween hsecond hbefore
  exact ⟨p, p', _, q, q', d, hfirst, hbetween, hsecond, hburned⟩

open Sample in
/-- **Cleanup deletes a key that was claimed again since it was listed**: a third claim is
answered before the second one has expired, and nobody has burned the key. -/
theorem claim_lost_to_cleanup : ∃ as₀ p p' as q q',
    (store retention).Run System.anyStep start as₀ p ∧
    Pool.Answers (semantics retention) serve p (.advance 2 .proceed) p' 2
      (.putSingleUse nonceKey 20) (.ok true) ∧ p.world.clock < 20 ∧
    (store retention).Run System.anyStep p' as q ∧
    Pool.Answers (semantics retention) serve q (.advance 3 .proceed) q' 3
      (.putSingleUse nonceKey 30) (.ok true) ∧ q.world.clock < 20 ∧
    ∀ d, ¬ p'.Between q d (.takeSingleUse nonceKey) (.ok true) := by
  have hrun : ((store retention).follow start (claiming listed)).any (fun p =>
      claims 2 20 p && decide (p.world.clock < 20) &&
        ((store retention).step p (.advance 2 .proceed)).any fun p' =>
          ((store retention).follow p' (advance 1 1 ++ [.begin 3 (.putSingleUse nonceKey 30)])).any
            fun q => claims 3 30 q && decide (q.world.clock < 20) && unburned q &&
              ((store retention).step q (.advance 3 .proceed)).isSome) = true := by
    decide +kernel
  obtain ⟨p, hstart, htest⟩ := System.Run.of_follow_any hrun
  simp only [Bool.and_eq_true, decide_eq_true_eq] at htest
  obtain ⟨⟨hclaim, hlive⟩, hrest⟩ := htest
  obtain ⟨p', hstep, hrest⟩ := (Option.any_eq_true _ _).mp hrest
  obtain ⟨q, hbetween, hrest⟩ := System.Run.of_follow_any hrest
  simp only [Bool.and_eq_true, decide_eq_true_eq] at hrest
  obtain ⟨⟨⟨hagain, hbefore⟩, hunburned⟩, hnext⟩ := hrest
  obtain ⟨q', hstep'⟩ := Option.isSome_iff_exists.mp hnext
  exact ⟨_, p, p', _, q, q', hstart, answers_of_claims hclaim hstep, hlive, hbetween,
    answers_of_claims hagain hstep', hbefore, not_between_of_unburned hunburned⟩

end Lmdb

end OidcExchange
