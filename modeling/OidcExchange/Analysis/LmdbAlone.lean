import OidcExchange.Adapters.SessionPort

/-!
# Calls to the LMDB store one after the other

A call that runs alone, with every transaction taking place, has one result. The batches of a
cleanup come to one deletion of everything that was listed; every other call is one transaction.
-/

set_option autoImplicit false

namespace OidcExchange

namespace Lmdb

open Interleaving Storage

namespace Tables

variable (t : Tables)

theorem commitDeletionBatch_foldl (batch : List Expired) (n : ℕ) :
    batch.foldl (fun done entry =>
        let (existed, t) := done.2.removeExpired entry
        (done.1 + existed.toNat, t)) (n, t) =
      (n + (t.commitDeletionBatch batch).1, (t.commitDeletionBatch batch).2) := by
  unfold commitDeletionBatch
  induction batch generalizing n t with
  | nil => rfl
  | cons entry batch ih =>
    simp only [List.foldl_cons]
    rw [ih (t.removeExpired entry).2 (n + (t.removeExpired entry).1.toNat),
      ih (t.removeExpired entry).2 (0 + (t.removeExpired entry).1.toNat)]
    simp only [Nat.zero_add, Nat.add_assoc]

theorem commitDeletionBatch_cons (entry : Expired) (batch : List Expired) :
    t.commitDeletionBatch (entry :: batch) =
      ((t.removeExpired entry).1.toNat + ((t.removeExpired entry).2.commitDeletionBatch batch).1,
        ((t.removeExpired entry).2.commitDeletionBatch batch).2) := by
  have h := commitDeletionBatch_foldl (t.removeExpired entry).2 batch
    (0 + (t.removeExpired entry).1.toNat)
  rw [Nat.zero_add] at h
  rw [← h]
  simp [commitDeletionBatch]

/-- Two batches after each other are one. -/
theorem commitDeletionBatch_append (a b : List Expired) :
    t.commitDeletionBatch (a ++ b) =
      ((t.commitDeletionBatch a).1 + ((t.commitDeletionBatch a).2.commitDeletionBatch b).1,
        ((t.commitDeletionBatch a).2.commitDeletionBatch b).2) := by
  unfold commitDeletionBatch
  rw [List.foldl_append, commitDeletionBatch_foldl]
  rfl

end Tables

variable {secs : UInt64} {env : Env}

theorem runAlone_perform {α : Type} {o : Txn} {next : Ans o → Adapter Ans α} {env' : Env}
    {ans : Ans o} (h : Env.exec secs .proceed 0 o env = some (ans, env')) :
    runAlone secs (Program.perform o next) env = runAlone secs (next ans) env' :=
  Program.alone_perform h

/-- A batch that fits goes at the first attempt. -/
theorem runAlone_deleteFitting (queue : List Expired) (halvings width : ℕ) :
    runAlone secs (deleteFitting queue halvings width) env =
      some (.ok ((env.tables.commitDeletionBatch (queue.take width)).1, width),
        { env with tables := (env.tables.commitDeletionBatch (queue.take width)).2 }) := by
  cases halvings with
  | zero => rfl
  | succ halvings => rfl

/-- The batches of a queue come to one. -/
theorem runAlone_deleteQueue (fuel : ℕ) (queue : List Expired) (hfuel : queue.length ≤ fuel)
    (n : ℕ) :
    runAlone secs (deleteQueue fuel queue n) env =
      some (.ok (n + (env.tables.commitDeletionBatch queue).1),
        { env with tables := (env.tables.commitDeletionBatch queue).2 }) := by
  induction fuel generalizing queue n env with
  | zero =>
    have hempty : queue = [] := List.length_eq_zero_iff.mp (Nat.le_zero.mp hfuel)
    subst hempty
    rfl
  | succ fuel ih =>
    unfold deleteQueue
    by_cases hempty : queue = []
    · subst hempty
      rfl
    · rw [if_neg hempty]
      have hpos : 0 < queue.length := List.length_pos_iff.mpr hempty
      have hfirst := @runAlone_deleteFitting secs env queue
        cleanupMaxBatchHalvings (min cleanupBatchSize queue.length)
      have hbatch : 0 < min cleanupBatchSize queue.length := lt_min (by decide) hpos
      refine (Program.alone_bind_ok hfirst).trans ?_
      have hrest : (queue.drop (min cleanupBatchSize queue.length)).length ≤ fuel := by
        rw [List.length_drop]
        omega
      refine (ih _ hrest _).trans ?_
      have happend := env.tables.commitDeletionBatch_append
        (queue.take (min cleanupBatchSize queue.length))
        (queue.drop (min cleanupBatchSize queue.length))
      rw [List.take_append_drop] at happend
      simp only [happend, Nat.add_assoc]

/-- What a cleanup that runs alone does after the sessions are gone. -/
def sweepSingleUse (now : Instant) (deleted : ℕ) (env : Env) : Except (Fault Error) ℕ × Env :=
  match listSingleUse now env.singleUse with
  | .error e => (.error e, env)
  | .ok keys =>
    (.ok (deleted + keys.length),
      { env with singleUse := keys.foldl (fun t k => t.erase k) env.singleUse })

/-- A cleanup that runs alone deletes everything that has expired. -/
theorem runAlone_cleanup :
    runAlone secs cleanupExpiredSessions env =
      some (sweepSingleUse env.clock
        (env.tables.commitDeletionBatch (env.tables.listExpired env.clock)).1
        { env with
          tables := (env.tables.commitDeletionBatch (env.tables.listExpired env.clock)).2 }) := by
  have hqueue := @runAlone_deleteQueue secs env
    (env.tables.listExpired env.clock).length (env.tables.listExpired env.clock) le_rfl 0
  rw [Nat.zero_add] at hqueue
  refine (runAlone_perform rfl).trans ?_
  refine (runAlone_perform rfl).trans ?_
  refine (Program.alone_bind_ok hqueue).trans ?_
  refine (runAlone_perform rfl).trans ?_
  simp only [sweepSingleUse]
  cases hkeys : listSingleUse env.clock env.singleUse with
  | error e => rfl
  | ok keys =>
    by_cases hempty : keys = []
    · subst hempty
      rfl
    · show runAlone secs (if keys = [] then _ else _) _ = _
      rw [if_neg hempty]
      rfl

/-! ## Answers -/

/-- An assertion ends the call or is passed. -/
theorem runAlone_assert {α : Type} (b : Bool) (p : Unit → Adapter Ans α) :
    runAlone secs (Adapter.assert b >>= p) env =
      if b then runAlone secs (p ()) env else some (.error .panic, env) := by
  cases b <;> rfl

/-- One transaction, whose answer is the call's. -/
theorem runAlone_await {α : Type} {o : Txn} {g : Ans o → Answer α} {ans : Ans o} {env' : Env}
    (h : Env.exec secs .proceed 0 o env = some (ans, env')) :
    runAlone secs (Adapter.await (.perform o fun ans => .done (g ans))) env =
      some (g ans, env') := by
  refine (runAlone_perform h).trans ?_
  show runAlone secs (Program.ofExcept (g ans)) env' = _
  cases g ans <;> rfl

theorem answer_store {s : Session} (hfamily : isValidFamilyId s.familyId = true)
    (hhash : s.refreshTokenHash ≠ "") :
    answer secs (.storeRefreshToken s) env =
      some (.ok .done, { env with tables := env.tables.installLiveEntry s }) := by
  simp only [answer, storeRefreshToken, runAlone_assert, hfamily, Bool.or_true, if_true, bne_iff_ne,
    ne_eq, hhash, not_false_eq_true]
  rfl

theorem answer_rotate {h : String} {r : Session} (hfamily : isValidFamilyId r.familyId = true) :
    answer secs (.rotateRefreshToken h r) env =
      if h = r.refreshTokenHash then some (.error .panic, env)
      else some (asResult .flag ((env.tables.rotate secs env.clock h r).1,
        { env with tables := (env.tables.rotate secs env.clock h r).2 })) := by
  simp only [answer, rotateRefreshToken, runAlone_assert, hfamily, if_true, bne_iff_ne, ne_eq]
  by_cases heq : h = r.refreshTokenHash
  · rw [if_pos heq, if_neg (not_not.mpr heq)]
    rfl
  · rw [if_neg heq, if_pos heq]
    exact congrArg (Option.map _) (runAlone_await rfl)

theorem answer_revokeSession {h : String} (hhash : h ≠ "") :
    answer secs (.revokeSession h) env =
      some (.ok .done, { env with tables := env.tables.revokeSession h }) := by
  simp only [answer, revokeSession, runAlone_assert, bne_iff_ne, ne_eq, hhash, not_false_eq_true,
    if_true]
  rfl

theorem answer_revokeFamily (f : String) :
    answer secs (.revokeFamily f) env =
      if isValidFamilyId f then some (asResult .count (env.commit (env.tables.revokeFamilyWtxn f)))
      else some (.error .panic, env) := by
  simp only [answer, revokeFamily, runAlone_assert]
  cases isValidFamilyId f with
  | false => rfl
  | true => exact congrArg (Option.map _) (runAlone_await rfl)

theorem answer_revokeAll (u : String) :
    answer secs (.revokeAllUserSessions u) env =
      if u = "" then some (.error .panic, env)
      else some (asResult .count (env.commit (env.tables.revokeAllWtxn u))) := by
  simp only [answer, revokeAllUserSessions, runAlone_assert, bne_iff_ne, ne_eq]
  by_cases hu : u = ""
  · rw [if_pos hu, if_neg (not_not.mpr hu)]
    rfl
  · rw [if_neg hu, if_pos hu]
    exact congrArg (Option.map _) (runAlone_await rfl)

theorem answer_putSingleUse (key : String) (e : Instant) :
    answer secs (.putSingleUse key e) env =
      some (asResult .flag ((Lmdb.putSingleUse env.clock key e env.singleUse).1,
        { env with singleUse := (Lmdb.putSingleUse env.clock key e env.singleUse).2 })) :=
  congrArg (Option.map _) (runAlone_await rfl)

theorem answer_takeSingleUse (key : String) :
    answer secs (.takeSingleUse key) env =
      some (asResult .flag ((Lmdb.takeSingleUse env.clock key env.singleUse).1,
        { env with singleUse := (Lmdb.takeSingleUse env.clock key env.singleUse).2 })) :=
  congrArg (Option.map _) (runAlone_await rfl)

theorem answer_cleanup :
    answer secs .cleanupExpiredSessions env = some (asResult .count (sweepSingleUse env.clock
      (env.tables.commitDeletionBatch (env.tables.listExpired env.clock)).1
      { env with
        tables := (env.tables.commitDeletionBatch (env.tables.listExpired env.clock)).2 })) :=
  congrArg (Option.map _) runAlone_cleanup

end Lmdb

end OidcExchange
