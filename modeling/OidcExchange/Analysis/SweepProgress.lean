import OidcExchange.Adapters.LmdbBatches
import OidcExchange.Interleaving.Assumption

/-!
# Progress of a sweep

Whatever its batches are answered, a sweep goes through the list of what has expired from the
front: every batch that is tried begins where the committed ones end, so that what is committed is
always a beginning of the list, and all of it when the sweep succeeds. A sweep gives up on a full
map only after a batch of one entry.
-/

set_option autoImplicit false

namespace OidcExchange

namespace Lmdb

open Interleaving

/-- The batches that were committed, in their order, out of what a call has performed, newest
first. -/
def committedBatches : List (Performed Ans) → List (List Expired)
  | [] => []
  | ⟨.deleteBatch batch, .ok _⟩ :: past => committedBatches past ++ [batch]
  | _ :: past => committedBatches past

/-- How many entries the committed batches have removed. -/
def removedEntries : List (Performed Ans) → ℕ
  | [] => 0
  | ⟨.deleteBatch _, .ok removed⟩ :: past => removedEntries past + removed
  | _ :: past => removedEntries past

/-- A batch may be tried next: it has entries, and they are those of the list that follow the
committed ones. -/
def NextBatch (expired : List Expired) (past : List (Performed Ans)) (o : Txn) : Prop :=
  ∃ batch, o = .deleteBatch batch ∧ batch ≠ [] ∧
    (committedBatches past).flatten ++ batch <+: expired

/-- How a sweep ends: with all entries committed, or with a beginning of them committed and the
batch after it failed; because of a full map only if that batch has one entry. -/
def SweepEnd (expired : List Expired) (past : List (Performed Ans)) :
    Except (Fault Error) ℕ → Prop
  | .ok deleted => (committedBatches past).flatten = expired ∧ deleted = removedEntries past
  | .error fault => (committedBatches past).flatten <+: expired ∧
      ∃ batch e before, past = ⟨.deleteBatch batch, .error e⟩ :: before ∧
        fault = sweepError e ∧ (e = .mapFull → batch.length = 1)

/-! ## Halving -/

/-- A width that is halved once more, within what the halvings that are left allow. -/
theorem halved_le {width left : ℕ} (hwide : 1 < width) (h : width ≤ 2 ^ (left + 1)) :
    max (width / 2) 1 ≤ 2 ^ left := by
  have hpos : 0 < 2 ^ left := Nat.two_pow_pos left
  rw [Nat.pow_succ] at h
  omega

theorem sliceOf_within {α : Type} {xs : List α} {cursor width : ℕ}
    (h : cursor + width ≤ xs.length) :
    sliceOf xs cursor (cursor + width) = some ((xs.drop cursor).take width) := by
  rw [sliceOf, if_pos ⟨Nat.le_add_right _ _, h⟩, Nat.add_sub_cancel_left]

/-! ## One batch -/

variable {expired : List Expired} {cursor : ℕ} {past : List (Performed Ans)}

/-- What a batch that fits leaves: the cursor has moved on by its width. -/
def BatchEnd (expired : List Expired) (cursor deleted : ℕ) (past : List (Performed Ans)) :
    Except (Fault Error) (ℕ × ℕ) → Prop
  | .ok (removed, width) => 0 < width ∧ cursor + width ≤ expired.length ∧
      (committedBatches past).flatten = expired.take (cursor + width) ∧
        deleted + removed = removedEntries past
  | .error fault => SweepEnd expired past (.error fault)

/-- The inner loop commits the entries at the cursor, or fails. -/
theorem commitFitting_obeys (deleted turns : ℕ) {width halvings left : ℕ}
    (hturns : left < turns) (hleft : halvings + left = cleanupMaxBatchHalvings)
    (hwidth : 0 < width) (hwithin : cursor + width ≤ expired.length) (hwide : width ≤ 2 ^ left)
    (hpast : (committedBatches past).flatten = expired.take cursor)
    (hdeleted : deleted = removedEntries past) :
    (commitFitting expired cursor turns width halvings).Obeys (NextBatch expired)
      (BatchEnd expired cursor deleted) past := by
  induction turns generalizing width halvings left past with
  | zero => exact absurd hturns (Nat.not_lt_zero _)
  | succ turns ih =>
    have hlength : ((expired.drop cursor).take width).length = width := by
      rw [List.length_take, List.length_drop]
      omega
    have hpiece : expired.take cursor ++ (expired.drop cursor).take width =
        expired.take (cursor + width) := List.take_add.symm
    have hbegun : (committedBatches past).flatten <+: expired := by
      rw [hpast]
      exact List.take_prefix _ _
    rw [commitFitting, sliceOf_within hwithin]
    refine ⟨⟨_, rfl, ?_, ?_⟩, ?_⟩
    · rw [← List.length_pos_iff, hlength]
      exact hwidth
    · rw [hpast, hpiece]
      exact List.take_prefix _ _
    rintro ((_ | e) | removed)
    · change (if 1 < width ∧ halvings < cleanupMaxBatchHalvings then _ else _ :
        Adapter Ans (ℕ × ℕ)).Obeys _ _ _
      by_cases hmore : 1 < width ∧ halvings < cleanupMaxBatchHalvings
      · rw [if_pos hmore]
        obtain ⟨left, rfl⟩ : ∃ k, left = k + 1 := ⟨left - 1, by omega⟩
        exact ih (by omega) (by omega) (by omega) (by omega) (halved_le hmore.1 hwide) hpast hdeleted
      · rw [if_neg hmore]
        refine ⟨hbegun, _, .mapFull, past, rfl, rfl, fun _ => ?_⟩
        rw [hlength]
        by_contra hne
        have hlast : left = 0 := by
          by_contra hpos
          exact hmore ⟨by omega, by omega⟩
        rw [hlast] at hwide
        omega
    · exact ⟨hbegun, _, .other e, past, rfl, rfl, nofun⟩
    · refine ⟨hwidth, hwithin, ?_, ?_⟩
      · rw [committedBatches, List.flatten_append, hpast, List.flatten_cons, List.flatten_nil,
          List.append_nil, hpiece]
      · rw [removedEntries, hdeleted]

/-! ## All batches -/

/-- The outer loop goes on from what is committed. -/
theorem sweepFrom_obeys {deleted : ℕ} (turns : ℕ) (hturns : expired.length - cursor < turns)
    (hcursor : cursor ≤ expired.length)
    (hpast : (committedBatches past).flatten = expired.take cursor)
    (hdeleted : deleted = removedEntries past) :
    (sweepFrom expired turns cursor deleted).Obeys (NextBatch expired) (SweepEnd expired) past := by
  induction turns generalizing cursor deleted past with
  | zero => exact absurd hturns (Nat.not_lt_zero _)
  | succ turns ih =>
    rw [sweepFrom]
    by_cases hmore : cursor < expired.length
    · rw [if_pos hmore]
      have hbatch : min cleanupBatchSize (expired.length - cursor) ≤ 2 ^ cleanupMaxBatchHalvings :=
        Nat.min_le_left _ _
      refine (commitFitting_obeys deleted _ (Nat.lt_succ_self _) (Nat.zero_add _) ?_ ?_ hbatch
        hpast hdeleted).bind ?_ ?_
      · rw [Nat.lt_min]
        exact ⟨by decide, by omega⟩
      · have hle := Nat.min_le_right cleanupBatchSize (expired.length - cursor)
        omega
      · rintro past' ⟨removed, width⟩ ⟨hwidth, hwithin, hpast', hdeleted'⟩
        exact ih (by omega) hwithin hpast' hdeleted'
      · exact fun _ _ hend => hend
    · rw [if_neg hmore]
      refine ⟨?_, hdeleted⟩
      rw [hpast, List.take_of_length_le (Nat.le_of_not_lt hmore)]

/-- **A sweep makes progress and loses nothing**, whatever its batches are answered. -/
theorem sweep_in_order (expired : List Expired) :
    (sweep expired).Obeys (NextBatch expired) (SweepEnd expired) [] :=
  sweepFrom_obeys _ (by omega) (Nat.zero_le _) rfl rfl

/-! ## The delete phase of cleanup -/

/-- The inner loop is that over what is left of the list. -/
theorem commitFitting_bind_eq {f g : ℕ × ℕ → Adapter Ans ℕ} (left turns : ℕ)
    {width halvings : ℕ} (hturns : left < turns)
    (hleft : halvings + left = cleanupMaxBatchHalvings) (hwidth : 0 < width)
    (hwithin : cursor + width ≤ expired.length)
    (hfg : ∀ removed width, 0 < width → cursor + width ≤ expired.length →
      f (removed, width) = g (removed, width)) :
    commitFitting expired cursor turns width halvings >>= f =
      deleteFitting (expired.drop cursor) left width >>= g := by
  induction left generalizing turns width halvings with
  | zero =>
    obtain ⟨turns, rfl⟩ : ∃ k, turns = k + 1 := ⟨turns - 1, by omega⟩
    rw [commitFitting, sliceOf_within hwithin, deleteFitting]
    refine congrArg (Program.perform _) (funext ?_)
    rintro ((_ | e) | removed)
    · change (if 1 < width ∧ halvings < cleanupMaxBatchHalvings then _ else _ :
        Adapter Ans (ℕ × ℕ)) >>= f = _
      rw [if_neg fun h => by omega]
      rfl
    · rfl
    · exact hfg removed width hwidth hwithin
  | succ left ih =>
    obtain ⟨turns, rfl⟩ : ∃ k, turns = k + 1 := ⟨turns - 1, by omega⟩
    rw [commitFitting, sliceOf_within hwithin, deleteFitting]
    refine congrArg (Program.perform _) (funext ?_)
    rintro ((_ | e) | removed)
    · change (if 1 < width ∧ halvings < cleanupMaxBatchHalvings then _ else _ :
        Adapter Ans (ℕ × ℕ)) >>= f = (if 1 < width then _ else _ : Adapter Ans (ℕ × ℕ)) >>= g
      by_cases hmore : 1 < width
      · rw [if_pos ⟨hmore, by omega⟩, if_pos hmore]
        exact ih turns (by omega) (by omega) (by omega) (by omega)
      · rw [if_neg fun h => hmore h.1, if_neg hmore]
        rfl
    · rfl
    · exact hfg removed width hwidth hwithin

/-- The outer loop is that over what is left of the list. -/
theorem sweepFrom_eq (turns fuel deleted : ℕ) (hturns : expired.length - cursor < turns)
    (hfuel : expired.length - cursor ≤ fuel) (hcursor : cursor ≤ expired.length) :
    sweepFrom expired turns cursor deleted = deleteQueue fuel (expired.drop cursor) deleted := by
  induction turns generalizing cursor fuel deleted with
  | zero => exact absurd hturns (Nat.not_lt_zero _)
  | succ turns ih =>
    rw [sweepFrom]
    by_cases hmore : cursor < expired.length
    · obtain ⟨fuel, rfl⟩ : ∃ k, fuel = k + 1 := ⟨fuel - 1, by omega⟩
      have hlength : (expired.drop cursor).length = expired.length - cursor := List.length_drop
      have hne : expired.drop cursor ≠ [] := by
        rw [← List.length_pos_iff, hlength]
        omega
      have hbatch := Nat.min_le_right cleanupBatchSize (expired.length - cursor)
      have hpos : 0 < min cleanupBatchSize (expired.length - cursor) := by
        rw [Nat.lt_min]
        exact ⟨by decide, by omega⟩
      rw [if_pos hmore, deleteQueue, if_neg hne, hlength]
      refine commitFitting_bind_eq _ _ (Nat.lt_succ_self _) (Nat.zero_add _) hpos (by omega) ?_
      intro removed width hwidth hwithin
      change sweepFrom expired turns (cursor + width) (deleted + removed) =
        deleteQueue fuel ((expired.drop cursor).drop width) (deleted + removed)
      rw [ih fuel _ (by omega) (by omega) hwithin, List.drop_drop]
    · have hnil : expired.drop cursor = [] := List.drop_eq_nil_of_le (Nat.le_of_not_lt hmore)
      rw [if_neg hmore, hnil]
      cases fuel with
      | zero => rfl
      | succ fuel => rw [deleteQueue, if_pos rfl]

/-- The loops are the delete phase of cleanup. -/
theorem sweep_eq_deleteQueue (expired : List Expired) :
    sweep expired = deleteQueue expired.length expired 0 :=
  sweepFrom_eq _ _ 0 (by omega) (by omega) (Nat.zero_le _)

end Lmdb

end OidcExchange
