import OidcExchange.Adapters.Dynamo
import OidcExchange.Interleaving.Testing

/-!
# What one request to DynamoDB can do

Every request either leaves the table as it is or makes one of the changes listed here, with the
conditions under which it was made. Every invariant of the table is a case distinction on this.
-/

set_option autoImplicit false

namespace OidcExchange

namespace Dynamo

open Interleaving Storage

/-- A request that takes place. -/
def Choice.lands : Choice → Bool
  | .fail _ => false
  | _ => true

/-- The answer says that the request has changed the table. -/
def Acknowledged : (o : Command) → Ans o → Prop
  | .createUser _, ans => ans = .ok .committed
  | .store _, ans => ans = .ok .committed
  | .rotate _, ans => ans = .ok .committed
  | .revoke _ _ _, ans => ans = .ok .committed
  | .batchDelete _, ans => ∃ left, ans = .ok left
  | .clearFamily _ _ _, ans => ans = .ok ()
  | .clearRoster _, ans => ans = .ok ()
  | _, _ => False

/-- A transaction that commits is not answered as cancelled. -/
def NotCancelled (ans : Answer Outcome) : Prop := ∀ failed, ans ≠ .ok (.cancelled failed)

/-- The change that a request of call `c` makes. -/
inductive Changes (c : ℕ) (w : Store) : (o : Command) → Ans o → Store → Prop
  | createUser {u : String} {ans : Answer Outcome} (hname : u ≠ "")
      (hnone : w.rosters.lookup u = none) (hans : NotCancelled ans) :
      Changes c w (.createUser u) ans
        { w with rosters := w.rosters.insert u { sessions := [], families := some ∅ } }
  | store {s : Session} {item item' : RosterItem} {ans : Answer Outcome}
      (hfree : w.sessions.lookup s.refreshTokenHash = none)
      (hitem : w.rosters.lookup s.userId = some item)
      (hfile : item.file s.refreshTokenHash s.familyId = some item') (hans : NotCancelled ans) :
      Changes c w (.store s) ans
        { w with
          sessions := w.sessions.insert s.refreshTokenHash s
          rosters := w.rosters.insert s.userId item' }
  | rotate {a : Rotation} {item item' : RosterItem} {ans : Answer Outcome}
      (hlive : (w.sessions.lookup a.liveHash).isSome)
      (hfree : w.sessions.lookup a.replacement.refreshTokenHash = none)
      (hretired : a.record.isSome → w.retired.lookup a.liveHash = none)
      (hitem : w.rosters.lookup a.replacement.userId = some item)
      (hrefile : a.refile item = some item') (hans : NotCancelled ans) :
      Changes c w (.rotate a) ans
        { w with
          sessions := (w.sessions.erase a.liveHash).insert a.replacement.refreshTokenHash
            a.replacement
          retired := a.record.elim w.retired (w.retired.insert a.liveHash)
          rosters := w.rosters.insert a.replacement.userId item' }
  | revoke {h u f : String} {item item' : RosterItem} {ans : Answer Outcome}
      (hlive : (w.sessions.lookup h).isSome) (hitem : w.rosters.lookup u = some item)
      (hunfile : item.unfile h f = some item') (hans : NotCancelled ans) :
      Changes c w (.revoke h u f) ans
        { w with sessions := w.sessions.erase h, rosters := w.rosters.insert u item' }
  | batchDelete {keys done : List Key} {ans : Answer (Leftover keys)}
      (hleft : ∀ left, ans = .ok left → left.1 = keys.filter (· ∉ done)) :
      Changes c w (.batchDelete keys) ans ((keys.filter (· ∈ done)).foldl (·.remove c) w)
  | clearFamily {u f live : String} {item : RosterItem} {ans : Answer Unit}
      (hitem : w.rosters.lookup u = some item) :
      Changes c w (.clearFamily u f live) ans
        { w with rosters := w.rosters.insert u (item.dropFamily f live) }
  | clearRoster {u : String} {item : RosterItem} {ans : Answer Unit}
      (hitem : w.rosters.lookup u = some item) :
      Changes c w (.clearRoster u) ans
        { w with rosters := w.rosters.insert u { sessions := [], families := none } }

section Inversion

variable {place : Key → ℕ} {x : Choice} {c : ℕ} {w w' : Store}

/-- What comes of a transaction. -/
theorem transact_cases {failed : List Bool} {committed : Store} {ans : Answer Outcome}
    (h : reply x w (w.transact failed committed) = some (ans, w')) :
    (w' = w ∧ ans ≠ .ok .committed) ∨
      (x.lands = true ∧ true ∉ failed ∧ w' = committed ∧ NotCancelled ans) := by
  have hresult : w.transact failed committed =
      if true ∈ failed then (.cancelled failed, w) else (.committed, committed) := rfl
  by_cases hfailed : true ∈ failed
  · rw [if_pos hfailed] at hresult
    rw [hresult] at h
    left
    cases x with
    | proceed =>
      obtain ⟨rfl, rfl⟩ := Prod.mk.inj (Option.some.inj h)
      exact ⟨rfl, fun h => nomatch h⟩
    | fail e =>
      obtain ⟨rfl, rfl⟩ := Prod.mk.inj (Option.some.inj h)
      exact ⟨rfl, fun h => nomatch h⟩
    | lost e =>
      obtain ⟨rfl, rfl⟩ := Prod.mk.inj (Option.some.inj h)
      exact ⟨rfl, fun h => nomatch h⟩
    | _ => exact nomatch h
  · rw [if_neg hfailed] at hresult
    rw [hresult] at h
    cases x with
    | proceed =>
      obtain ⟨rfl, rfl⟩ := Prod.mk.inj (Option.some.inj h)
      exact .inr ⟨rfl, hfailed, rfl, fun _ h => nomatch h⟩
    | fail e =>
      obtain ⟨rfl, rfl⟩ := Prod.mk.inj (Option.some.inj h)
      exact .inl ⟨rfl, fun h => nomatch h⟩
    | lost e =>
      obtain ⟨rfl, rfl⟩ := Prod.mk.inj (Option.some.inj h)
      exact .inr ⟨rfl, hfailed, rfl, fun _ h => nomatch h⟩
    | _ => exact nomatch h

/-- A read changes nothing. -/
theorem reply_read {α : Type} {v : α} {ans : Answer α} (h : reply x w (v, w) = some (ans, w')) :
    w' = w := by
  cases x with
  | proceed => exact (Prod.mk.inj (Option.some.inj h)).2.symm
  | fail e => exact (Prod.mk.inj (Option.some.inj h)).2.symm
  | lost e => exact (Prod.mk.inj (Option.some.inj h)).2.symm
  | _ => exact nomatch h

/-- What a read shows is there. -/
theorem reply_ok {α : Type} {v a : α} (h : reply x w (v, w) = some (.ok a, w')) : v = a := by
  cases x with
  | proceed => exact Except.ok.inj (Prod.mk.inj (Option.some.inj h)).1
  | fail e => exact nomatch (Prod.mk.inj (Option.some.inj h)).1
  | lost e => exact nomatch (Prod.mk.inj (Option.some.inj h)).1
  | _ => exact nomatch h

/-- What comes of an update of a user item. -/
theorem updateItem_cases {u : String} {update : RosterItem → RosterItem} {ans : Answer Unit}
    (h : replyAnswer x w (w.updateItem u update) = some (ans, w')) :
    (w' = w ∧ ans ≠ .ok ()) ∨ (x.lands = true ∧ ∃ item, w.rosters.lookup u = some item ∧
      w' = { w with rosters := w.rosters.insert u (update item) }) := by
  cases hitem : w.rosters.lookup u with
  | none =>
    left
    have hresult : w.updateItem u update =
        (.error (.error (.storeError "ConditionalCheckFailedException")), w) := by
      rw [Store.updateItem, hitem]
    rw [hresult] at h
    cases x with
    | proceed =>
      obtain ⟨rfl, rfl⟩ := Prod.mk.inj (Option.some.inj h)
      exact ⟨rfl, fun h => nomatch h⟩
    | fail e =>
      obtain ⟨rfl, rfl⟩ := Prod.mk.inj (Option.some.inj h)
      exact ⟨rfl, fun h => nomatch h⟩
    | lost e =>
      obtain ⟨rfl, rfl⟩ := Prod.mk.inj (Option.some.inj h)
      exact ⟨rfl, fun h => nomatch h⟩
    | _ => exact nomatch h
  | some item =>
    have hresult : w.updateItem u update = (.ok (), w.withRoster u (some (update item))) := by
      rw [Store.updateItem, hitem]
    rw [hresult] at h
    cases x with
    | proceed =>
      obtain ⟨-, rfl⟩ := Prod.mk.inj (Option.some.inj h)
      exact .inr ⟨rfl, item, rfl, rfl⟩
    | fail e =>
      obtain ⟨rfl, rfl⟩ := Prod.mk.inj (Option.some.inj h)
      exact .inl ⟨rfl, fun h => nomatch h⟩
    | lost e =>
      obtain ⟨-, rfl⟩ := Prod.mk.inj (Option.some.inj h)
      exact .inr ⟨rfl, item, rfl, rfl⟩
    | _ => exact nomatch h

/-- The user item a statement updates, where the statement does not fail. -/
theorem updated_of_isNone_ne {u : String} {update : RosterItem → Option RosterItem}
    (h : true ≠ (w.updated u update).isNone) : ∃ item item', w.rosters.lookup u = some item ∧
      update item = some item' ∧ w.updated u update = some item' := by
  cases hupdated : w.updated u update with
  | none => exact absurd (by rw [hupdated]; rfl) h
  | some item' =>
    obtain ⟨item, hitem, hupdate⟩ := Option.bind_eq_some_iff.mp hupdated
    exact ⟨item, item', hitem, hupdate, rfl⟩

/-- **Everything one request can do.** -/
theorem exec_cases {o : Command} {ans : Ans o} (h : exec place x c o w = some (ans, w')) :
    (w' = w ∧ ¬ Acknowledged o ans) ∨ (x.lands = true ∧ Changes c w o ans w') := by
  cases o with
  | now => exact .inl ⟨(Prod.mk.inj (Option.some.inj h)).2.symm, id⟩
  | getSession k => exact .inl ⟨reply_read h, id⟩
  | getRetired k => exact .inl ⟨reply_read h, id⟩
  | getRoster u => exact .inl ⟨reply_read h, id⟩
  | createUser u =>
    by_cases hname : u = ""
    · rw [exec, if_pos hname] at h
      exact nomatch h
    · rw [exec, if_neg hname] at h
      obtain hsame | ⟨hlands, hfree, rfl, hans⟩ := transact_cases h
      · exact .inl hsame
      · refine .inr ⟨hlands, .createUser hname ?_ hans⟩
        simpa using hfree
  | store s =>
    obtain hsame | ⟨hlands, hfree, rfl, hans⟩ := transact_cases h
    · exact .inl hsame
    · simp only [List.mem_cons, not_or] at hfree
      obtain ⟨hsession, hitem, -⟩ := hfree
      obtain ⟨item, item', hitem, hfile, hupdated⟩ := updated_of_isNone_ne hitem
      refine .inr ⟨hlands, ?_⟩
      rw [hupdated]
      exact .store (by simpa using hsession) hitem hfile hans
  | rotate a =>
    obtain hsame | ⟨hlands, hfree, rfl, hans⟩ := transact_cases h
    · exact .inl hsame
    · simp only [List.mem_append, List.mem_cons, not_or] at hfree
      obtain ⟨⟨⟨hlive, hsession, -⟩, hretired⟩, hitem, -⟩ := hfree
      obtain ⟨item, item', hitem, hrefile, hupdated⟩ := updated_of_isNone_ne hitem
      refine .inr ⟨hlands, ?_⟩
      rw [hupdated]
      refine .rotate ?_ (by simpa using hsession) ?_ hitem hrefile hans
      · simpa [Option.isSome_iff_ne_none] using hlive
      · intro hrecord
        obtain ⟨record, hrecord⟩ := Option.isSome_iff_exists.mp hrecord
        rw [hrecord] at hretired
        simpa using hretired
  | revoke k u f =>
    obtain hsame | ⟨hlands, hfree, rfl, hans⟩ := transact_cases h
    · exact .inl hsame
    · simp only [List.mem_cons, not_or] at hfree
      obtain ⟨hlive, hitem, -⟩ := hfree
      obtain ⟨item, item', hitem, hunfile, hupdated⟩ := updated_of_isNone_ne hitem
      refine .inr ⟨hlands, ?_⟩
      rw [hupdated]
      exact .revoke (by simpa [Option.isSome_iff_ne_none] using hlive) hitem hunfile hans
  | batchDelete keys =>
    cases x with
    | process done =>
      obtain ⟨rfl, rfl⟩ := Prod.mk.inj (Option.some.inj h)
      refine .inr ⟨rfl, .batchDelete fun left hleft => ?_⟩
      rw [← Except.ok.inj hleft]
      rfl
    | processLost done e =>
      obtain ⟨rfl, rfl⟩ := Prod.mk.inj (Option.some.inj h)
      exact .inr ⟨rfl, .batchDelete fun left hleft => nomatch hleft⟩
    | fail e =>
      obtain ⟨rfl, rfl⟩ := Prod.mk.inj (Option.some.inj h)
      exact .inl ⟨rfl, fun ⟨left, hleft⟩ => nomatch hleft⟩
    | _ => exact nomatch h
  | clearFamily u f live =>
    obtain hsame | ⟨hlands, item, hitem, rfl⟩ := updateItem_cases h
    · exact .inl hsame
    · exact .inr ⟨hlands, .clearFamily hitem⟩
  | clearRoster u =>
    obtain hsame | ⟨hlands, item, hitem, rfl⟩ := updateItem_cases h
    · exact .inl hsame
    · exact .inr ⟨hlands, .clearRoster hitem⟩
  | scanPages =>
    cases x with
    | pages count => exact .inl ⟨(Prod.mk.inj (Option.some.inj h)).2.symm, id⟩
    | _ => exact nomatch h
  | scanPage f start last =>
    left
    refine ⟨?_, id⟩
    cases x with
    | fail e => exact (Prod.mk.inj (Option.some.inj h)).2.symm
    | proceed =>
      cases last with
      | true => exact (Prod.mk.inj (Option.some.inj h)).2.symm
      | false => exact nomatch h
    | page stop =>
      cases last with
      | true => exact nomatch h
      | false => exact (Prod.mk.inj (Option.some.inj h)).2.symm
    | _ => cases last <;> exact nomatch h

end Inversion

/-! ## Deletions -/

section Deletions

variable {c : ℕ} {w : Store} {keys : List Key} {h : String}

theorem remove_cases (w : Store) (c : ℕ) (k : Key) :
    (w.has k = true ∧ w.remove c k = { w.erase k with removals := (c, k) :: w.removals }) ∨
      (w.has k = false ∧ w.remove c k = w) := by
  unfold Store.remove
  cases hhas : w.has k with
  | true => exact .inl ⟨rfl, rfl⟩
  | false => exact .inr ⟨rfl, rfl⟩

@[simp] theorem remove_rosters (w : Store) (c : ℕ) (k : Key) :
    (w.remove c k).rosters = w.rosters := by
  obtain ⟨-, h⟩ | ⟨-, h⟩ := remove_cases w c k
  · rw [h]
    cases k <;> rfl
  · rw [h]

@[simp] theorem remove_clock (w : Store) (c : ℕ) (k : Key) : (w.remove c k).clock = w.clock := by
  obtain ⟨-, h⟩ | ⟨-, h⟩ := remove_cases w c k
  · rw [h]
    cases k <;> rfl
  · rw [h]

theorem sessions_remove (w : Store) (c : ℕ) (k : Key) (h : String) :
    (w.remove c k).sessions.lookup h = if k = .session h then none else w.sessions.lookup h := by
  obtain ⟨-, heq⟩ | ⟨hhas, heq⟩ := remove_cases w c k
  · rw [heq]
    cases k with
    | session h' =>
      show (w.sessions.erase h').lookup h = _
      rw [Table.lookup_erase_ite]
      simp [eq_comm]
    | retired h' => simp [Store.erase]
  · rw [heq]
    split
    · rename_i hk
      subst hk
      simpa [Store.has] using hhas
    · rfl

@[simp] theorem removeAll_rosters (w : Store) (c : ℕ) (keys : List Key) :
    (keys.foldl (·.remove c) w).rosters = w.rosters := by
  induction keys generalizing w with
  | nil => rfl
  | cons k keys ih => rw [List.foldl_cons, ih, remove_rosters]

@[simp] theorem removeAll_clock (w : Store) (c : ℕ) (keys : List Key) :
    (keys.foldl (·.remove c) w).clock = w.clock := by
  induction keys generalizing w with
  | nil => rfl
  | cons k keys ih => rw [List.foldl_cons, ih, remove_clock]

/-- Deletions take away the sessions they name. -/
theorem sessions_removeAll (w : Store) (c : ℕ) (keys : List Key) (h : String) :
    (keys.foldl (·.remove c) w).sessions.lookup h =
      if Key.session h ∈ keys then none else w.sessions.lookup h := by
  induction keys generalizing w with
  | nil => rfl
  | cons k keys ih =>
    rw [List.foldl_cons, ih, sessions_remove]
    by_cases hin : Key.session h ∈ keys
    · simp [hin]
    · by_cases hk : k = .session h
      · simp [hk]
      · simp [hin, hk, Ne.symm hk]

end Deletions

end Dynamo

end OidcExchange
