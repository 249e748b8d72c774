import OidcExchange.Adapters.DynamoUsers
import OidcExchange.Interleaving.Testing
import OidcExchange.Storage.Table

/-!
# Identities on DynamoDB

Users, guards and counters are kept in step by every transaction that neither takes a deleted
user back nor creates a user whose identity has the separator of the guard's key in it. What
the two exceptions break is shown on a run each.
-/

set_option autoImplicit false

namespace OidcExchange

namespace DynamoUsers

open Interleaving Storage

/-! ## Keys of guards -/

/-- Neither part of the identity has the separator in it. -/
def Separated (provider externalId : String) : Prop :=
  '#' ∉ provider.toList ∧ '#' ∉ externalId.toList

instance (provider externalId : String) : Decidable (Separated provider externalId) :=
  inferInstanceAs (Decidable (_ ∧ _))

/-- A list with one separator is split in one way. -/
theorem append_sep_inj {α : Type} {sep : α} {a b a' b' : List α} (ha : sep ∉ a) (hb : sep ∉ b)
    (h : a ++ sep :: b = a' ++ sep :: b') : a = a' ∧ b = b' := by
  obtain ⟨t, rfl, hb'⟩ | ⟨t, rfl, hb'⟩ := List.append_eq_append_iff.mp h
  · cases t with
    | nil =>
      obtain rfl : b = b' := by simpa using hb'
      simp
    | cons x t =>
      obtain ⟨rfl, rfl⟩ : sep = x ∧ b = t ++ sep :: b' := by simpa using hb'
      exact absurd (List.mem_append_right _ (List.mem_cons_self ..)) hb
  · cases t with
    | nil =>
      obtain rfl : b' = b := by simpa using hb'
      simp
    | cons x t =>
      obtain ⟨rfl, rfl⟩ : sep = x ∧ b' = t ++ sep :: b := by simpa using hb'
      exact absurd (List.mem_append_right _ (List.mem_cons_self ..)) ha

/-- The key of a guard tells a separated identity from every other. -/
theorem guardPk_inj {provider externalId provider' externalId' : String}
    (hsep : Separated provider externalId)
    (h : guardPk provider externalId = guardPk provider' externalId') :
    provider = provider' ∧ externalId = externalId' := by
  have hlist := congrArg String.toList h
  simp only [guardPk, String.toList_append, List.append_assoc, List.append_cancel_left_eq] at hlist
  obtain ⟨hprovider, hexternal⟩ := append_sep_inj hsep.1 hsep.2 hlist
  exact ⟨String.toList_inj.mp hprovider, String.toList_inj.mp hexternal⟩

/-! ## Users, guards and counters in step -/

/-- The user lives under the identity. -/
def Bears (u : User) (provider externalId : String) : Prop :=
  u.status ≠ .deleted ∧ u.provider = provider ∧ u.externalId = externalId

/-- How many users have the status. -/
def tally (users : Table String User) (status : UserStatus) : ℕ :=
  Table.countWhere users fun _ u => u.status == status

/-- At most one user that is not deleted bears an identity, the guard of an identity is there
exactly as long and names that user, and the counters count. -/
structure Consistent (w : Directory) : Prop where
  unique : ∀ id id' u u' provider externalId, w.users.lookup id = some u →
    w.users.lookup id' = some u' → Bears u provider externalId → Bears u' provider externalId →
    id = id'
  guarded : ∀ provider externalId id, w.guards.lookup (guardPk provider externalId) = some id ↔
    ∃ u, w.users.lookup id = some u ∧ Bears u provider externalId
  counted : ∀ status, w.counts status = tally w.users status

/-- What is kept: the identities are separated, and a guard's key is the owner's. -/
structure Kept (w : Directory) : Prop where
  keyed : ∀ id u, w.users.lookup id = some u → u.id = id
  separated : ∀ id u, w.users.lookup id = some u → Separated u.provider u.externalId
  guarded : ∀ key id, w.guards.lookup key = some id ↔
    ∃ u, w.users.lookup id = some u ∧ u.status ≠ .deleted ∧ guardPk u.provider u.externalId = key
  counted : ∀ status, w.counts status = tally w.users status

variable {w w' : Directory}

/-- What is kept makes the three kinds of items consistent. -/
theorem Kept.consistent (h : Kept w) : Consistent w where
  unique id id' u u' provider externalId hu hu' hb hb' := by
    obtain ⟨hlive, rfl, rfl⟩ := hb
    obtain ⟨hlive', hprovider, hexternal⟩ := hb'
    have hguard := (h.guarded _ id).mpr ⟨u, hu, hlive, rfl⟩
    have hguard' := (h.guarded _ id').mpr ⟨u', hu', hlive', rfl⟩
    rw [hprovider, hexternal, hguard] at hguard'
    exact Option.some.inj hguard'
  guarded provider externalId id := by
    rw [h.guarded]
    constructor
    · rintro ⟨u, hu, hlive, hkey⟩
      obtain ⟨hprovider, hexternal⟩ := guardPk_inj (h.separated id u hu) hkey
      exact ⟨u, hu, hlive, hprovider, hexternal⟩
    · rintro ⟨u, hu, hlive, rfl, rfl⟩
      exact ⟨u, hu, hlive, rfl⟩
  counted := h.counted

theorem Kept.empty (clock : Instant) : Kept (.empty clock) := by
  constructor
  · intro id u hu
    simp [Directory.empty] at hu
  · intro id u hu
    simp [Directory.empty] at hu
  · intro key id
    simp [Directory.empty]
  · intro status
    rfl

/-! ## What a transaction does -/

theorem transact_cases {failed : List Bool} {committed : Directory} {outcome : Dynamo.Outcome}
    (h : w.transact failed committed = (outcome, w')) :
    (true ∈ failed ∧ outcome = .cancelled failed ∧ w' = w) ∨
      (true ∉ failed ∧ outcome = .committed ∧ w' = committed) := by
  unfold Directory.transact at h
  by_cases hfailed : true ∈ failed
  · rw [if_pos hfailed] at h
    cases h
    exact .inl ⟨hfailed, rfl, rfl⟩
  · rw [if_neg hfailed] at h
    cases h
    exact .inr ⟨hfailed, rfl, rfl⟩

/-- A creation leaves the table or writes a new user under an identity without a guard. -/
theorem create_cases (w : Directory) (user : User) :
    (w.create user).2 = w ∨
      (w.users.lookup user.id = none ∧
        w.guards.lookup (guardPk user.provider user.externalId) = none ∧
        (w.create user).2.users = w.users.insert user.id user ∧
        (w.create user).2.guards =
          w.guards.insert (guardPk user.provider user.externalId) user.id ∧
        (w.create user).2.counts = addTo w.counts .active 1) := by
  obtain ⟨-, -, hw⟩ | ⟨hfree, -, hw⟩ := transact_cases (Prod.mk.eta (p := w.create user)).symm
  · exact .inl hw
  · right
    simp only [List.mem_cons, not_or] at hfree
    obtain ⟨huser, hguard, -⟩ := hfree
    refine ⟨?_, ?_, ?_⟩
    · simpa using huser
    · simpa using hguard
    · rw [hw]
      exact ⟨rfl, rfl, rfl⟩

/-! ## Counters -/

theorem addTo_apply (counts : UserStatus → ℤ) (status s : UserStatus) (n : ℤ) :
    addTo counts status n s = counts s + if s = status then n else 0 := by
  unfold addTo
  by_cases hs : s = status
  · subst hs
    simp
  · simp [hs]

/-- A new user counts under its status. -/
theorem tally_insert_of_none {users : Table String User} {id : String}
    (h : users.lookup id = none) (u : User) (s : UserStatus) :
    tally (users.insert id u) s = tally users s + if u.status = s then 1 else 0 := by
  unfold tally
  rw [Table.countWhere_insert, Table.countWhere_erase_of_none _ h]
  simp

/-- A user that is written again counts under its new status alone. -/
theorem tally_insert_of_some {users : Table String User} {id : String} {old : User}
    (h : users.lookup id = some old) (u : User) (s : UserStatus) :
    tally (users.insert id u) s + (if old.status = s then 1 else 0) =
      tally users s + if u.status = s then 1 else 0 := by
  unfold tally
  rw [Table.countWhere_insert, Table.countWhere_of_some _ h]
  simp only [beq_iff_eq]
  omega

/-! ## Every transaction keeps the items in step -/

/-- Creating a user under a separated identity. -/
theorem Kept.create (h : Kept w) {user : User} (hactive : user.status = .active)
    (hsep : Separated user.provider user.externalId) : Kept (w.create user).2 := by
  obtain hw | ⟨hfresh, hfree, husers, hguards, hcounts⟩ := create_cases w user
  · rw [hw]
    exact h
  have hlookup (id : String) : (w.create user).2.users.lookup id =
      if id = user.id then some user else w.users.lookup id := by
    rw [husers, Table.lookup_insert_ite]
  constructor
  · intro id u hu
    rw [hlookup] at hu
    split at hu
    · rename_i hid
      cases hu
      exact hid.symm
    · exact h.keyed id u hu
  · intro id u hu
    rw [hlookup] at hu
    split at hu
    · cases hu
      exact hsep
    · exact h.separated id u hu
  · intro key id
    rw [hguards, Table.lookup_insert_ite]
    by_cases hid : id = user.id
    · subst hid
      rw [hlookup, if_pos rfl]
      by_cases hkey : key = guardPk user.provider user.externalId
      · simp [hkey, hactive]
      · have hnot : w.guards.lookup key ≠ some user.id := by
          intro hguard
          obtain ⟨u, hu, -⟩ := (h.guarded key user.id).mp hguard
          rw [hfresh] at hu
          exact nomatch hu
        simp [hkey, hnot, Ne.symm hkey]
    · rw [hlookup, if_neg hid, ← h.guarded]
      by_cases hkey : key = guardPk user.provider user.externalId
      · subst hkey
        simp [hfree, Ne.symm hid]
      · simp [hkey]
  · intro s
    rw [hcounts, husers, addTo_apply, h.counted, tally_insert_of_none hfresh, hactive]
    by_cases hs : s = .active
    · simp [hs]
    · simp [hs, Ne.symm hs]

section Update

variable (patch : UserPatch) (now : Instant) (read : User)

/-- The status an update leaves. -/
def statusAfter : UserStatus := patch.status.getD read.status

@[simp] theorem updateOf_user : (updateOf patch now read).user = applyPatch patch now read := rfl

@[simp] theorem status_applyPatch :
    (applyPatch patch now read).status = statusAfter patch read := rfl

/-- The counters move where the status does. -/
theorem transition_updateOf : (updateOf patch now read).transition =
    if statusAfter patch read = read.status then none
      else some (read.status, statusAfter patch read) := by
  unfold updateOf statusAfter
  cases patch.status with
  | none => simp
  | some target =>
    by_cases h : target = read.status
    · simp [h]
    · simp [h, Option.filter]

/-- The guard goes where the user is deleted now. -/
theorem dropsGuard_updateOf : (updateOf patch now read).dropsGuard = true ↔
    statusAfter patch read = .deleted ∧ read.status ≠ .deleted := by
  unfold updateOf statusAfter
  cases patch.status with
  | none => simp
  | some target => simp

end Update

/-- The counters after an update that met the record it had read. -/
theorem counts_after (h : ∀ s, w.counts s = tally w.users s) {patch : UserPatch} {now : Instant}
    {read : User} (hread : w.users.lookup read.id = some read) (s : UserStatus) :
    ((updateOf patch now read).transition.elim w.counts fun t =>
      counterAdjustment (some t.1) t.2 w.counts) s =
        tally (w.users.insert read.id (applyPatch patch now read)) s := by
  have htally := tally_insert_of_some hread (applyPatch patch now read) s
  rw [status_applyPatch] at htally
  rw [transition_updateOf]
  by_cases hsame : statusAfter patch read = read.status
  · rw [if_pos hsame, Option.elim_none, h]
    rw [hsame] at htally
    omega
  · rw [if_neg hsame, Option.elim_some]
    simp only [counterAdjustment, addTo_apply, h]
    simp only [eq_comm (b := s)] at htally
    split_ifs at htally ⊢ <;> omega

/-- An update that takes no deleted user back, of the record it has read. -/
theorem Kept.update (h : Kept w) {patch : UserPatch} {now : Instant} {read : User}
    (hread : w.users.lookup read.id = some read)
    (hterminal : read.status = .deleted → statusAfter patch read = .deleted) :
    Kept (w.update (updateOf patch now read)).2 := by
  obtain ⟨-, -, hw⟩ | ⟨-, -, hw⟩ :=
    transact_cases (Prod.mk.eta (p := w.update (updateOf patch now read))).symm
  · rw [hw]
    exact h
  rw [hw]
  have hlive := h.guarded (guardPk read.provider read.externalId) read.id
  have hlookup (id : String) : (w.users.insert read.id (applyPatch patch now read)).lookup id =
      if id = read.id then some (applyPatch patch now read) else w.users.lookup id :=
    Table.lookup_insert_ite ..
  constructor
  · intro id u hu
    obtain hu := (hlookup id).symm.trans hu
    split at hu
    · rename_i hid
      cases hu
      exact hid.symm
    · exact h.keyed id u hu
  · intro id u hu
    obtain hu := (hlookup id).symm.trans hu
    split at hu
    · cases hu
      exact h.separated read.id read hread
    · exact h.separated id u hu
  · intro key id
    show (if (updateOf patch now read).dropsGuard = true then
        w.guards.erase (guardPk read.provider read.externalId) else w.guards).lookup key = some id ↔
      ∃ u, (w.users.insert read.id (applyPatch patch now read)).lookup id = some u ∧ _
    rw [hlookup]
    by_cases hdrop : (updateOf patch now read).dropsGuard = true
    · -- the user was alive, so the guard was its own
      obtain ⟨hdeleted, halive⟩ := (dropsGuard_updateOf ..).mp hdrop
      have howned := hlive.mpr ⟨read, hread, halive, rfl⟩
      rw [if_pos hdrop, Table.lookup_erase_ite]
      by_cases hid : id = read.id
      · subst hid
        have hkey : w.guards.lookup key = some read.id →
            key = guardPk read.provider read.externalId := by
          intro hguard
          obtain ⟨u, hu, -, rfl⟩ := (h.guarded key read.id).mp hguard
          cases hread.symm.trans hu
          rfl
        by_cases heq : key = guardPk read.provider read.externalId
        · simp [heq, hdeleted]
        · have hother : w.guards.lookup key ≠ some read.id := fun hguard => heq (hkey hguard)
          simp [heq, hdeleted, hother]
      · rw [if_neg hid, ← h.guarded]
        by_cases heq : key = guardPk read.provider read.externalId
        · subst heq
          simp [howned, Ne.symm hid]
        · simp [heq]
    · rw [if_neg hdrop, h.guarded]
      by_cases hid : id = read.id
      · subst hid
        have hstatus : statusAfter patch read ≠ .deleted ↔ read.status ≠ .deleted := by
          rw [dropsGuard_updateOf] at hdrop
          constructor
          · exact fun hne hdeleted => hne (hterminal hdeleted)
          · exact fun hne hdeleted => hdrop ⟨hdeleted, hne⟩
        rw [if_pos rfl, hread]
        simp only [Option.some.injEq, exists_eq_left', status_applyPatch, hstatus]
        rfl
      · rw [if_neg hid]
  · exact fun s => counts_after h.counted hread s

/-! ## What the calls have done when they write -/

abbrev Past : Type := List (Performed Ans)

/-- A call writes a new user as it was asked, or a patch over a record it has read. -/
def Ready : Request → Past → Command → Prop
  | .create _, _, o =>
    match o with
    | .create full => full.status = .active
    | .update _ => False
    | _ => True
  | .update userId patch, past, o => Updates userId patch past o
  | .delete userId, past, o => Updates userId deletion past o
where
  Updates (userId : String) (patch : UserPatch) (past : Past) : Command → Prop
    | .update a => ∃ read now, (⟨.getUser userId, .ok (some read)⟩ : Performed Ans) ∈ past ∧
        a = updateOf patch now read
    | .create _ => False
    | _ => True

theorem createUser_obeys (user : NewUser) :
    (createUser user).Obeys (Ready (.create user)) (fun _ _ => True) [] := by
  refine ⟨trivial, fun now => ⟨trivial, fun id => ⟨rfl, ?_⟩⟩⟩
  rintro (e | outcome)
  · trivial
  · cases outcome <;> trivial

theorem updateAttempt_obeys (userId : String) (patch : UserPatch) (past : Past) :
    (updateAttempt userId patch).Obeys (Ready.Updates userId patch) (fun _ _ => True) past := by
  refine ⟨trivial, ?_⟩
  rintro (e | read)
  · trivial
  cases read with
  | none => trivial
  | some read =>
    refine ⟨trivial, fun now => ?_⟩
    refine Adapter.obeys_assert (fun _ => ⟨⟨read, now, by simp, rfl⟩, ?_⟩) fun _ => trivial
    rintro (e | outcome)
    · trivial
    · cases outcome <;> trivial

theorem updateUser_obeys (userId : String) (patch : UserPatch) :
    (updateUser userId patch).Obeys (Ready.Updates userId patch) (fun _ _ => True) [] := by
  suffices hretry : ∀ budget past, (retryOnVersionConflict userId (updateAttempt userId patch)
      budget).Obeys (Ready.Updates userId patch) (fun _ _ => True) past from hretry _ _
  intro budget
  induction budget with
  | zero => exact fun _ => trivial
  | succ budget ih =>
    intro past
    refine (updateAttempt_obeys userId patch past).bind (fun past' read _ => ?_) fun _ _ _ => trivial
    cases read with
    | none => exact ih past'
    | some user => trivial

theorem serve_obeys (r : Request) : (serve r).Obeys (Ready r) (fun _ _ => True) [] := by
  cases r with
  | create user => exact (createUser_obeys user).bind (fun _ _ _ => trivial) fun _ _ _ => trivial
  | update userId patch =>
    exact (updateUser_obeys userId patch).bind (fun _ _ _ => trivial) fun _ _ _ => trivial
  | delete userId =>
    have hdelete : (deleteUser userId).Obeys (Ready (.delete userId)) (fun _ _ => True) [] :=
      (updateUser_obeys userId deletion).bind (fun _ _ _ => trivial) fun _ _ _ => trivial
    exact hdelete.bind (fun _ _ _ => trivial) fun _ _ _ => trivial

/-! ## Runs -/

/-- A request that takes place. -/
def Choice.lands : Choice → Bool
  | .fail _ => false
  | _ => true

/-- No user is created whose identity has the separator in it, and no deleted user is taken
back, by a transaction that commits. -/
def Orderly (m : UsersMoment) (_c : ℕ) (x : Choice) : Command → Prop
  | .create user => x.lands = true → (m.world.create user).1 = .committed →
      Separated user.provider user.externalId
  | .update a => x.lands = true → (m.world.update a).1 = .committed →
      ∀ stored, m.world.users.lookup a.user.id = some stored → stored.status = .deleted →
        a.user.status = .deleted
  | _ => True

/-- What a record that was read says of the record now: it has not got a lower version since,
and is the same as long as the version is. -/
structure ReadBefore (w : Directory) (userId : String) (read : User) : Prop where
  id_eq : read.id = userId
  stored : ∃ u, w.users.lookup userId = some u ∧ read.version ≤ u.version ∧
    (u.version = read.version → u = read)

/-- Every record stays, and its version grows with it. -/
def Succeeds (w w' : Directory) : Prop :=
  ∀ id u, w.users.lookup id = some u →
    ∃ u', w'.users.lookup id = some u' ∧ (u' = u ∨ u.version < u'.version)

theorem ReadBefore.succeeds {userId : String} {read : User} (h : ReadBefore w userId read)
    (hle : Succeeds w w') : ReadBefore w' userId read := by
  obtain ⟨hid, u, hu, hversion, hsame⟩ := h
  obtain ⟨u', hu', rfl | hlt⟩ := hle userId u hu
  · exact ⟨hid, u', hu', hversion, hsame⟩
  · refine ⟨hid, u', hu', by omega, fun heq => ?_⟩
    omega

/-- The items are in step, and every record a call has read is as old as it says. -/
structure Inv (m : UsersMoment) : Prop where
  kept : Kept m.world
  read : ∀ c userId user, .performed c (.getUser userId) (.ok (some user)) ∈ m.history →
    ReadBefore m.world userId user

/-- An update that commits met the record it had read. -/
theorem update_committed {patch : UserPatch} {now : Instant} {userId : String} {read : User}
    (hread : ReadBefore w userId read) :
    (w.update (updateOf patch now read)).2 = w ∨
      ((w.update (updateOf patch now read)).1 = .committed ∧
        w.users.lookup read.id = some read ∧
        (w.update (updateOf patch now read)).2.users =
          w.users.insert read.id (applyPatch patch now read)) := by
  obtain ⟨-, -, hw⟩ | ⟨hfailed, hcommitted, hw⟩ :=
    transact_cases (Prod.mk.eta (p := w.update (updateOf patch now read))).symm
  · exact .inl hw
  · obtain ⟨rfl, u, hu, -, hsame⟩ := hread
    refine .inr ⟨hcommitted, ?_, by rw [hw]; rfl⟩
    have hfresh : w.stale (updateOf patch now read) = false := by
      simp only [List.mem_append, not_or, List.mem_singleton] at hfailed
      simpa using hfailed.1.1
    have hversion : u.version = read.version := by
      have hstale : ((w.users.lookup read.id).any fun u => u.version != read.version) = false :=
        hfresh
      rw [hu] at hstale
      simpa using hstale
    rw [hu, hsame hversion]

theorem succeeds_refl (w : Directory) : Succeeds w w := fun _ u hu => ⟨u, hu, .inl rfl⟩

/-- A creation writes over no record. -/
theorem succeeds_create (w : Directory) (user : User) : Succeeds w (w.create user).2 := by
  obtain hw | ⟨hfresh, -, husers, -⟩ := create_cases w user
  · rw [hw]
    exact succeeds_refl w
  · intro id u hu
    refine ⟨u, ?_, .inl rfl⟩
    rw [husers, Table.lookup_insert_ite, if_neg, hu]
    rintro rfl
    rw [hfresh] at hu
    exact nomatch hu

/-- An update writes the next version over the record it has read. -/
theorem succeeds_update {patch : UserPatch} {now : Instant} {userId : String} {read : User}
    (hread : ReadBefore w userId read) : Succeeds w (w.update (updateOf patch now read)).2 := by
  obtain hw | ⟨-, hstored, husers⟩ := @update_committed _ patch now _ _ hread
  · rw [hw]
    exact succeeds_refl w
  · intro id u hu
    rw [husers, Table.lookup_insert_ite]
    by_cases hid : id = read.id
    · subst hid
      cases hstored.symm.trans hu
      exact ⟨_, if_pos rfl, .inr (Nat.lt_succ_self _)⟩
    · exact ⟨u, by rw [if_neg hid, hu], .inl rfl⟩

theorem Inv.initial (clock : Instant) : Inv (UsersPool.start clock).toMoment where
  kept := .empty clock
  read := by simp [UsersPool.start, Pool.initial]

/-- Everything a request can do to the table. -/
theorem exec_cases {x : Choice} {c : ℕ} {o : Command} {ans : Ans o}
    (h : exec x c o w = some (ans, w')) :
    w' = w ∨ x.lands = true ∧
      ((∃ user, o = .create user ∧ w' = (w.create user).2) ∨
        ∃ a, o = .update a ∧ w' = (w.update a).2) := by
  cases o with
  | now =>
    obtain ⟨-, rfl⟩ : w.clock = ans ∧ w = w' := by simpa [exec] using h
    exact .inl rfl
  | generateId => cases x <;> simp_all [exec]
  | getUser userId => cases x <;> simp_all [exec, reply]
  | create user =>
    cases x with
    | draw text => exact nomatch h
    | fail e =>
      obtain ⟨-, rfl⟩ := Prod.mk.inj (Option.some.inj h)
      exact .inl rfl
    | proceed =>
      obtain ⟨-, rfl⟩ := Prod.mk.inj (Option.some.inj h)
      exact .inr ⟨rfl, .inl ⟨user, rfl, rfl⟩⟩
    | lost e =>
      obtain ⟨-, rfl⟩ := Prod.mk.inj (Option.some.inj h)
      exact .inr ⟨rfl, .inl ⟨user, rfl, rfl⟩⟩
  | update a =>
    cases x with
    | draw text => exact nomatch h
    | fail e =>
      obtain ⟨-, rfl⟩ := Prod.mk.inj (Option.some.inj h)
      exact .inl rfl
    | proceed =>
      obtain ⟨-, rfl⟩ := Prod.mk.inj (Option.some.inj h)
      exact .inr ⟨rfl, .inr ⟨a, rfl, rfl⟩⟩
    | lost e =>
      obtain ⟨-, rfl⟩ := Prod.mk.inj (Option.some.inj h)
      exact .inr ⟨rfl, .inr ⟨a, rfl, rfl⟩⟩

/-- A record that a call reads is the one that is stored. -/
theorem stored_of_getUser {x : Choice} {c : ℕ} {userId : String} {user : User}
    (h : exec x c (.getUser userId) w = some (.ok (some user), w')) :
    w.users.lookup userId = some user ∧ w' = w := by
  cases x with
  | proceed =>
    obtain ⟨hans, rfl⟩ := Prod.mk.inj (Option.some.inj h)
    exact ⟨Except.ok.inj hans, rfl⟩
  | fail e => exact nomatch (Prod.mk.inj (Option.some.inj h)).1
  | lost e => exact nomatch (Prod.mk.inj (Option.some.inj h)).1
  | draw text => exact nomatch h

/-- What a call is about to update, it was asked to update. -/
theorem updates_of_ready {request : Request} {past : Past} {a : Update}
    (h : Ready request past (.update a)) : ∃ userId patch read now,
      (⟨.getUser userId, .ok (some read)⟩ : Performed Ans) ∈ past ∧
        a = updateOf patch now read := by
  cases request with
  | create user => exact h.elim
  | update userId patch =>
    obtain ⟨read, now, hread, rfl⟩ := h
    exact ⟨userId, patch, read, now, hread, rfl⟩
  | delete userId =>
    obtain ⟨read, now, hread, rfl⟩ := h
    exact ⟨userId, deletion, read, now, hread, rfl⟩

/-- Users are created active. -/
theorem active_of_ready {request : Request} {past : Past} {user : User}
    (h : Ready request past (.create user)) : user.status = .active := by
  cases request with
  | create _ => exact h
  | update _ _ => exact h.elim
  | delete _ => exact h.elim

variable {m : UsersMoment} {c : ℕ}

/-- Every request that is orderly keeps the items in step. -/
theorem Inv.performed {x : Choice} {o : Command} {ans : Ans o} {request : Request} (h : Inv m)
    (hready : Ready request (m.past c) o) (horderly : Orderly m c x o)
    (hex : exec x c o m.world = some (ans, w')) : Inv (m.performed c o ans w') := by
  have hstep : Kept w' ∧ Succeeds m.world w' := by
    obtain rfl | ⟨hlands, ⟨user, rfl, rfl⟩ | ⟨a, rfl, rfl⟩⟩ := exec_cases hex
    · exact ⟨h.kept, succeeds_refl _⟩
    · refine ⟨?_, succeeds_create _ user⟩
      by_cases hcommits : (m.world.create user).1 = .committed
      · exact h.kept.create (active_of_ready hready) (horderly hlands hcommits)
      · obtain ⟨-, -, hw⟩ | ⟨-, hcommitted, -⟩ :=
          transact_cases (Prod.mk.eta (p := m.world.create user)).symm
        · rw [hw]
          exact h.kept
        · exact absurd hcommitted hcommits
    · obtain ⟨userId, patch, read, now, hfound, rfl⟩ := updates_of_ready hready
      have hread := h.read c userId read ((Moment.mem_past ..).mp hfound)
      refine ⟨?_, succeeds_update hread⟩
      obtain hw | ⟨hcommitted, hstored, -⟩ := @update_committed _ patch now _ _ hread
      · rw [hw]
        exact h.kept
      · exact h.kept.update hstored (horderly hlands hcommitted read hstored)
  refine ⟨hstep.1, fun c' userId user hmem => ?_⟩
  obtain heq | hmem := List.mem_cons.mp hmem
  · cases heq
    obtain ⟨hstored, rfl⟩ := stored_of_getUser hex
    exact ⟨h.kept.keyed userId user hstored, user, hstored, le_rfl, fun _ => rfl⟩
  · exact (h.read c' userId user hmem).succeeds hstep.2

/-- The items of the directory as an invariant of every run that is orderly. -/
def identityProtocol : Protocol semantics Ready where
  inv := Inv
  allowed := Orderly
  begins h _ := ⟨h.kept, fun c u user hmem => h.read c u user (by simpa using hmem)⟩
  performs h _ hready horderly hex := h.performed hready horderly hex
  ends h _ := ⟨h.kept, fun c u user hmem => h.read c u user (by simpa using hmem)⟩
  drifts {m k w} h hdrift := by
    obtain ⟨t⟩ := k
    unfold semantics drift at hdrift
    simp only [Option.ite_none_right_eq_some, Option.some.injEq] at hdrift
    obtain ⟨-, rfl⟩ := hdrift
    exact ⟨⟨h.kept.keyed, h.kept.separated, h.kept.guarded, h.kept.counted⟩,
      fun c u user hmem => (h.read c u user hmem).succeeds (succeeds_refl _)⟩

/-- **Users, guards and counters stay in step**: in every run in which no user is created whose
identity has the separator in it and no deleted user is taken back. -/
theorem identities_consistent {clock : Instant} {as : List (Act Request Choice Drift)}
    {q : UsersPool} (hrun : users.Run (Pool.Under Orderly) (.start clock) as q) :
    Consistent q.world :=
  (identityProtocol.run serve_obeys hrun (.initial _) (.initial clock)).kept.consistent

/-! ## Runs -/

namespace Sample

/-- A user to be created. -/
def newUser (provider externalId : String) : NewUser where
  externalId := externalId
  provider := provider
  email := none
  displayName := none

/-- A patch of the status alone. -/
def setting (status : UserStatus) : UserPatch := { deletion with status := some status }

/-- Call `c` creates a user with the given identifier. -/
def creating (c : ℕ) (provider externalId id : String) : List (Act Request Choice Drift) :=
  [.begin c (.create (newUser provider externalId)), .advance c .proceed, .advance c (.draw id),
    .advance c .proceed]

/-- Call `c` reads the user and writes it. -/
def writing (c : ℕ) (request : Request) : List (Act Request Choice Drift) :=
  [.begin c request, .advance c .proceed, .advance c .proceed, .advance c .proceed]

/-- The test of `Orderly`. -/
def isOrderly (m : UsersMoment) (_c : ℕ) (_x : Choice) : Command → Bool
  | .create user => decide (Separated user.provider user.externalId)
  | .update a => (m.world.users.lookup a.user.id).all fun stored =>
      stored.status != .deleted || a.user.status == .deleted
  | _ => true

theorem orderly_of_test (m : UsersMoment) (c : ℕ) (x : Choice) (o : Command)
    (h : isOrderly m c x o = true) : Orderly m c x o := by
  cases o with
  | create user => exact fun _ _ => of_decide_eq_true h
  | update a =>
    intro _ _ stored hstored hdeleted
    simp only [isOrderly, hstored, hdeleted, Option.all_some] at h
    simpa using h
  | _ => trivial

/-- The user is there and bears the identity. -/
def bears (p : UsersPool) (id provider externalId : String) : Bool :=
  (p.world.users.lookup id).any fun u =>
    u.status != .deleted && u.provider == provider && u.externalId == externalId

theorem bears_iff {p : UsersPool} {id provider externalId : String} :
    bears p id provider externalId = true ↔
      ∃ u, p.world.users.lookup id = some u ∧ Bears u provider externalId := by
  simp [bears, Option.any_eq_true, Bears, and_assoc]

end Sample

open Sample in
/-- A user is deleted and its identity is registered again. -/
theorem identities_consistent_registered_again : ∃ as q,
    users.Run (Pool.Under Orderly) (.start 0) as q ∧ Consistent q.world ∧
      q.world.guards.lookup (guardPk "idp" "alice") = some "usr_b" := by
  have hrun : (users.followWhen (Pool.passes isOrderly) (.start 0)
      (creating 0 "idp" "alice" "usr_a" ++ writing 1 (.delete "usr_a") ++
        creating 2 "idp" "alice" "usr_b")).any (fun q =>
      q.world.guards.lookup (guardPk "idp" "alice") == some "usr_b") = true := by
    decide +kernel
  obtain ⟨q, hrun, htest⟩ :=
    System.Run.of_followWhen_any (Pool.under_of_passes orderly_of_test) hrun
  exact ⟨_, q, hrun, identities_consistent hrun, by simpa using htest⟩

open Sample in
/-- Two runs after which no call is in flight and the items contradict each other: a deleted user
is taken back after its identity was registered again, so that two users bear it; and a user is
created whose identity has the separator in it, so that the guard of an identity is there that
nobody bears. -/
theorem identities_inconsistent :
    (∃ as q, users.Run System.anyStep (.start 0) as q ∧ q.Idle ∧ ¬ Consistent q.world) ∧
    (∃ as q, users.Run System.anyStep (.start 0) as q ∧ q.Idle ∧ ¬ Consistent q.world) := by
  constructor
  · let as := creating 0 "idp" "alice" "usr_a" ++ writing 1 (.delete "usr_a") ++
      creating 2 "idp" "alice" "usr_b" ++ writing 3 (.update "usr_a" (setting .active))
    have hrun : (users.follow (.start 0) as).any (fun q => Pool.finishedBelow 4 q &&
        bears q "usr_a" "idp" "alice" && bears q "usr_b" "idp" "alice") = true := by
      decide +kernel
    obtain ⟨q, hrun, htest⟩ := System.Run.of_follow_any hrun
    simp only [Bool.and_eq_true, bears_iff] at htest
    obtain ⟨⟨hfinished, u, hu, hbears⟩, u', hu', hbears'⟩ := htest
    refine ⟨as, q, hrun, Pool.idle_of_finishedBelow hrun (by decide) hfinished, fun h => ?_⟩
    exact absurd (h.unique _ _ u u' _ _ hu hu' hbears hbears') (by decide)
  · let as := creating 0 "idp" "a#b" "usr_a"
    have hrun : (users.follow (.start 0) as).any (fun q => Pool.finishedBelow 1 q &&
        q.world.guards.lookup (guardPk "idp#a" "b") == some "usr_a" &&
          !bears q "usr_a" "idp#a" "b") = true := by
      decide +kernel
    obtain ⟨q, hrun, htest⟩ := System.Run.of_follow_any hrun
    simp only [Bool.and_eq_true, beq_iff_eq, Bool.not_eq_true'] at htest
    obtain ⟨⟨hfinished, hguard⟩, hbears⟩ := htest
    refine ⟨as, q, hrun, Pool.idle_of_finishedBelow hrun (by decide) hfinished, fun h => ?_⟩
    have hbearer := bears_iff.mpr ((h.guarded "idp#a" "b" "usr_a").mp hguard)
    rw [hbears] at hbearer
    exact nomatch hbearer

/-! ## Counters in every run -/

/-- What is kept without exception: every user is stored under its identifier, and the counters
count. -/
structure Counted (w : Directory) : Prop where
  keyed : ∀ id u, w.users.lookup id = some u → u.id = id
  counted : ∀ status, w.counts status = tally w.users status

theorem Counted.empty (clock : Instant) : Counted (.empty clock) :=
  ⟨(Kept.empty clock).keyed, (Kept.empty clock).counted⟩

/-- A user that is stored under its identifier. -/
theorem keyed_insert {users : Table String User} (user : User)
    (h : ∀ id u, users.lookup id = some u → u.id = id) (id : String) (u : User)
    (hu : (users.insert user.id user).lookup id = some u) : u.id = id := by
  rw [Table.lookup_insert_ite] at hu
  split at hu
  · rename_i hid
    cases hu
    exact hid.symm
  · exact h id u hu

theorem Counted.create (h : Counted w) {user : User} (hactive : user.status = .active) :
    Counted (w.create user).2 := by
  obtain hw | ⟨hfresh, -, husers, -, hcounts⟩ := create_cases w user
  · rw [hw]
    exact h
  constructor
  · rw [husers]
    exact keyed_insert _ h.keyed
  · intro s
    rw [hcounts, husers, addTo_apply, h.counted, tally_insert_of_none hfresh, hactive]
    by_cases hs : s = .active
    · simp [hs]
    · simp [hs, Ne.symm hs]

/-- An update of the record it has read, whatever status it sets. -/
theorem Counted.update (h : Counted w) {patch : UserPatch} {now : Instant} {userId : String}
    {read : User} (hread : ReadBefore w userId read) :
    Counted (w.update (updateOf patch now read)).2 := by
  obtain hw | ⟨hcommitted, hstored, husers⟩ := @update_committed w patch now userId read hread
  · rw [hw]
    exact h
  constructor
  · rw [husers]
    exact keyed_insert (applyPatch patch now read) h.keyed
  · intro s
    obtain ⟨-, hcancelled, -⟩ | ⟨-, -, hw⟩ :=
      transact_cases (Prod.mk.eta (p := w.update (updateOf patch now read))).symm
    · cases hcancelled.symm.trans hcommitted
    · rw [husers, hw]
      exact counts_after h.counted hstored s

/-- The counters count, and every record a call has read is as old as it says. -/
structure CountInv (m : UsersMoment) : Prop where
  kept : Counted m.world
  read : ∀ c userId user, .performed c (.getUser userId) (.ok (some user)) ∈ m.history →
    ReadBefore m.world userId user

theorem CountInv.performed {x : Choice} {o : Command} {ans : Ans o} {request : Request}
    (h : CountInv m) (hready : Ready request (m.past c) o)
    (hex : exec x c o m.world = some (ans, w')) : CountInv (m.performed c o ans w') := by
  have hstep : Counted w' ∧ Succeeds m.world w' := by
    obtain rfl | ⟨-, ⟨user, rfl, rfl⟩ | ⟨a, rfl, rfl⟩⟩ := exec_cases hex
    · exact ⟨h.kept, succeeds_refl _⟩
    · exact ⟨h.kept.create (active_of_ready hready), succeeds_create _ user⟩
    · obtain ⟨userId, patch, read, now, hfound, rfl⟩ := updates_of_ready hready
      have hread := h.read c userId read ((Moment.mem_past ..).mp hfound)
      exact ⟨h.kept.update hread, succeeds_update hread⟩
  refine ⟨hstep.1, fun c' userId user hmem => ?_⟩
  obtain heq | hmem := List.mem_cons.mp hmem
  · cases heq
    obtain ⟨hstored, rfl⟩ := stored_of_getUser hex
    exact ⟨h.kept.keyed userId user hstored, user, hstored, le_rfl, fun _ => rfl⟩
  · exact (h.read c' userId user hmem).succeeds hstep.2

/-- The counters as an invariant of every run. -/
def countProtocol : Protocol semantics Ready where
  inv := CountInv
  allowed _ _ _ _ := True
  begins h _ := ⟨h.kept, fun c u user hmem => h.read c u user (by simpa using hmem)⟩
  performs h _ hready _ hex := h.performed hready hex
  ends h _ := ⟨h.kept, fun c u user hmem => h.read c u user (by simpa using hmem)⟩
  drifts {m k w} h hdrift := by
    obtain ⟨t⟩ := k
    unfold semantics drift at hdrift
    simp only [Option.ite_none_right_eq_some, Option.some.injEq] at hdrift
    obtain ⟨-, rfl⟩ := hdrift
    exact ⟨⟨h.kept.keyed, h.kept.counted⟩,
      fun c u user hmem => (h.read c u user hmem).succeeds (succeeds_refl _)⟩

/-- Every user has one status. -/
theorem tally_total (users : Table String User) :
    tally users .active + tally users .suspended + tally users .deleted =
      users.entries.length := by
  unfold tally Table.countWhere
  induction users.entries with
  | nil => rfl
  | cons e es ih =>
    beta_reduce at ih
    simp only [List.countP_cons, List.length_cons]
    cases e.2.status <;> simp <;> omega

/-- The counters are read as they are. -/
theorem countByStatus_of_counted (h : ∀ status, w.counts status = tally w.users status)
    (hfits : w.users.entries.length < 2 ^ 64) :
    w.countByStatus = .ok ((((∅ : Table String ℕ).insert "active" (tally w.users .active)).insert
      "suspended" (tally w.users .suspended)).insert "deleted" (tally w.users .deleted)) := by
  have htotal := tally_total w.users
  have hparse : ∀ status, parseCount (w.counts status) = .ok (tally w.users status) := by
    intro status
    have hle : tally w.users status < 2 ^ 64 := by cases status <;> omega
    rw [h, parseCount, if_neg (by omega), if_neg (by omega), Int.toNat_natCast]
  simp only [Directory.countByStatus, List.foldlM_cons, List.foldlM_nil, hparse]
  rfl

/-- **The counters are exact**: in every run, whatever calls race, fail or lose their answers,
each counter is the number of users with its status, and while there are fewer than `2 ^ 64` users
the dashboard shows these numbers and in total the number of users. -/
theorem counters_exact {clock : Instant} {as : List (Act Request Choice Drift)} {q : UsersPool}
    (hrun : users.Run System.anyStep (.start clock) as q) :
    (∀ status, q.world.counts status = tally q.world.users status) ∧
      (q.world.users.entries.length < 2 ^ 64 → ∃ counts, q.world.countByStatus = .ok counts ∧
        userStats counts =
          { total := q.world.users.entries.length, active := tally q.world.users .active,
            suspended := tally q.world.users .suspended,
            deleted := tally q.world.users .deleted }) := by
  have hcounted : ∀ status, q.world.counts status = tally q.world.users status :=
    (countProtocol.run serve_obeys (hrun.mono fun _ _ _ _ _ _ _ => trivial) (.initial _)
      ⟨.empty clock, (Inv.initial clock).read⟩).kept.counted
  refine ⟨hcounted, fun hfits => ⟨_, countByStatus_of_counted hcounted hfits, ?_⟩⟩
  rw [← tally_total]
  rfl

open Sample in
/-- A deleted user is taken back after its identity was registered again: the counters count. -/
theorem counters_exact_taken_back : ∃ as q, users.Run System.anyStep (.start 0) as q ∧
    q.world.counts .active = 2 ∧ tally q.world.users .active = 2 := by
  let as := creating 0 "idp" "alice" "usr_a" ++ writing 1 (.delete "usr_a") ++
    creating 2 "idp" "alice" "usr_b" ++ writing 3 (.update "usr_a" (setting .active))
  have hrun : (users.follow (.start 0) as).any (fun q => q.world.counts .active == 2) = true := by
    decide +kernel
  obtain ⟨q, hrun, htest⟩ := System.Run.of_follow_any hrun
  have hcounts : q.world.counts .active = 2 := by simpa using htest
  have htally := (counters_exact hrun).1 .active
  exact ⟨as, q, hrun, hcounts, by omega⟩

end DynamoUsers

end OidcExchange
