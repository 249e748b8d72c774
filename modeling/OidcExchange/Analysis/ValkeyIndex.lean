import OidcExchange.Adapters.Valkey

/-!
# The index sets on Valkey

Every live session is a member of its owner's set and of its family's set, unless its
store has written the hash and not yet the index. A revocation reads an index set once
and deletes what it names; as long as no session of the set is installed meanwhile, what
it has read covers every live session of the set, and dropping the set takes no live
session out of the index.
-/

set_option autoImplicit false

namespace OidcExchange

namespace Valkey

open Interleaving Storage

/-- The index sets a session belongs to; a session without a family is in one set. -/
def indexes (s : Session) : List Key :=
  .userSessions s.userId :: if s.familyId = "" then [] else [.family s.familyId]

/-- The index set a revocation works through. -/
def Request.index? : Request → Option Key
  | .revokeFamily f => some (.family f)
  | .revokeAllUserSessions u => some (.userSessions u)
  | _ => none

/-- The command creates, deletes or retires the session with this hash, or reads its
retirement record. -/
def Command.names : Command → String → Prop
  | .hset s, h => s.refreshTokenHash = h
  | .del keys, h => .session h ∈ keys
  | .eval a, h => a.liveHash = h ∨ a.replacement.refreshTokenHash = h
  | .hgetallRetired h', h => h' = h
  | _, _ => False

instance (o : Command) (h : String) : Decidable (o.names h) :=
  match o with
  | .hset s => inferInstanceAs (Decidable (s.refreshTokenHash = h))
  | .del keys => inferInstanceAs (Decidable (.session h ∈ keys))
  | .eval a => inferInstanceAs (Decidable (a.liveHash = h ∨ a.replacement.refreshTokenHash = h))
  | .hgetallRetired h' => inferInstanceAs (Decidable (h' = h))
  | .now | .expire .. | .expireNX .. | .expireGT .. | .sadd .. | .srem .. | .smembers _ | .scard _
  | .incr | .decrBy _ | .resetCounter | .hgetUserId _ | .scanRetired =>
    inferInstanceAs (Decidable False)

/-- The key of an index set. -/
def Key.IsIndex : Key → Prop
  | .family _ => True
  | .userSessions _ => True
  | _ => False

/-- The call has deleted the session with this hash. -/
def Deleted (past : List (Performed Ans)) (h : String) : Prop :=
  ∃ keys n, ⟨.del keys, .ok n⟩ ∈ past ∧ .session h ∈ keys

/-- What the past of a call contains when it performs a command. -/
def Ready (request : Request) (past : List (Performed Ans)) : Command → Prop
  | .hset s => request = .store s ∧ ∀ k h ans, ⟨.sadd k h, ans⟩ ∉ past
  | .srem _ h => Deleted past h ∨ ∃ r, ⟨.hgetallRetired h, .ok (some r)⟩ ∈ past
  | .del keys => ∀ k ∈ keys, k.IsIndex → keys = [k] ∧ request.index? = some k ∧
      (∀ ans, ⟨.del [k], ans⟩ ∉ past) ∧
        ∃ ids, ⟨.smembers k, .ok ids⟩ ∈ past ∧ ∀ h ∈ ids, Deleted past h
  | .smembers k => ∀ ans, ⟨.del [k], ans⟩ ∉ past
  | _ => True

/-- Some command has named the hash. -/
def Named (m : StoreMoment) (h : String) : Prop :=
  ∃ c, ∃ (o : Command) (ans : Ans o), .performed c o ans ∈ m.history ∧ o.names h

/-- The command makes the session live. -/
def Installs (ks : Keyspace) (o : Command) (s : Session) : Prop :=
  o = .hset s ∨ ∃ a live, o = .eval a ∧ a.replacement = s ∧ ks.swapped? a = some live

/-- The store of the session has written its hash and not its place in the index set. -/
def Unindexed (m : StoreMoment) (s : Session) (k : Key) : Prop :=
  ∃ c, ∃ ans : Answer Unit, .performed c (.hset s) ans ∈ m.history ∧
    .performed c (.sadd k s.refreshTokenHash) (.ok ()) ∉ m.history

/-- The store of the session has begun and has not ended. -/
def InFlight (m : StoreMoment) (s : Session) : Prop :=
  ∃ c, .began c (.store s) ∈ m.history ∧ .ended c ∉ m.history

/-- Call `c` revokes what the index set names, has read the members `ids` and has not
ended. -/
structure Sweeping (m : StoreMoment) (c : ℕ) (k : Key) (ids : List String) : Prop where
  asked : ∃ request, .began c request ∈ m.history ∧ request.index? = some k
  taken : .performed c (.smembers k) (.ok ids) ∈ m.history
  open_ : .ended c ∉ m.history

/-- Call `c` has dropped the index set. -/
def Dropped (m : StoreMoment) (c : ℕ) (k : Key) : Prop :=
  ∃ ans, .performed c (.del [k]) ans ∈ m.history

/-- No index set expires before a live session that it names. -/
def IndexKept (ks : Keyspace) : Prop :=
  ∀ h s k, ks.purge.sessions.lookup h = some s → k ∈ indexes s → h ∈ ks.sets.members k →
    h ∈ ks.purge.sets.members k

/-- What a command may do while revocations are under way. -/
structure NoneSlips (m : StoreMoment) (c : ℕ) (_x : Choice) (o : Command) : Prop where
  /-- A session is installed under a hash that no command has named. -/
  fresh : ∀ s, Installs m.world.purge o s → ¬ Named m s.refreshTokenHash
  kept : IndexKept m.world
  /-- A revocation reads its index set while no store of its sessions is in flight and none
  has ended half-way. -/
  settled : ∀ k s, o = .smembers k → k ∈ indexes s → ¬ InFlight m s ∧
    (m.world.purge.sessions.lookup s.refreshTokenHash = some s → ¬ Unindexed m s k)
  /-- No rotation installs a session while a revocation of it is under way. -/
  rotates : ∀ r k ids a live, Sweeping m r k ids → o = .eval a →
    m.world.purge.swapped? a = some live → k ∉ indexes a.replacement
  /-- A store goes on during a revocation of its session only once the set is dropped. -/
  stores : ∀ r k ids s, Sweeping m r k ids → o ≠ .now → .began c (.store s) ∈ m.history →
    k ∈ indexes s → Dropped m r k

/-- What holds of the sessions, the records and the index sets. -/
structure Indexed (m : StoreMoment) : Prop where
  keyed : ∀ h s, m.world.sessions.lookup h = some s → s.refreshTokenHash = h ∧ Named m h
  deleted : ∀ c keys n h, .performed c (.del keys) (.ok n) ∈ m.history → .session h ∈ keys →
    m.world.sessions.lookup h = none
  retired : ∀ h r, m.world.retired.lookup h = some r → Named m h ∧
    m.world.sessions.lookup h = none
  read : ∀ c h r, .performed c (.hgetallRetired h) (.ok (some r)) ∈ m.history →
    m.world.sessions.lookup h = none
  index : ∀ h s k, m.world.sessions.lookup h = some s → k ∈ indexes s →
    h ∈ m.world.sets.members k ∨ Unindexed m s k
  swept : ∀ c k ids h s, Sweeping m c k ids → ¬ Dropped m c k →
    m.world.sessions.lookup h = some s → k ∈ indexes s → h ∈ ids

/-! ## What one command does -/

section Keyspace

variable (ks : Keyspace) (k : Key) (n : ℕ)

@[simp] theorem expire_sessions : (ks.expire k n).sessions = ks.sessions := by
  unfold Keyspace.expire
  split <;> rfl

@[simp] theorem expire_retired : (ks.expire k n).retired = ks.retired := by
  unfold Keyspace.expire
  split <;> rfl

@[simp] theorem expire_sets : (ks.expire k n).sets = ks.sets := by
  unfold Keyspace.expire
  split <;> rfl

theorem expireNX_cases : ks.expireNX k n = ks ∨ ks.expireNX k n = ks.expire k n := by
  unfold Keyspace.expireNX
  split
  · exact .inr rfl
  · exact .inl rfl

theorem expireGT_cases : ks.expireGT k n = ks ∨ ks.expireGT k n = ks.expire k n := by
  unfold Keyspace.expireGT
  split
  · split
    · exact .inr rfl
    · exact .inl rfl
  · exact .inl rfl

theorem bumpTtl_cases : ks.bumpTtl k n = ks ∨ ks.bumpTtl k n = ks.expire k n := by
  unfold Keyspace.bumpTtl
  split
  · split
    · exact .inr rfl
    · exact .inl rfl
  · exact .inr rfl

@[simp] theorem bumpTtl_sessions : (ks.bumpTtl k n).sessions = ks.sessions := by
  rcases bumpTtl_cases ks k n with h | h <;> simp [h]

@[simp] theorem bumpTtl_retired : (ks.bumpTtl k n).retired = ks.retired := by
  rcases bumpTtl_cases ks k n with h | h <;> simp [h]

@[simp] theorem bumpTtl_sets : (ks.bumpTtl k n).sets = ks.sets := by
  rcases bumpTtl_cases ks k n with h | h <;> simp [h]

end Keyspace

variable {ks ks' : Keyspace} {k : Key} {h : String} {s : Session}

theorem delKey_lookup :
    (ks.delKey k).sessions.lookup h = if k = .session h then none else ks.sessions.lookup h := by
  cases k with
  | session h' =>
    change (ks.sessions.erase h').lookup h = _
    rw [Table.lookup_erase_ite]
    simp [eq_comm]
  | _ => simp [Keyspace.delKey]

theorem mem_delKey_of_ne {k' : Key} (hne : k' ≠ k) (hmem : h ∈ ks.sets.members k') :
    h ∈ (ks.delKey k).sets.members k' := by
  cases k with
  | family f => exact Sets.mem_members_erase.mpr ⟨hne, hmem⟩
  | userSessions u => exact Sets.mem_members_erase.mpr ⟨hne, hmem⟩
  | _ => exact hmem

theorem delKey_retired {r : RetiredRefreshToken}
    (hr : (ks.delKey k).retired.lookup h = some r) : ks.retired.lookup h = some r := by
  cases k with
  | retired h' =>
    change (ks.retired.erase h').lookup h = some r at hr
    rw [Table.lookup_erase_ite] at hr
    split at hr
    · exact absurd hr (by simp)
    · exact hr
  | _ => exact hr

theorem del_lookup {keys : List Key} : (ks.del keys).2.sessions.lookup h =
    if .session h ∈ keys then none else ks.sessions.lookup h := by
  unfold Keyspace.del
  induction keys generalizing ks with
  | nil => simp
  | cons k keys ih =>
    rw [List.foldl_cons, ih, delKey_lookup]
    by_cases hk : k = .session h
    · simp [hk]
    · have hne : ¬ Key.session h = k := fun heq => hk heq.symm
      simp [hk, hne]

theorem mem_del_of_notMem {keys : List Key} (hnot : k ∉ keys) (hmem : h ∈ ks.sets.members k) :
    h ∈ (ks.del keys).2.sets.members k := by
  unfold Keyspace.del
  induction keys generalizing ks with
  | nil => exact hmem
  | cons k' keys ih =>
    simp only [List.mem_cons, not_or] at hnot
    exact ih hnot.2 (mem_delKey_of_ne hnot.1 hmem)

theorem del_retired {keys : List Key} {r : RetiredRefreshToken}
    (hr : (ks.del keys).2.retired.lookup h = some r) : ks.retired.lookup h = some r := by
  unfold Keyspace.del at hr
  induction keys generalizing ks with
  | nil => exact hr
  | cons k keys ih => exact delKey_retired (ih hr)

/-- What a script that replaces `live` has checked. -/
theorem swapped?_eq_some {a : Rotation} {live : Session} (hs : ks.swapped? a = some live) :
    ks.sessions.lookup a.liveHash = some live ∧ live.userId = a.replacement.userId ∧
      ks.sessions.lookup a.replacement.refreshTokenHash = none := by
  simp only [Keyspace.swapped?, Option.filter_eq_some_iff, Bool.and_eq_true, beq_iff_eq,
    Keyspace.has] at hs
  exact ⟨hs.1, hs.2.1, by simpa using hs.2.2⟩

theorem swap_lookup (a : Rotation) (live : Session) : (ks.swap a live).sessions.lookup h =
    if h = a.replacement.refreshTokenHash then some a.replacement
    else if h = a.liveHash then none else ks.sessions.lookup h := by
  have hbefore : ((ks.delKey (.session a.liveHash)).srem (.userSessions a.replacement.userId)
      a.liveHash).sessions = ks.sessions.erase a.liveHash := rfl
  unfold Keyspace.swap
  by_cases hlegacy : live.familyId = ""
  · simp only [hlegacy, if_true, bumpTtl_sessions, Keyspace.sadd, expire_sessions, Keyspace.hset]
    rw [hbefore, Table.lookup_insert_ite, Table.lookup_erase_ite]
  · simp only [hlegacy, if_false, bumpTtl_sessions, Keyspace.sadd, expire_sessions, Keyspace.hset]
    rw [hbefore, Table.lookup_insert_ite, Table.lookup_erase_ite]

theorem swap_retired {a : Rotation} {live : Session} {r : RetiredRefreshToken}
    (hr : (ks.swap a live).retired.lookup h = some r) :
    ks.retired.lookup h = some r ∨ h = a.liveHash := by
  have hbefore : ((ks.delKey (.session a.liveHash)).srem (.userSessions a.replacement.userId)
      a.liveHash).retired = ks.retired := rfl
  unfold Keyspace.swap at hr
  by_cases hlegacy : live.familyId = ""
  · simp only [hlegacy, if_true, bumpTtl_retired, Keyspace.sadd, expire_retired,
      Keyspace.hset] at hr
    rw [hbefore] at hr
    exact .inl hr
  · simp only [hlegacy, if_false, bumpTtl_retired, Keyspace.sadd, expire_retired,
      Keyspace.hset] at hr
    rw [hbefore, Table.lookup_insert_ite] at hr
    split at hr
    · rename_i heq
      exact .inr heq
    · exact .inl hr

/-- A script that swaps indexes the replacement and takes only the old hash out. -/
theorem mem_swap {a : Rotation} {live : Session} (hmem : h ∈ ks.sets.members k)
    (hne : h ≠ a.liveHash) : h ∈ (ks.swap a live).sets.members k := by
  unfold Keyspace.swap
  by_cases hlegacy : live.familyId = "" <;>
    simp [hlegacy, Keyspace.sadd, Keyspace.hset, Keyspace.srem, Keyspace.delKey,
      Sets.mem_members_add, Sets.mem_members_discard, hmem, hne]

theorem mem_swap_replacement {a : Rotation} {live : Session} (hk : k ∈ indexes a.replacement) :
    a.replacement.refreshTokenHash ∈ (ks.swap a live).sets.members k := by
  have hcases : k = .userSessions a.replacement.userId ∨ k = .family a.replacement.familyId := by
    unfold indexes at hk
    split at hk <;> simp_all
  unfold Keyspace.swap
  rcases hcases with rfl | rfl <;> by_cases hlegacy : live.familyId = "" <;>
    simp [hlegacy, Keyspace.sadd, Sets.mem_members_add]

/-- The reply tells which members or record there are, that keys are deleted or that a
member is added. -/
def Tells : (o : Command) → Ans o → Prop
  | .smembers _, .ok _ => True
  | .hgetallRetired _, .ok _ => True
  | .del _, .ok _ => True
  | .sadd _ _, .ok _ => True
  | _, _ => False

/-- Everything a command can do to the sessions, the records and the sets. -/
inductive KeyStep (ks : Keyspace) : (o : Command) → Ans o → Keyspace → Prop
  | idle (o : Command) (ans : Ans o) (ks' : Keyspace) (hsessions : ks'.sessions = ks.sessions)
      (hretired : ks'.retired = ks.retired) (hsets : ks'.sets = ks.sets)
      (htells : ¬ Tells o ans) : KeyStep ks o ans ks'
  | members (k : Key) : KeyStep ks (.smembers k) (.ok (ks.sets.members k)) ks
  | record (h : String) : KeyStep ks (.hgetallRetired h) (.ok (ks.retired.lookup h)) ks
  | hset (s : Session) (ans : Answer Unit) : KeyStep ks (.hset s) ans (ks.hset s)
  | sadd (k : Key) (h : String) (ans : Answer Unit) : KeyStep ks (.sadd k h) ans (ks.sadd k h)
  | srem (k : Key) (h : String) (ans : Answer Unit) : KeyStep ks (.srem k h) ans (ks.srem k h)
  | del (keys : List Key) (ans : Answer ℕ) : KeyStep ks (.del keys) ans (ks.del keys).2
  | swap (a : Rotation) (live : Session) (ans : Answer Outcome)
      (hs : ks.swapped? a = some live) : KeyStep ks (.eval a) ans (ks.swap a live)

variable {c : ℕ} {x : Choice} {o : Command} {ans : Ans o} {m : StoreMoment}

theorem reply_cases {α : Type} {result : α × Keyspace} {ans : Answer α}
    (hr : reply x ks result = some (ans, ks')) :
    (∃ e, ans = .error e ∧ ks' = ks) ∨ ks' = result.2 ∧ (ans = .ok result.1 ∨ ∃ e, ans = .error e) := by
  cases x with
  | proceed =>
    obtain ⟨rfl, rfl⟩ := Prod.mk.inj (Option.some.inj hr)
    exact .inr ⟨rfl, .inl rfl⟩
  | fail e =>
    obtain ⟨rfl, rfl⟩ := Prod.mk.inj (Option.some.inj hr)
    exact .inl ⟨_, rfl, rfl⟩
  | lost e =>
    obtain ⟨rfl, rfl⟩ := Prod.mk.inj (Option.some.inj hr)
    exact .inr ⟨rfl, .inr ⟨_, rfl⟩⟩

/-- A script either changes nothing or swaps. -/
theorem rotate_cases (a : Rotation) : (ks.rotate a).2 = ks ∨
    ∃ live, ks.swapped? a = some live ∧ (ks.rotate a).2 = ks.swap a live := by
  unfold Keyspace.rotate Keyspace.swapped?
  cases ks.sessions.lookup a.liveHash with
  | none => exact .inl rfl
  | some live =>
    dsimp only
    split
    · exact .inl rfl
    · split
      · exact .inl rfl
      · rename_i huser htaken
        refine .inr ⟨live, ?_, rfl⟩
        simp_all

theorem keyStep_of_exec (hex : exec x c o ks = some (ans, ks')) :
    KeyStep ks.purge o ans ks' := by
  cases o with
  | now =>
    obtain ⟨rfl, rfl⟩ := Prod.mk.inj (Option.some.inj hex)
    exact .idle _ _ _ rfl rfl rfl id
  | hset s =>
    obtain ⟨e, rfl, rfl⟩ | ⟨rfl, -⟩ := reply_cases hex
    · exact .idle _ _ _ rfl rfl rfl id
    · exact .hset s _
  | expire k n =>
    obtain ⟨e, rfl, rfl⟩ | ⟨rfl, -⟩ := reply_cases hex
    · exact .idle _ _ _ rfl rfl rfl id
    · exact .idle _ _ _ (by simp) (by simp) (by simp) id
  | expireNX k n =>
    obtain ⟨e, rfl, rfl⟩ | ⟨rfl, -⟩ := reply_cases hex
    · exact .idle _ _ _ rfl rfl rfl id
    · rcases expireNX_cases ks.purge k n with heq | heq <;>
        exact .idle _ _ _ (by simp [heq]) (by simp [heq]) (by simp [heq]) id
  | expireGT k n =>
    obtain ⟨e, rfl, rfl⟩ | ⟨rfl, -⟩ := reply_cases hex
    · exact .idle _ _ _ rfl rfl rfl id
    · rcases expireGT_cases ks.purge k n with heq | heq <;>
        exact .idle _ _ _ (by simp [heq]) (by simp [heq]) (by simp [heq]) id
  | sadd k h =>
    obtain ⟨e, rfl, rfl⟩ | ⟨rfl, -⟩ := reply_cases hex
    · exact .idle _ _ _ rfl rfl rfl id
    · exact .sadd k h _
  | srem k h =>
    obtain ⟨e, rfl, rfl⟩ | ⟨rfl, -⟩ := reply_cases hex
    · exact .idle _ _ _ rfl rfl rfl id
    · exact .srem k h _
  | smembers k =>
    obtain ⟨e, rfl, rfl⟩ | ⟨rfl, rfl | ⟨e, rfl⟩⟩ := reply_cases hex
    · exact .idle _ _ _ rfl rfl rfl id
    · exact .members k
    · exact .idle _ _ _ rfl rfl rfl id
  | scard k =>
    obtain ⟨e, rfl, rfl⟩ | ⟨rfl, -⟩ := reply_cases hex <;> exact .idle _ _ _ rfl rfl rfl id
  | incr =>
    obtain ⟨e, rfl, rfl⟩ | ⟨rfl, -⟩ := reply_cases hex <;> exact .idle _ _ _ rfl rfl rfl id
  | decrBy n =>
    obtain ⟨e, rfl, rfl⟩ | ⟨rfl, -⟩ := reply_cases hex <;> exact .idle _ _ _ rfl rfl rfl id
  | resetCounter =>
    obtain ⟨e, rfl, rfl⟩ | ⟨rfl, -⟩ := reply_cases hex <;> exact .idle _ _ _ rfl rfl rfl id
  | hgetUserId h =>
    obtain ⟨e, rfl, rfl⟩ | ⟨rfl, -⟩ := reply_cases hex <;> exact .idle _ _ _ rfl rfl rfl id
  | hgetallRetired h =>
    obtain ⟨e, rfl, rfl⟩ | ⟨rfl, rfl | ⟨e, rfl⟩⟩ := reply_cases hex
    · exact .idle _ _ _ rfl rfl rfl id
    · exact .record h
    · exact .idle _ _ _ rfl rfl rfl id
  | scanRetired =>
    obtain ⟨e, rfl, rfl⟩ | ⟨rfl, -⟩ := reply_cases hex <;> exact .idle _ _ _ rfl rfl rfl id
  | del keys =>
    obtain ⟨e, rfl, rfl⟩ | ⟨rfl, -⟩ := reply_cases hex
    · exact .idle _ _ _ rfl rfl rfl id
    · exact .del keys _
  | eval a =>
    obtain ⟨e, rfl, rfl⟩ | ⟨rfl, -⟩ := reply_cases hex
    · exact .idle _ _ _ rfl rfl rfl id
    · have hcases : (ks.purge.rotate a).2 = ks.purge ∨ ∃ live, ks.purge.swapped? a = some live ∧
          (ks.purge.rotate a).2 = ks.purge.swap a live := rotate_cases a
      obtain heq | ⟨live, hs, heq⟩ := hcases
      · rw [heq]
        exact .idle _ _ _ rfl rfl rfl id
      · rw [heq]
        exact .swap a live _ hs

section KeyStep

/-- A session is live that was live before or is installed. -/
theorem KeyStep.lookup (hstep : KeyStep ks o ans ks') (hs : ks'.sessions.lookup h = some s) :
    ks.sessions.lookup h = some s ∨ o = .hset s ∧ h = s.refreshTokenHash ∨
      ∃ a live, o = .eval a ∧ a.replacement = s ∧ ks.swapped? a = some live ∧
        h = s.refreshTokenHash ∧ ∀ k ∈ indexes s, h ∈ ks'.sets.members k := by
  cases hstep with
  | idle _ _ _ hsessions => exact .inl (hsessions ▸ hs)
  | members | record | sadd | srem => exact .inl hs
  | hset t =>
    change (ks.sessions.insert t.refreshTokenHash t).lookup h = some s at hs
    rw [Table.lookup_insert_ite] at hs
    split at hs
    · obtain rfl := Option.some.inj hs
      exact .inr (.inl ⟨rfl, by assumption⟩)
    · exact .inl hs
  | del keys =>
    rw [del_lookup] at hs
    split at hs
    · exact absurd hs (by simp)
    · exact .inl hs
  | swap a live _ hswapped =>
    rw [swap_lookup] at hs
    split at hs
    · rename_i heq
      obtain rfl := Option.some.inj hs
      exact .inr (.inr ⟨a, live, rfl, rfl, hswapped, heq, fun k hk => heq ▸ mem_swap_replacement hk⟩)
    · split at hs
      · exact absurd hs (by simp)
      · exact .inl hs

theorem KeyStep.installs (hstep : KeyStep ks o ans ks') (hs : ks'.sessions.lookup h = some s) :
    ks.sessions.lookup h = some s ∨ Installs ks o s ∧ h = s.refreshTokenHash := by
  obtain hold | ⟨ho, hh⟩ | ⟨a, live, ho, ha, hswapped, hh, -⟩ := hstep.lookup hs
  · exact .inl hold
  · exact .inr ⟨.inl ho, hh⟩
  · exact .inr ⟨.inr ⟨a, live, ho, ha, hswapped⟩, hh⟩

theorem KeyStep.lookup_del {keys : List Key} {n : ℕ} (hstep : KeyStep ks (.del keys) (.ok n) ks')
    (hmem : .session h ∈ keys) : ks'.sessions.lookup h = none := by
  cases hstep with
  | idle _ _ _ _ _ _ htells => exact absurd trivial htells
  | del => simp [del_lookup, hmem]

/-- The hash a script replaces is not live afterwards. -/
theorem swap_lookup_live {a : Rotation} {live : Session} (hs : ks.swapped? a = some live) :
    (ks.swap a live).sessions.lookup a.liveHash = none := by
  obtain ⟨hlive, -, hnew⟩ := swapped?_eq_some hs
  have hne : a.liveHash ≠ a.replacement.refreshTokenHash := by
    intro heq
    rw [heq, hnew] at hlive
    exact absurd hlive (by simp)
  simp [swap_lookup, hne]

theorem KeyStep.retired {r : RetiredRefreshToken} (hstep : KeyStep ks o ans ks')
    (hr : ks'.retired.lookup h = some r) : ks.retired.lookup h = some r ∨
      ∃ a, o = .eval a ∧ h = a.liveHash ∧ ks'.sessions.lookup h = none := by
  cases hstep with
  | idle _ _ _ _ hretired => exact .inl (hretired ▸ hr)
  | members | record | hset | sadd | srem => exact .inl hr
  | del keys => exact .inl (del_retired hr)
  | swap a live _ hswapped =>
    obtain hold | rfl := swap_retired hr
    · exact .inl hold
    · exact .inr ⟨a, rfl, rfl, swap_lookup_live hswapped⟩

/-- A hash that is live stays in a set, unless it is taken out or the set is dropped. -/
theorem KeyStep.member (hstep : KeyStep ks o ans ks') (hmem : h ∈ ks.sets.members k)
    (hs : ks'.sessions.lookup h = some s) : h ∈ ks'.sets.members k ∨ o = .srem k h ∨
      ∃ keys, o = .del keys ∧ k ∈ keys := by
  cases hstep with
  | idle _ _ _ _ _ hsets => exact .inl (hsets ▸ hmem)
  | members | record | hset => exact .inl hmem
  | sadd k' h' => exact .inl (Sets.mem_members_add.mpr (.inl hmem))
  | srem k' h' =>
    by_cases heq : k = k' ∧ h = h'
    · obtain ⟨rfl, rfl⟩ := heq
      exact .inr (.inl rfl)
    · exact .inl (Sets.mem_members_discard.mpr ⟨hmem, heq⟩)
  | del keys =>
    by_cases hk : k ∈ keys
    · exact .inr (.inr ⟨keys, rfl, hk⟩)
    · exact .inl (mem_del_of_notMem hk hmem)
  | swap a live _ hswapped =>
    refine .inl (mem_swap hmem ?_)
    rintro rfl
    rw [swap_lookup_live hswapped] at hs
    exact absurd hs (by simp)

theorem KeyStep.member_sadd (hstep : KeyStep ks (.sadd k h) (.ok ()) ks') :
    h ∈ ks'.sets.members k := by
  cases hstep with
  | idle _ _ _ _ _ _ htells => exact absurd trivial htells
  | sadd => exact Sets.mem_members_add.mpr (.inr ⟨rfl, rfl⟩)

theorem KeyStep.members_eq {ids : List String} (hstep : KeyStep ks (.smembers k) (.ok ids) ks') :
    ids = ks.sets.members k := by
  cases hstep with
  | idle _ _ _ _ _ _ htells => exact absurd trivial htells
  | members => rfl

theorem KeyStep.record_eq {r : Option RetiredRefreshToken}
    (hstep : KeyStep ks (.hgetallRetired h) (.ok r) ks') : r = ks.retired.lookup h := by
  cases hstep with
  | idle _ _ _ _ _ _ htells => exact absurd trivial htells
  | record => rfl

end KeyStep

/-! ## The invariant -/

theorem Named.performed {w : Keyspace} (hn : Named m h) : Named (m.performed c o ans w) h := by
  obtain ⟨d, o', ans', hmem, hnames⟩ := hn
  exact ⟨d, o', ans', List.mem_cons_of_mem _ hmem, hnames⟩

theorem named_performed {w : Keyspace} (hnames : o.names h) : Named (m.performed c o ans w) h :=
  ⟨c, o, ans, List.mem_cons_self .., hnames⟩

theorem isIndex_of_mem (hk : k ∈ indexes s) : k.IsIndex := by
  unfold indexes at hk
  split at hk <;> simp at hk
  · exact hk ▸ trivial
  · rcases hk with rfl | rfl <;> trivial

/-- A hash that has been named and is not live does not become live. -/
theorem dead_performed {w : Keyspace} (hfresh : ∀ s, Installs ks o s → ¬ Named m s.refreshTokenHash)
    (hstep : KeyStep ks o ans w) (hn : Named m h) (hdead : ks.sessions.lookup h = none) :
    w.sessions.lookup h = none := by
  cases hw : w.sessions.lookup h with
  | none => rfl
  | some s =>
    obtain hold | ⟨hinstalls, rfl⟩ := hstep.installs hw
    · rw [hdead] at hold
      exact absurd hold (by simp)
    · exact absurd hn (hfresh s hinstalls)

/-- Dropping the keys whose deadline has passed keeps the invariant. -/
theorem Indexed.purge (hi : Indexed m) (hkept : IndexKept m.world) :
    Indexed (m.drifted m.world.purge) := by
  have hlive : ∀ {h s}, m.world.purge.sessions.lookup h = some s →
      m.world.sessions.lookup h = some s := fun hs =>
    (Table.lookup_deleteWhere_eq_some.mp hs).1
  have hdead : ∀ {h}, m.world.sessions.lookup h = none →
      m.world.purge.sessions.lookup h = none := fun hs =>
    Table.lookup_deleteWhere_eq_none _ hs
  constructor
  · exact fun h s hs => hi.keyed h s (hlive hs)
  · exact fun c keys n h hmem hk => hdead (hi.deleted c keys n h hmem hk)
  · intro h r hr
    obtain ⟨hn, hnone⟩ := hi.retired h r (Table.lookup_deleteWhere_eq_some.mp hr).1
    exact ⟨hn, hdead hnone⟩
  · exact fun c h r hmem => hdead (hi.read c h r hmem)
  · intro h s k hs hk
    exact (hi.index h s k (hlive hs) hk).imp (hkept h s k hs hk) id
  · intro c k ids h s hsweeping hdropped hs hk
    exact hi.swept c k ids h s ⟨hsweeping.asked, hsweeping.taken, hsweeping.open_⟩ hdropped
      (hlive hs) hk

theorem names_of_installs (hi : Installs ks o s) : o.names s.refreshTokenHash := by
  obtain rfl | ⟨a, live, rfl, rfl, -⟩ := hi
  · rfl
  · exact .inr rfl

/-- A hash that the call has deleted, or whose retirement record it has read, is not live. -/
theorem Indexed.gone (hi : Indexed m) (hremoved : Deleted (m.past c) h ∨
    ∃ r, ⟨.hgetallRetired h, .ok (some r)⟩ ∈ m.past c) : m.world.sessions.lookup h = none := by
  obtain ⟨keys, n, hmem, hk⟩ | ⟨r, hmem⟩ := hremoved
  · exact hi.deleted c keys n h ((Moment.mem_past ..).mp hmem) hk
  · exact hi.read c h r ((Moment.mem_past ..).mp hmem)

/-- When a call drops an index set, no session of the set is live. -/
theorem Indexed.dropping (hi : Indexed m) {request : Request} {keys : List Key}
    (hrunning : m.Running c request) (hready : Ready request (m.past c) (.del keys))
    (hmem : k ∈ keys) (hk : k ∈ indexes s) : m.world.sessions.lookup h ≠ some s := by
  intro hs
  obtain ⟨-, hrequest, hfirst, ids, htaken, hdeleted⟩ := hready k hmem (isIndex_of_mem hk)
  have hsweeping : Sweeping m c k ids :=
    ⟨⟨request, (hrunning.asked request).mpr rfl, hrequest⟩, (Moment.mem_past ..).mp htaken,
      hrunning.open_⟩
  have hnot : ¬ Dropped m c k := by
    rintro ⟨ans, hdropped⟩
    exact hfirst ans ((Moment.mem_past ..).mpr hdropped)
  have hgone := hi.gone (.inl (hdeleted h (hi.swept c k ids h s hsweeping hnot hs hk)))
  rw [hgone] at hs
  exact absurd hs (by simp)

/-- A store that has yet to index its session has yet to after another command, unless the
command indexes it. -/
theorem Unindexed.performed {w : Keyspace} (hu : Unindexed m s k) :
    Unindexed (m.performed c o ans w) s k ∨
      (⟨o, ans⟩ : Performed Ans) = ⟨.sadd k s.refreshTokenHash, .ok ()⟩ := by
  obtain ⟨d, ans', hmem, hnot⟩ := hu
  by_cases hadds : (⟨o, ans⟩ : Performed Ans) = ⟨.sadd k s.refreshTokenHash, .ok ()⟩
  · exact .inr hadds
  · refine .inl ⟨d, ans', List.mem_cons_of_mem _ hmem, fun hadded => ?_⟩
    rcases List.mem_cons.mp hadded with heq | hadded
    · cases heq
      exact hadds rfl
    · exact hnot hadded

/-- Every command that lets nothing slip keeps the index. -/
theorem Indexed.performs (hi : Indexed m) {request : Request} {w : Keyspace}
    (hrunning : m.Running c request) (hready : Ready request (m.past c) o)
    (hmeets : NoneSlips m c x o) (hex : exec x c o m.world = some (ans, w)) :
    Indexed (m.performed c o ans w) := by
  have hp := hi.purge hmeets.kept
  have hstep := keyStep_of_exec hex
  have hdead : ∀ {h}, Named m h → m.world.purge.sessions.lookup h = none →
      w.sessions.lookup h = none := fun hn hnone => dead_performed hmeets.fresh hstep hn hnone
  constructor
  · -- keyed
    intro h s hs
    obtain hold | ⟨hinstalls, rfl⟩ := hstep.installs hs
    · exact ⟨(hp.keyed h s hold).1, (hp.keyed h s hold).2.performed⟩
    · exact ⟨rfl, named_performed (names_of_installs hinstalls)⟩
  · -- deleted
    intro d keys n h hmem hk
    rcases List.mem_cons.mp hmem with heq | hmem
    · cases heq
      exact hstep.lookup_del hk
    · exact hdead ⟨d, _, _, hmem, hk⟩ (hp.deleted d keys n h hmem hk)
  · -- retired
    intro h r hr
    obtain hold | ⟨a, rfl, rfl, hnone⟩ := hstep.retired hr
    · obtain ⟨hn, hnone⟩ := hp.retired h r hold
      exact ⟨hn.performed, hdead hn hnone⟩
    · exact ⟨named_performed (.inl rfl), hnone⟩
  · -- read
    intro d h r hmem
    rcases List.mem_cons.mp hmem with heq | hmem
    · cases heq
      obtain ⟨hn, hnone⟩ := hp.retired h r hstep.record_eq.symm
      exact hdead hn hnone
    · exact hdead ⟨d, _, _, hmem, rfl⟩ (hp.read d h r hmem)
  · -- index
    intro h s k hs hk
    obtain hold | ⟨rfl, rfl⟩ | ⟨a, live, rfl, rfl, -, -, hmembers⟩ := hstep.lookup hs
    · obtain hmem | hunindexed := hp.index h s k hold hk
      · obtain hmem | rfl | ⟨keys, rfl, hkeys⟩ := hstep.member hmem hs
        · exact .inl hmem
        · -- a hash is taken out only when it is not live
          have hgone : m.world.purge.sessions.lookup h = none := hp.gone (c := c) hready
          rw [hgone] at hold
          exact absurd hold (by simp)
        · exact absurd hold (hp.dropping ⟨hrunning.asked, hrunning.open_⟩ hready hkeys hk)
      · obtain hunindexed | hadds := Unindexed.performed (c := c) (w := w) hunindexed
        · exact .inr hunindexed
        · obtain ⟨rfl, hans⟩ := Sigma.mk.inj hadds
          obtain rfl := eq_of_heq hans
          rw [← (hp.keyed h s hold).1]
          exact .inl hstep.member_sadd
    · refine .inr ⟨c, ans, List.mem_cons_self .., fun hadded => ?_⟩
      rcases List.mem_cons.mp hadded with heq | hadded
      · cases heq
      · exact hready.2 _ _ _ ((Moment.mem_past ..).mpr hadded)
    · exact .inl (hmembers k hk)
  · -- swept
    intro d k ids h s hsweeping hnot hs hk
    have hopen : .ended d ∉ m.history := by simpa using hsweeping.open_
    obtain ⟨asked, hbegan, hindex⟩ := hsweeping.asked
    have hbegan : .began d asked ∈ m.history := by simpa using hbegan
    rcases List.mem_cons.mp hsweeping.taken with heq | htaken
    · -- the members are read by this command
      cases heq
      obtain hold | ⟨ho, -⟩ | ⟨a, live, ho, -⟩ := hstep.lookup hs
      · obtain ⟨-, hsettled⟩ := hmeets.settled k s rfl hk
        have hhash := (hp.keyed h s hold).1
        obtain hmem | hunindexed := hp.index h s k hold hk
        · rw [hstep.members_eq]
          exact hmem
        · exact absurd hunindexed (hsettled (hhash ▸ hold))
      · exact absurd ho (by simp)
      · exact absurd ho (by simp)
    · have hbefore : Sweeping m d k ids := ⟨⟨asked, hbegan, hindex⟩, htaken, hopen⟩
      have hnot' : ¬ Dropped m d k := fun ⟨ans', hmem⟩ =>
        hnot ⟨ans', List.mem_cons_of_mem _ hmem⟩
      obtain hold | ⟨rfl, rfl⟩ | ⟨a, live, rfl, rfl, hswapped, -⟩ := hstep.lookup hs
      · exact hp.swept d k ids h s ⟨⟨asked, hbegan, hindex⟩, htaken, hopen⟩ hnot' hold hk
      · refine absurd (hmeets.stores d k ids s hbefore (by simp) ?_ hk) hnot'
        exact (hrunning.asked _).mpr hready.1.symm
      · exact absurd hk (hmeets.rotates d k ids a live hbefore rfl hswapped)

end Valkey

end OidcExchange
