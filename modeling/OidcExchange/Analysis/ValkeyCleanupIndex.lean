import OidcExchange.Analysis.ValkeyCleanupFlow

/-!
# The index sets on Valkey beside cleanup

Cleanup takes a member out of an index set only when its session is gone for good, so the members
it takes out are not live. The set it drops may have gained a live one since it was counted; as
long as none is dropped that way, every live session stays indexed and the next revocation finds
it.
-/

set_option autoImplicit false

namespace OidcExchange

namespace Valkey

namespace Cleanup

open Interleaving Storage

/-! ## What one command does -/

section Steps

variable {ks ks' : Keyspace} {h h' : String} {k k' : Key} {s : Session}

@[simp] theorem srem_sessions : (ks.srem k h).sessions = ks.sessions := rfl

@[simp] theorem srem_retired : (ks.srem k h).retired = ks.retired := rfl

theorem foldl_srem_data (hs : List String) :
    (hs.foldl (·.srem k) ks).sessions = ks.sessions ∧
      (hs.foldl (·.srem k) ks).retired = ks.retired := by
  induction hs generalizing ks with
  | nil => exact ⟨rfl, rfl⟩
  | cons h hs ih =>
    obtain ⟨hsessions, hretired⟩ := @ih (ks.srem k h)
    exact ⟨hsessions, hretired⟩

theorem mem_foldl_srem (hs : List String) : h ∈ (hs.foldl (·.srem k) ks).sets.members k' ↔
    h ∈ ks.sets.members k' ∧ ¬ (k' = k ∧ h ∈ hs) := by
  induction hs generalizing ks with
  | nil => simp
  | cons h₁ hs ih =>
    rw [List.foldl_cons, ih, Keyspace.srem, Sets.mem_members_discard, List.mem_cons]
    by_cases hk : k' = k <;> by_cases hh : h = h₁ <;> simp [hk, hh]

/-- Everything a command can do to the sessions, the records and the sets. -/
inductive SweepStep (ks : Keyspace) : (o : SweepCommand) → SweepAns o → Keyspace → Prop
  | write {o : Command} {ans : Ans o} {ks' : Keyspace} (hstep : KeyStep ks o ans ks') :
      SweepStep ks (.write o) ans ks'
  | idle (o : SweepCommand) (ans : SweepAns o) (ks' : Keyspace)
      (hsessions : ks'.sessions = ks.sessions) (hretired : ks'.retired = ks.retired)
      (hsets : ks'.sets = ks.sets) (hwrite : ∀ o', o ≠ .write o')
      (hprobe : ∀ h, (⟨o, ans⟩ : Performed SweepAns) ≠ ⟨.probe (.session h), .ok false⟩) :
      SweepStep ks o ans ks'
  | absent (h : String) (hnone : ks.sessions.lookup h = none) :
      SweepStep ks (.probe (.session h)) (.ok false) ks
  | sremAll (k : Key) (hs : List String) (ans : Answer ℕ) :
      SweepStep ks (.sremAll k hs) ans (hs.foldl (·.srem k) ks)

theorem sweepStep_of_exec {x : SweepChoice} {c : ℕ} {o : SweepCommand} {ans : SweepAns o}
    (hex : sweepExec x c o ks = some (ans, ks')) : SweepStep ks.purge o ans ks' := by
  have hidle : ∀ {o : SweepCommand} {ans : SweepAns o} {ks' : Keyspace}, (∀ o', o ≠ .write o') →
      (∀ k, o ≠ .probe k) → ks'.sessions = ks.purge.sessions → ks'.retired = ks.purge.retired →
      ks'.sets = ks.purge.sets → SweepStep ks.purge o ans ks' :=
    fun hwrite hprobe hsessions hretired hsets => .idle _ _ _ hsessions hretired hsets hwrite
      fun h heq => hprobe (.session h) (Sigma.mk.inj heq).1
  have hgather : ∀ {ans : Answer (List String)}, gather x ks.purge = some (ans, ks') →
      ks' = ks.purge := by
    intro ans hgathered
    unfold gather at hgathered
    split at hgathered
    · exact (Prod.mk.inj (Option.some.inj hgathered)).2.symm
    · exact (Prod.mk.inj (Option.some.inj hgathered)).2.symm
    · cases hgathered
  cases o with
  | write o =>
    cases x with
    | write x => exact .write (keyStep_of_exec (c := c) hex)
    | gathered names => exact absurd hex (by simp [sweepExec])
  | scanUserSets | scanFamilySets | scanSessions =>
    obtain rfl := hgather hex
    exact hidle (by simp) (by simp) rfl rfl rfl
  | probe k =>
    cases x with
    | gathered names => exact absurd hex (by simp [sweepExec])
    | write x =>
      have hfailed : ∀ {e : Fault Error},
          SweepStep ks.purge (.probe k) (.error e : Answer Bool) ks.purge := fun {e} =>
        .idle _ _ _ rfl rfl rfl (by simp) fun h heq => by cases heq
      obtain ⟨e, rfl, rfl⟩ | ⟨rfl, rfl | ⟨e, rfl⟩⟩ := reply_cases hex
      · exact hfailed
      · dsimp only
        by_cases hhas : ks.purge.has k = true
        · rw [hhas]
          exact .idle _ _ _ rfl rfl rfl (by simp) fun h heq => by cases heq
        · have hfalse : ks.purge.has k = false := by simpa using hhas
          rw [hfalse]
          cases k with
          | session h =>
            refine .absent h ?_
            simpa [Keyspace.has] using hfalse
          | _ => exact .idle _ _ _ rfl rfl rfl (by simp) fun h heq => by cases heq
      · exact hfailed
  | sremAll k hs =>
    cases x with
    | gathered names => exact absurd hex (by simp [sweepExec])
    | write x =>
      obtain ⟨e, rfl, rfl⟩ | ⟨rfl, -⟩ := reply_cases hex
      · exact hidle (by simp) (by simp) rfl rfl rfl
      · exact .sremAll k hs _
  | setCounter n =>
    cases x with
    | gathered names => exact absurd hex (by simp [sweepExec])
    | write x =>
      obtain ⟨e, rfl, rfl⟩ | ⟨rfl, -⟩ := reply_cases hex <;>
        exact hidle (by simp) (by simp) rfl rfl rfl
  | getCounter =>
    cases x with
    | gathered names => exact absurd hex (by simp [sweepExec])
    | write x =>
      cases x with
      | proceed =>
        simp only [sweepExec, Keyspace.getCounter] at hex
        split at hex
        · obtain ⟨rfl, rfl⟩ := Prod.mk.inj (Option.some.inj hex)
          exact hidle (by simp) (by simp) rfl rfl rfl
        · exact absurd hex (by simp)
      | fail e =>
        obtain ⟨rfl, rfl⟩ := Prod.mk.inj (Option.some.inj hex)
        exact hidle (by simp) (by simp) rfl rfl rfl
      | lost e =>
        obtain ⟨rfl, rfl⟩ := Prod.mk.inj (Option.some.inj hex)
        exact hidle (by simp) (by simp) rfl rfl rfl

end Steps

/-! ## The invariant -/

/-- The command creates, deletes, retires or indexes the session with this hash, or reads its
retirement record. -/
def Mentions : SweepCommand → String → Prop
  | .write (.sadd _ h'), h => h' = h
  | .write o, h => o.names h
  | _, _ => False

/-- Some command has mentioned the hash. -/
def Mentioned (m : SweepMoment) (h : String) : Prop :=
  ∃ c, ∃ (o : SweepCommand) (ans : SweepAns o), .performed c o ans ∈ m.history ∧ Mentions o h

/-- The hash has been mentioned and has no session. -/
def Gone (m : SweepMoment) (h : String) : Prop :=
  Mentioned m h ∧ m.world.sessions.lookup h = none

/-- The store of the session has written its hash and not its place in the index set. -/
def Missing (m : SweepMoment) (s : Session) (k : Key) : Prop :=
  ∃ c, ∃ ans : Answer Unit, .performed c (.write (.hset s)) ans ∈ m.history ∧
    .performed c (.write (.sadd k s.refreshTokenHash)) (.ok ()) ∉ m.history

/-- What a command may do beside cleanup. -/
structure NoneHidden (m : SweepMoment) (_c : ℕ) (_x : SweepChoice) (o : SweepCommand) : Prop where
  /-- A session is installed under a hash that no command has mentioned. -/
  fresh : ∀ s o', o = .write o' → Installs m.world.purge o' s → ¬ Mentioned m s.refreshTokenHash
  kept : IndexKept m.world
  /-- An index set is deleted only when it names no live session. -/
  dropped : ∀ keys k h, o = .write (.del keys) → k ∈ keys → k.IsIndex →
    h ∈ m.world.purge.sets.members k → m.world.purge.sessions.lookup h = none

/-- What holds of the sessions, the records and the index sets. -/
structure Filed (m : SweepMoment) : Prop where
  keyed : ∀ h s, m.world.sessions.lookup h = some s → s.refreshTokenHash = h ∧ Mentioned m h
  members : ∀ k h, h ∈ m.world.sets.members k → Mentioned m h
  seen : ∀ c k ids h, .performed c (.write (.smembers k)) (.ok ids) ∈ m.history → h ∈ ids →
    Mentioned m h
  probed : ∀ c h, .performed c (.probe (.session h)) (.ok false) ∈ m.history → Gone m h
  deleted : ∀ c keys n h, .performed c (.write (.del keys)) (.ok n) ∈ m.history →
    .session h ∈ keys → Gone m h
  retired : ∀ h r, m.world.retired.lookup h = some r → Gone m h
  read : ∀ c h r, .performed c (.write (.hgetallRetired h)) (.ok (some r)) ∈ m.history → Gone m h
  stored : ∀ c s ans, .performed c (.write (.hset s)) ans ∈ m.history →
    .began c (.write (.store s)) ∈ m.history
  index : ∀ h s k, m.world.sessions.lookup h = some s → k ∈ indexes s →
    h ∈ m.world.sets.members k ∨ Missing m s k

section Invariant

variable {m : SweepMoment} {c : ℕ} {x : SweepChoice} {o : SweepCommand} {ans : SweepAns o}
  {ks ks' w : Keyspace} {h : String} {k : Key} {s : Session}

theorem Mentioned.performed (hn : Mentioned m h) : Mentioned (m.performed c o ans w) h := by
  obtain ⟨d, o', ans', hmem, hmentions⟩ := hn
  exact ⟨d, o', ans', List.mem_cons_of_mem _ hmem, hmentions⟩

theorem mentioned_performed (hmentions : Mentions o h) : Mentioned (m.performed c o ans w) h :=
  ⟨c, o, ans, List.mem_cons_self .., hmentions⟩

theorem mentions_of_names {o : Command} (hnames : o.names h) : Mentions (.write o) h := by
  cases o with
  | sadd k h' => exact absurd hnames id
  | _ => exact hnames

/-- A session that is live after a command was live before, or the command installs it. -/
theorem SweepStep.lookup (hstep : SweepStep ks o ans ks') (hs : ks'.sessions.lookup h = some s) :
    ks.sessions.lookup h = some s ∨
      ∃ o', o = .write o' ∧ Installs ks o' s ∧ h = s.refreshTokenHash := by
  cases hstep with
  | write hstep =>
    obtain hold | ⟨hinstalls, hh⟩ := hstep.installs hs
    · exact .inl hold
    · exact .inr ⟨_, rfl, hinstalls, hh⟩
  | idle _ _ _ hsessions => exact .inl (hsessions ▸ hs)
  | absent => exact .inl hs
  | sremAll k hs' =>
    rw [(foldl_srem_data hs').1] at hs
    exact .inl hs

/-- A hash that is gone stays gone. -/
theorem Gone.performed (hg : Gone (m.drifted m.world.purge) h) (hmeets : NoneHidden m c x o)
    (hstep : SweepStep m.world.purge o ans w) : Gone (m.performed c o ans w) h := by
  refine ⟨Mentioned.performed (m := m) hg.1, ?_⟩
  show w.sessions.lookup h = none
  cases hw : w.sessions.lookup h with
  | none => rfl
  | some s =>
    obtain hold | ⟨o', rfl, hinstalls, rfl⟩ := hstep.lookup hw
    · exact absurd (hold.symm.trans hg.2) (by simp)
    · exact absurd hg.1 (hmeets.fresh s o' rfl hinstalls)

/-- Dropping the keys whose deadline has passed keeps the invariant. -/
theorem Filed.purge (hi : Filed m) (hkept : IndexKept m.world) :
    Filed (m.drifted m.world.purge) := by
  have hlive : ∀ {h s}, m.world.purge.sessions.lookup h = some s →
      m.world.sessions.lookup h = some s := fun hs => (Table.lookup_deleteWhere_eq_some.mp hs).1
  have hgone : ∀ {h}, Gone m h → Gone (m.drifted m.world.purge) h := fun hg =>
    ⟨hg.1, Table.lookup_deleteWhere_eq_none _ hg.2⟩
  constructor
  · exact fun h s hs => hi.keyed h s (hlive hs)
  · intro k h hmem
    refine hi.members k h ?_
    have hmem : h ∈ m.world.purge.sets.members k := hmem
    unfold Sets.members at hmem ⊢
    cases hl : m.world.purge.sets.lookup k with
    | none => simp [hl] at hmem
    | some ids =>
      rw [hl] at hmem
      rw [(Table.lookup_deleteWhere_eq_some.mp hl).1]
      exact hmem
  · exact hi.seen
  · exact fun c h hmem => hgone (hi.probed c h hmem)
  · exact fun c keys n h hmem hk => hgone (hi.deleted c keys n h hmem hk)
  · exact fun h r hr => hgone (hi.retired h r (Table.lookup_deleteWhere_eq_some.mp hr).1)
  · exact fun c h r hmem => hgone (hi.read c h r hmem)
  · exact hi.stored
  · intro h s k hs hk
    exact (hi.index h s k (hlive hs) hk).imp (hkept h s k hs hk) id

/-- What a script leaves in the sets was there or is one of its two hashes. -/
theorem mem_of_swap {a : Rotation} {live : Session} (hmem : h ∈ (ks.swap a live).sets.members k) :
    h ∈ ks.sets.members k ∨ h = a.liveHash ∨ h = a.replacement.refreshTokenHash := by
  unfold Keyspace.swap at hmem
  by_cases hlegacy : live.familyId = ""
  · simp only [hlegacy, if_true, bumpTtl_sets, Keyspace.sadd, expire_sets, Keyspace.hset,
      Keyspace.srem, Keyspace.delKey, Sets.mem_members_add, Sets.mem_members_discard] at hmem
    tauto
  · simp only [hlegacy, if_false, bumpTtl_sets, Keyspace.sadd, expire_sets, Keyspace.hset,
      Keyspace.srem, Keyspace.delKey, Sets.mem_members_add, Sets.mem_members_discard] at hmem
    tauto

theorem mem_of_delKey {k' : Key} (hmem : h ∈ (ks.delKey k').sets.members k) :
    h ∈ ks.sets.members k := by
  cases k' with
  | family f => exact (Sets.mem_members_erase.mp hmem).2
  | userSessions u => exact (Sets.mem_members_erase.mp hmem).2
  | _ => exact hmem

theorem mem_of_del {keys : List Key} (hmem : h ∈ (ks.del keys).2.sets.members k) :
    h ∈ ks.sets.members k := by
  unfold Keyspace.del at hmem
  induction keys generalizing ks with
  | nil => exact hmem
  | cons k' keys ih => exact mem_of_delKey (ih hmem)

/-- A member of a set was one before or is mentioned. -/
theorem SweepStep.members (hstep : SweepStep ks o ans ks') (hmem : h ∈ ks'.sets.members k) :
    h ∈ ks.sets.members k ∨ Mentions o h := by
  cases hstep with
  | write hstep =>
    cases hstep with
    | idle _ _ _ _ _ hsets => exact .inl (hsets ▸ hmem)
    | members | record | hset => exact .inl hmem
    | sadd k' h' =>
      obtain hmem | ⟨-, rfl⟩ := Sets.mem_members_add.mp hmem
      · exact .inl hmem
      · exact .inr rfl
    | srem k' h' => exact .inl (Sets.mem_members_discard.mp hmem).1
    | del keys => exact .inl (mem_of_del hmem)
    | swap a live =>
      obtain hmem | rfl | rfl := mem_of_swap hmem
      · exact .inl hmem
      · exact .inr (.inl rfl)
      · exact .inr (.inr rfl)
  | idle _ _ _ _ _ hsets => exact .inl (hsets ▸ hmem)
  | absent => exact .inl hmem
  | sremAll k' hs => exact .inl ((mem_foldl_srem hs).mp hmem).1

theorem SweepStep.keyStep {o : Command} {ans : Ans o} (hstep : SweepStep ks (.write o) ans ks') :
    KeyStep ks o ans ks' := by
  cases hstep with
  | write hstep => exact hstep
  | idle _ _ _ _ _ _ hwrite => exact absurd rfl (hwrite o)

/-- A record that is there after a command was there before, or its hash is replaced. -/
theorem SweepStep.retired {r : RetiredRefreshToken} (hstep : SweepStep ks o ans ks')
    (hr : ks'.retired.lookup h = some r) : ks.retired.lookup h = some r ∨
      Mentions o h ∧ ks'.sessions.lookup h = none := by
  cases hstep with
  | write hstep =>
    obtain hold | ⟨a, rfl, rfl, hnone⟩ := hstep.retired hr
    · exact .inl hold
    · exact .inr ⟨.inl rfl, hnone⟩
  | idle _ _ _ _ hretired => exact .inl (hretired ▸ hr)
  | absent => exact .inl hr
  | sremAll k hs =>
    rw [(foldl_srem_data hs).2] at hr
    exact .inl hr

/-- A store that has yet to index its session has yet to after another command, unless the
command indexes it. -/
theorem Missing.performed (hu : Missing m s k) : Missing (m.performed c o ans w) s k ∨
    (⟨o, ans⟩ : Performed SweepAns) = ⟨.write (.sadd k s.refreshTokenHash), .ok ()⟩ := by
  obtain ⟨d, ans', hmem, hnot⟩ := hu
  by_cases hadds : (⟨o, ans⟩ : Performed SweepAns) = ⟨.write (.sadd k s.refreshTokenHash), .ok ()⟩
  · exact .inr hadds
  · refine .inl ⟨d, ans', List.mem_cons_of_mem _ hmem, fun hadded => ?_⟩
    obtain heq | hadded := List.mem_cons.mp hadded
    · cases heq
      exact hadds rfl
    · exact hnot hadded

/-- The hash a write takes out of a set is gone. -/
theorem Filed.gone_of_srem (hi : Filed m) {request : SweepRequest}
    (hready : SweepReady request (m.past c) (.write (.srem k h))) : Gone m h := by
  cases request with
  | write request =>
    obtain ⟨keys, n, hmem, hkey⟩ | ⟨r, hmem⟩ := hready.1
    · exact hi.deleted c keys n h ((Moment.mem_past ..).mp (mem_writes.mp hmem)) hkey
    · exact hi.read c h r ((Moment.mem_past ..).mp (mem_writes.mp hmem))
  | cleanup => obtain ⟨_, heq⟩ | ⟨_, heq⟩ | ⟨_, heq, -⟩ := hready <;> cases heq

/-- A store is ready to write its own session, which it has not indexed. -/
theorem store_of_ready {request : SweepRequest} {past : Past}
    (hready : SweepReady request past (.write (.hset s))) : request = .write (.store s) ∧
      ∀ k h ans, ⟨.write (.sadd k h), ans⟩ ∉ past := by
  cases request with
  | write request =>
    obtain ⟨rfl, hnot⟩ := hready.1
    exact ⟨rfl, fun k h ans hmem => hnot k h ans (mem_writes.mpr hmem)⟩
  | cleanup => obtain ⟨_, heq⟩ | ⟨_, heq⟩ | ⟨_, heq, -⟩ := hready <;> cases heq

/-- A live session stays in its index sets. -/
theorem Filed.member (hp : Filed (m.drifted m.world.purge)) {request : SweepRequest}
    (hready : SweepReady request (m.past c) o) (hmeets : NoneHidden m c x o)
    (hstep : SweepStep m.world.purge o ans w) (hlive : m.world.purge.sessions.lookup h = some s)
    (hs : w.sessions.lookup h = some s) (hk : k ∈ indexes s)
    (hmem : h ∈ m.world.purge.sets.members k) : h ∈ w.sets.members k := by
  have hgone : ¬ Gone (m.drifted m.world.purge) h := fun hg =>
    absurd (hlive.symm.trans hg.2) (by simp)
  cases hstep with
  | write hstep =>
    obtain hmem | rfl | ⟨keys, rfl, hkeys⟩ := hstep.member hmem hs
    · exact hmem
    · exact absurd (hp.gone_of_srem (c := c) hready) hgone
    · have hnone := hmeets.dropped keys k h rfl hkeys (isIndex_of_mem hk) hmem
      exact absurd (hlive.symm.trans hnone) (by simp)
  | idle _ _ _ _ _ hsets => exact hsets ▸ hmem
  | absent => exact hmem
  | sremAll k' hs' =>
    refine (mem_foldl_srem hs').mpr ⟨hmem, ?_⟩
    rintro ⟨-, hmem'⟩
    exact hgone (hp.probed c h ((Moment.mem_past m c _ _).mp (hready.2 h hmem')))

/-- Every command that hides nothing keeps the invariant. -/
theorem Filed.performs (hi : Filed m) {request : SweepRequest} (hrunning : m.Running c request)
    (hready : SweepReady request (m.past c) o) (hmeets : NoneHidden m c x o)
    (hex : sweepExec x c o m.world = some (ans, w)) : Filed (m.performed c o ans w) := by
  have hp := hi.purge hmeets.kept
  have hstep := sweepStep_of_exec hex
  have hgone : ∀ {h}, Gone (m.drifted m.world.purge) h → Gone (m.performed c o ans w) h :=
    fun hg => hg.performed hmeets hstep
  have hmentioned : ∀ {h}, Mentioned (m.drifted m.world.purge) h →
      Mentioned (m.performed c o ans w) h := fun hn => Mentioned.performed (m := m) hn
  constructor
  · -- keyed
    intro h s hs
    obtain hold | ⟨o', rfl, hinstalls, rfl⟩ := hstep.lookup hs
    · obtain ⟨hhash, hn⟩ := hp.keyed h s hold
      exact ⟨hhash, hmentioned hn⟩
    · exact ⟨rfl, mentioned_performed (mentions_of_names (names_of_installs hinstalls))⟩
  · -- members
    intro k h hmem
    obtain hmem | hmentions := hstep.members hmem
    · exact hmentioned (hp.members k h hmem)
    · exact mentioned_performed hmentions
  · -- seen
    intro d k ids h hmem hh
    obtain heq | hmem := List.mem_cons.mp hmem
    · cases heq
      rw [hstep.keyStep.members_eq] at hh
      exact hmentioned (hp.members k h hh)
    · exact hmentioned (hp.seen d k ids h hmem hh)
  · -- probed
    intro d h hmem
    obtain heq | hmem := List.mem_cons.mp hmem
    · cases heq
      obtain ⟨k, ids, hread, hh⟩ : Seen (m.past c) h := hready.2
      have hn := hp.seen c k ids h ((Moment.mem_past m c _ _).mp hread) hh
      cases hstep with
      | idle _ _ _ _ _ _ _ hprobe => exact absurd rfl (hprobe h)
      | absent _ hnone => exact ⟨hmentioned hn, hnone⟩
    · exact hgone (hp.probed d h hmem)
  · -- deleted
    intro d keys n h hmem hk
    obtain heq | hmem := List.mem_cons.mp hmem
    · cases heq
      exact ⟨mentioned_performed hk, hstep.keyStep.lookup_del hk⟩
    · exact hgone (hp.deleted d keys n h hmem hk)
  · -- retired
    intro h r hr
    obtain hold | ⟨hmentions, hnone⟩ := hstep.retired hr
    · exact hgone (hp.retired h r hold)
    · exact ⟨mentioned_performed hmentions, hnone⟩
  · -- read
    intro d h r hmem
    obtain heq | hmem := List.mem_cons.mp hmem
    · cases heq
      exact hgone (hp.retired h r hstep.keyStep.record_eq.symm)
    · exact hgone (hp.read d h r hmem)
  · -- stored
    intro d s ans' hmem
    refine List.mem_cons_of_mem _ ?_
    obtain heq | hmem := List.mem_cons.mp hmem
    · cases heq
      obtain ⟨rfl, -⟩ := store_of_ready hready
      exact (hrunning.asked _).mpr rfl
    · exact hp.stored d s ans' hmem
  · -- index
    intro h s k hs hk
    obtain hold | ⟨o', rfl, hinstalls, rfl⟩ := hstep.lookup hs
    · obtain hmem | hmissing := hp.index h s k hold hk
      · exact .inl (hp.member hready hmeets hstep hold hs hk hmem)
      · obtain hmissing | hadds := Missing.performed (m := m) (c := c) (w := w) hmissing
        · exact .inr hmissing
        · obtain ⟨rfl, hans⟩ := Sigma.mk.inj hadds
          obtain rfl := eq_of_heq hans
          rw [← (hp.keyed h s hold).1]
          exact .inl hstep.keyStep.member_sadd
    · obtain hold | ⟨rfl, -⟩ | ⟨a, live, rfl, -, -, -, hmembers⟩ := hstep.keyStep.lookup hs
      · exact absurd (hp.keyed _ s hold).2 (hmeets.fresh s o' rfl hinstalls)
      · -- the session has been written and not yet indexed
        refine .inr ⟨c, ans, List.mem_cons_self .., fun hadded => ?_⟩
        obtain heq | hadded := List.mem_cons.mp hadded
        · cases heq
        · exact (store_of_ready hready).2 _ _ _ ((Moment.mem_past m c _ _).mpr hadded)
      · exact .inl (hmembers k hk)

/-- The invariant speaks of the sessions, the records, the sets and what was performed. -/
theorem Filed.same (hi : Filed m) {m' : SweepMoment}
    (hsessions : m'.world.sessions = m.world.sessions)
    (hretired : m'.world.retired = m.world.retired) (hsets : m'.world.sets = m.world.sets)
    (hperformed : ∀ (c : ℕ) (o : SweepCommand) (ans : SweepAns o),
      .performed c o ans ∈ m'.history ↔ .performed c o ans ∈ m.history)
    (hbegan : ∀ c i, .began c i ∈ m.history → .began c i ∈ m'.history) : Filed m' := by
  have hmentioned : ∀ {h}, Mentioned m h → Mentioned m' h := by
    rintro h ⟨c, o, ans, hmem, hmentions⟩
    exact ⟨c, o, ans, (hperformed c o ans).mpr hmem, hmentions⟩
  have hgone : ∀ {h}, Gone m h → Gone m' h := by
    rintro h ⟨hn, hnone⟩
    rw [← hsessions] at hnone
    exact ⟨hmentioned hn, hnone⟩
  constructor
  · intro h s hs
    rw [hsessions] at hs
    exact ⟨(hi.keyed h s hs).1, hmentioned (hi.keyed h s hs).2⟩
  · intro k h hmem
    rw [hsets] at hmem
    exact hmentioned (hi.members k h hmem)
  · exact fun c k ids h hmem hh => hmentioned (hi.seen c k ids h ((hperformed ..).mp hmem) hh)
  · exact fun c h hmem => hgone (hi.probed c h ((hperformed ..).mp hmem))
  · exact fun c keys n h hmem hk => hgone (hi.deleted c keys n h ((hperformed ..).mp hmem) hk)
  · intro h r hr
    rw [hretired] at hr
    exact hgone (hi.retired h r hr)
  · exact fun c h r hmem => hgone (hi.read c h r ((hperformed ..).mp hmem))
  · exact fun c s ans hmem => hbegan c _ (hi.stored c s ans ((hperformed ..).mp hmem))
  · intro h s k hs hk
    rw [hsessions] at hs
    rw [hsets]
    refine (hi.index h s k hs hk).imp id ?_
    rintro ⟨c, ans, hmem, hnot⟩
    exact ⟨c, ans, (hperformed ..).mpr hmem, fun hadded => hnot ((hperformed ..).mp hadded)⟩

end Invariant

/-- Call `c` works through an index set; `before` are the sessions before it began. -/
structure Following (c : ℕ) (k : Key) (before : Table String Session) (m : SweepMoment) : Prop where
  shrinks : ∀ h s, m.world.sessions.lookup h = some s → before.lookup h = some s
  deleted : ∀ keys n h, .performed c (.write (.del keys)) (.ok n) ∈ m.history →
    .session h ∈ keys → m.world.sessions.lookup h = none
  unread : (∀ ids, .performed c (.write (.smembers k)) (.ok ids) ∉ m.history) →
    ∀ h s, m.world.sessions.lookup h = some s → k ∈ indexes s → h ∈ m.world.sets.members k
  swept : ∀ ids, .performed c (.write (.smembers k)) (.ok ids) ∈ m.history →
    ∀ h s, m.world.sessions.lookup h = some s → k ∈ indexes s → h ∈ ids

section Following

variable {m : SweepMoment} {c : ℕ} {x : SweepChoice} {o : Command} {ans : Ans o} {w : Keyspace}
  {k : Key} {request : Request} {before : Table String Session}

/-- A revocation installs no session. -/
theorem not_installs_of_reads {ks : Keyspace} {s : Session} {past : List (Performed Ans)}
    (hindex : request.index? = some k) (hready : Ready request past o)
    (hreads : Reads request past o) : ¬ Installs ks o s := by
  rintro (rfl | ⟨a, live, rfl, -, -⟩)
  · obtain ⟨rfl, -⟩ := hready
    exact absurd hindex (by simp [Request.index?])
  · obtain ⟨heq, -⟩ | ⟨-, hfollows⟩ := hreads k hindex
    · cases heq
    · exact hfollows

theorem Following.performs (hf : Following c k before m) (hindex : request.index? = some k)
    (hready : Ready request (writes (m.past c)) o) (hreads : Reads request (writes (m.past c)) o)
    (hkept : IndexKept m.world) (hstep : KeyStep m.world.purge o ans w) :
    Following c k before (m.performed c (.write o) ans w) := by
  have hread : ∀ ids, .performed c (.write (.smembers k)) (.ok ids) ∈ m.history ↔
      ⟨.smembers k, .ok ids⟩ ∈ writes (m.past c) := fun ids =>
    (Moment.mem_past m c _ _).symm.trans mem_writes.symm
  have hback : ∀ {h s}, w.sessions.lookup h = some s →
      m.world.purge.sessions.lookup h = some s := by
    intro h s hs
    obtain hold | ⟨hinstalls, -⟩ := hstep.installs hs
    · exact hold
    · exact absurd hinstalls (not_installs_of_reads hindex hready hreads)
  have hlive : ∀ {h s}, w.sessions.lookup h = some s → m.world.sessions.lookup h = some s :=
    fun hs => (Table.lookup_deleteWhere_eq_some.mp (hback hs)).1
  constructor
  · exact fun h s hs => hf.shrinks h s (hlive hs)
  · -- deleted
    intro keys n h hmem hkey
    obtain heq | hmem := List.mem_cons.mp hmem
    · cases heq
      exact hstep.lookup_del hkey
    · cases hw : w.sessions.lookup h with
      | none => exact hw
      | some s => exact absurd ((hlive hw).symm.trans (hf.deleted keys n h hmem hkey)) (by simp)
  · -- unread
    intro hunread h s hs hk
    have hbefore : ∀ ids, .performed c (.write (.smembers k)) (.ok ids) ∉ m.history :=
      fun ids hmem => hunread ids (List.mem_cons_of_mem _ hmem)
    obtain ⟨rfl, -⟩ | ⟨⟨ids, hids⟩, -⟩ := hreads k hindex
    · have hmember := hkept h s k (hback hs) hk (hf.unread hbefore h s (hlive hs) hk)
      cases hstep with
      | idle _ _ _ _ _ hsets => exact hsets ▸ hmember
      | members => exact hmember
    · exact absurd ((hread ids).mpr hids) (hbefore ids)
  · -- swept
    intro ids hmem h s hs hk
    obtain heq | hmem := List.mem_cons.mp hmem
    · cases heq
      obtain ⟨-, hnil⟩ | ⟨-, hfollows⟩ := hreads k hindex
      · have hbefore : ∀ ids, .performed c (.write (.smembers k)) (.ok ids) ∉ m.history := by
          intro ids' hmem'
          have := (hread ids').mp hmem'
          rw [hnil] at this
          exact absurd this List.not_mem_nil
        rw [hstep.members_eq]
        exact hkept h s k (hback hs) hk (hf.unread hbefore h s (hlive hs) hk)
      · exact absurd hfollows id
    · exact hf.swept ids hmem h s (hlive hs) hk

theorem Following.same (hf : Following c k before m) {m' : SweepMoment}
    (hsessions : m'.world.sessions = m.world.sessions) (hsets : m'.world.sets = m.world.sets)
    (hperformed : ∀ (d : ℕ) (o : SweepCommand) (ans : SweepAns o),
      .performed d o ans ∈ m'.history ↔ .performed d o ans ∈ m.history) :
    Following c k before m' := by
  constructor
  · exact fun h s hs => hf.shrinks h s (hsessions ▸ hs)
  · intro keys n h hmem hkey
    rw [hsessions]
    exact hf.deleted keys n h ((hperformed ..).mp hmem) hkey
  · intro hunread h s hs hk
    rw [hsessions] at hs
    rw [hsets]
    exact hf.unread (fun ids hmem => hunread ids ((hperformed ..).mpr hmem)) h s hs hk
  · intro ids hmem h s hs hk
    rw [hsessions] at hs
    exact hf.swept ids ((hperformed ..).mp hmem) h s hs hk

end Following

/-- Every call has ended, and no store in a failure. -/
def Settled (p : SweepPool) : Prop :=
  ∀ c call, p.calls c = some call → call.rest.finished = true ∧
    ∀ s e, call.request = .write (.store s) → call.rest ≠ .raise e

section Runs

variable {secs : UInt64} {clock : Instant} {as : List SweepAct} {p : SweepPool} {h : String}
  {s : Session} {k : Key}

end Runs

/-! ## A login between the count and the deletion -/

namespace LoginSample

open Adapter.Sample
open Valkey.Sample (retention indexKept_of_test)

def start : SweepPool := .start 0

/-- A call goes on with its next `n` commands. -/
def advance (c n : ℕ) : List SweepAct := List.replicate n (.advance c (.write .proceed))

/-- Call `c` starts to store a first generation and performs `n` commands. -/
def storing (c : ℕ) (h : String) (n : ℕ) : List SweepAct :=
  .begin c (.write (.store (generation h 0))) :: advance c n

/-- Call `c` revokes a session. -/
def revoking (c : ℕ) (h : String) : List SweepAct :=
  .begin c (.write (.revokeSession h)) :: advance c 4

/-- Cleanup gathers some names. -/
def gathering (c : ℕ) (names : List String) : List SweepAct := [.advance c (.gathered names)]

/-- Call `c` cleans up and has read the set of the user. -/
def cleaning (c : ℕ) : List SweepAct :=
  .begin c .cleanup :: gathering c [theUser] ++ advance c 1

/-- Cleanup goes on without families, and finds the sessions. -/
def counting (c : ℕ) (live : List String) : List SweepAct :=
  gathering c [] ++ gathering c live ++ advance c 2

/-- The only session of the user is revoked while cleanup works through his set, and a login
follows: after the set is dropped, or between the count and the drop. -/
def uncontested : List SweepAct :=
  storing 0 "a" 10 ++ cleaning 1 ++ revoking 2 "a" ++ advance 1 4 ++ storing 3 "b" 10 ++
    counting 1 ["b"]

def overtaken : List SweepAct :=
  storing 0 "a" 10 ++ cleaning 1 ++ revoking 2 "a" ++ advance 1 3 ++ storing 3 "b" 10 ++
    advance 1 1 ++ counting 1 ["b"]

section Tests

variable {p : SweepPool} {a : SweepAct} {h : String} {o : SweepCommand} {x : SweepChoice} {c : ℕ}

end Tests

/-- The revocation of the user's sessions has returned. -/
def signedOut (c : ℕ) (p : SweepPool) : Bool :=
  match p.calls c with
  | some ⟨.write (.revokeAllUserSessions u), .done (.revoked _)⟩ => u == theUser
  | _ => false

theorem signedOut_of_test {c : ℕ} {p : SweepPool} (h : signedOut c p = true) :
    ∃ n, p.Returned c (.write (.revokeAllUserSessions theUser)) (.revoked n) := by
  unfold signedOut at h
  split at h
  · rename_i u n hc
    obtain rfl : u = theUser := by simpa using h
    exact ⟨n, hc⟩
  · exact absurd h (by simp)

end LoginSample

end Cleanup

end Valkey

end OidcExchange
