import OidcExchange.Analysis.DynamoFlow
import OidcExchange.Analysis.DynamoSteps
import OidcExchange.Interleaving.Handler

/-!
# Signing in after a global sign-out

Storing a session files it below the attribute `families` of the user item. The attribute is
there from the creation of the user on, and only a global sign-out takes it away: from then on
no session of the user can be stored.
-/

set_option autoImplicit false

namespace OidcExchange

namespace Dynamo

open Interleaving Storage

variable {place : Key → ℕ} {secs : UInt64} {w : Store} {c : ℕ} {u : String}

/-! ## One call on its own -/

/-- A batch for every chunk, each processed in one round. -/
def wholeBatches (chunks : List (List Key)) : List Choice :=
  (chunks.filter (· ≠ [])).map .process

/-- Chunks that are processed whole are deleted. -/
theorem solo_deleteChunks {β : Type} (chunks : List (List Key)) (f : Unit → Adapter Ans β)
    (past : Past) (w : Store) : ∃ past', ∀ xs,
      Pool.solo (semantics place) c (wholeBatches chunks ++ xs) (deleteChunks chunks >>= f) past w =
        Pool.solo (semantics place) c xs (f ()) past' (chunks.flatten.foldl (·.remove c) w) := by
  induction chunks generalizing past w with
  | nil => exact ⟨past, fun xs => rfl⟩
  | cons chunk chunks ih =>
    by_cases hnil : chunk = []
    · subst hnil
      obtain ⟨past', h⟩ := ih past w
      exact ⟨past', h⟩
    · obtain ⟨past', h⟩ := ih (⟨.batchDelete chunk, .ok (w.batchDelete c chunk chunk).1⟩ :: past)
        (chunk.foldl (·.remove c) w)
      refine ⟨past', fun xs => ?_⟩
      rw [List.flatten_cons, List.foldl_append, ← h]
      have hleft : (w.batchDelete c chunk chunk).1.1 = [] := by
        simp [Store.batchDelete]
      have hremoved : (w.batchDelete c chunk chunk).2 = chunk.foldl (·.remove c) w := by
        show (chunk.filter (· ∈ chunk)).foldl (·.remove c) w = _
        rw [List.filter_eq_self.mpr fun k hk => decide_eq_true hk]
      have hbatches : wholeBatches (chunk :: chunks) = .process chunk :: wholeBatches chunks := by
        simp [wholeBatches, hnil]
      have hdrain : drainUnprocessed chunk = (do
          drainRounds batchWriteMaxAttempts chunk
          return chunk.length) := if_neg hnil
      rw [hbatches, deleteChunks, hdrain]
      show Pool.solo (semantics place) c (wholeBatches chunks ++ xs)
        ((((if (w.batchDelete c chunk chunk).1.1 = [] then .done () else
          drainRounds 7 (w.batchDelete c chunk chunk).1.1) >>= fun _ => .done chunk.length) >>=
            fun _ => deleteChunks chunks) >>= f)
        (⟨.batchDelete chunk, .ok (w.batchDelete c chunk chunk).1⟩ :: past)
        (w.batchDelete c chunk chunk).2 = _
      rw [if_pos hleft, hremoved]
      rfl

theorem same_self (family : FamilyRoster) : family.same family = true := by
  simp [FamilyRoster.same, sameMembers]

/-- A roster that is read twice has not changed. -/
theorem unchanged_self (roster : UserRoster) : roster.unchanged roster = true := by
  have hfamilies : ∀ e ∈ roster.families.entries,
      ((roster.families.lookup e.1).any fun f => f.same e.2) = true := by
    rintro ⟨f, family⟩ he
    rw [AList.mem_lookup_iff.mpr he]
    exact same_self family
  have hall := List.all_eq_true.mpr hfamilies
  simp only [UserRoster.unchanged, hall, beq_self_eq_true, Bool.and_true, Bool.true_and]
  exact List.all_eq_true.mpr fun h hh => List.contains_iff_mem.mpr hh

/-! ## Signing in -/

/-- The environment of a revocation in which every request takes place and every round processes
its keys. -/
def smoothRevocation (roster : UserRoster) : List Choice :=
  .proceed :: wholeBatches (roster.deleteKeys.toChunks batchWriteMaxItems) ++ [.proceed, .proceed]

/-- One call after the other, each alone: the session is stored, its token is found live, and
revoking all sessions of the user takes it away. -/
def SignsIn (place : Key → ℕ) (secs : UInt64) (w : Store) (s : Session) : Prop :=
  ∀ c, ∃ stored past w₁, Pool.solo (semantics place) c [.proceed] (serve secs (.store s)) [] w =
    some (stored, past, w₁) ∧ stored = .done .done ∧
  (∃ past, Pool.solo (semantics place) c [.proceed] (serve secs (.resolve s.refreshTokenHash)) [] w₁ =
    some (.done (.resolved (.live s)), past, w₁)) ∧
  ∃ n past w₂, Pool.solo (semantics place) c (smoothRevocation (w₁.roster s.userId))
    (serve secs (.revokeAllUserSessions s.userId)) [] w₁ = some (.done (.revoked n), past, w₂) ∧
    w₂.sessions.lookup s.refreshTokenHash = none

/-- The sessions of a roster are among the keys of its deletion. -/
theorem session_mem_deleteKeys {roster : UserRoster} {h : String} (hmem : h ∈ roster.sessions) :
    Key.session h ∈ roster.deleteKeys :=
  List.mem_append_left _ (List.mem_map_of_mem hmem)

/-- A smooth revocation takes away every session that the roster names. -/
theorem solo_revokeAll (hu : u ≠ "") {item : RosterItem} (hitem : w.rosters.lookup u = some item)
    {h : String} (hmem : h ∈ item.sessions) : ∃ n past w₂,
      Pool.solo (semantics place) c (smoothRevocation (w.roster u))
        (serve secs (.revokeAllUserSessions u)) [] w = some (.done (.revoked n), past, w₂) ∧
      w₂.sessions.lookup h = none := by
  have hroster : w.roster u = .fromItem item := by rw [Store.roster, hitem]
  have hsessions : h ∈ (w.roster u).sessions := by rw [hroster]; exact hmem
  have hkey := session_mem_deleteKeys hsessions
  have hkeys : (w.roster u).deleteKeys ≠ [] := List.ne_nil_of_mem hkey
  have hfull : (w.roster u).isEmpty = false := by
    rw [UserRoster.isEmpty, List.isEmpty_eq_false_iff.mpr (List.ne_nil_of_mem hsessions)]
    rfl
  let roster := w.roster u
  let after := (roster.deleteKeys.toChunks batchWriteMaxItems).flatten.foldl (·.remove c) w
  have hafter : after.roster u = roster := by
    simp only [roster, Store.roster, after, removeAll_rosters]
  have hitem' : after.rosters.lookup u = some item := by
    simp only [after, removeAll_rosters, hitem]
  let rest : Unit → Adapter Ans Response := fun _ =>
    (do
      let fresh ← getUserRoster u
      if roster.unchanged fresh then do
        Adapter.await (Program.ask (Command.clearRoster u))
        return roster.sessionsRemoved
      else revokeAllAttempts u 4 : Adapter Ans ℕ) >>= fun n => .done (.revoked n)
  obtain ⟨past, hdelete⟩ := @solo_deleteChunks place c _
    (roster.deleteKeys.toChunks batchWriteMaxItems) rest [⟨.getRoster u, .ok roster⟩] w
  have hstart : serve secs (.revokeAllUserSessions u) =
      revokeAllAttempts u revocationMaxAttempts >>= fun n => .done (.revoked n) := by
    show ((Adapter.assert (u != "") >>= fun _ =>
      revokeAllAttempts u revocationMaxAttempts) >>= fun n => Program.done (Response.revoked n)) = _
    rw [show (u != "") = true by simpa using hu]
    rfl
  have hread : Pool.solo (semantics place) c (smoothRevocation roster)
      (serve secs (.revokeAllUserSessions u)) [] w =
        Pool.solo (semantics place) c (wholeBatches (roster.deleteKeys.toChunks batchWriteMaxItems) ++
          [.proceed, .proceed]) (deleteChunks (roster.deleteKeys.toChunks batchWriteMaxItems) >>= rest)
          [⟨.getRoster u, .ok roster⟩] w := by
    rw [hstart]
    show Pool.solo (semantics place) c _ ((if roster.isEmpty = true then .done 0 else
      Adapter.assert (decide (roster.deleteKeys ≠ [])) >>= fun _ => _) >>= _) _ w = _
    rw [hfull, decide_eq_true hkeys]
    show Pool.solo (semantics place) c _ ((deleteChunks _ >>= fun _ => _) >>= _) _ w = _
    rw [Program.bind_assoc]
    rfl
  refine ⟨roster.sessionsRemoved, ⟨.clearRoster u, .ok ()⟩ :: ⟨.getRoster u, .ok roster⟩ :: past,
    after.withRoster u (some { sessions := [], families := none }), ?_, ?_⟩
  · rw [hread, hdelete]
    show Pool.solo (semantics place) c [.proceed] ((if roster.unchanged (after.roster u) = true then _
      else _) >>= _) (⟨.getRoster u, .ok (after.roster u)⟩ :: past) after = _
    rw [hafter, unchanged_self]
    have hclear : after.updateItem u (fun _ => { sessions := [], families := none }) =
        (.ok (), after.withRoster u (some { sessions := [], families := none })) := by
      rw [Store.updateItem, hitem']
    simp [Pool.solo, semantics, exec, replyAnswer, hclear, Adapter.await]
  · show after.sessions.lookup h = none
    simp only [after, flatten_toChunks, sessions_removeAll]
    exact if_pos hkey

/-- A session is stored where the user item has its families, and only there. -/
theorem solo_store {s : Session} {item : RosterItem} (hfamily : isValidFamilyId s.familyId = true)
    (hhash : s.refreshTokenHash ≠ "") (hitem : w.rosters.lookup s.userId = some item)
    (hfree : w.sessions.lookup s.refreshTokenHash = none) :
    Pool.solo (semantics place) c [.proceed] (serve secs (.store s)) [] w =
      match item.file s.refreshTokenHash s.familyId with
      | some item' => some (.done .done, [⟨.store s, .ok .committed⟩],
          { w with
            sessions := w.sessions.insert s.refreshTokenHash s
            rosters := w.rosters.insert s.userId item' })
      | none => some (.raise cancelled, [⟨.store s, .ok (.cancelled [false, true])⟩], w) := by
  have hserve : serve secs (.store s) = (.perform (.store s) fun ans =>
      (Program.ofExcept ans >>= committed) >>= fun _ => .done .done) := by
    show ((Adapter.assert (isValidFamilyId s.familyId) >>= fun _ =>
      Adapter.assert (s.refreshTokenHash != "") >>= fun _ => _) >>= fun _ =>
        Program.done Response.done) = _
    rw [hfamily, show (s.refreshTokenHash != "") = true by simpa using hhash]
    rfl
  have hupdated : w.updated s.userId (fun item => item.file s.refreshTokenHash s.familyId) =
      item.file s.refreshTokenHash s.familyId := by
    rw [Store.updated, hitem, Option.bind_some]
  rw [hserve]
  cases hfile : item.file s.refreshTokenHash s.familyId with
  | some item' =>
    simp [Pool.solo, semantics, exec, reply, Store.storeSession, Store.transact, hupdated, hfile,
      hfree, committed, Store.withRoster]
  | none =>
    simp [Pool.solo, semantics, exec, reply, Store.storeSession, Store.transact, hupdated, hfile,
      hfree, committed]

/-- **A session can be stored, found and revoked where the user item has its families.** -/
theorem signsIn_iff {s : Session} {item : RosterItem} (hfamily : isValidFamilyId s.familyId = true)
    (hhash : s.refreshTokenHash ≠ "") (howner : s.userId ≠ "")
    (hitem : w.rosters.lookup s.userId = some item)
    (hfree : w.sessions.lookup s.refreshTokenHash = none) :
    SignsIn place secs w s ↔ item.families.isSome = true := by
  constructor
  · intro h
    obtain ⟨stored, past, w₁, hstore, rfl, -⟩ := h 0
    rw [solo_store hfamily hhash hitem hfree] at hstore
    cases hfamilies : item.families with
    | some families => rfl
    | none =>
      rw [RosterItem.file, hfamilies] at hstore
      cases (Prod.mk.inj (Option.some.inj hstore)).1
  · intro h c
    obtain ⟨families, hfamilies⟩ := Option.isSome_iff_exists.mp h
    have hstore := @solo_store place secs _ c _ _ hfamily hhash hitem hfree
    rw [RosterItem.file, hfamilies] at hstore
    refine ⟨_, _, _, hstore, rfl, ⟨[⟨.getSession s.refreshTokenHash, .ok (some s)⟩], ?_⟩, ?_⟩
    · have hserve : ∃ next, serve secs (.resolve s.refreshTokenHash) =
          .perform (.getSession s.refreshTokenHash) next ∧
            ∀ session, next (.ok (some session)) = .done (.resolved (.live session)) := by
        have hasserted : (s.refreshTokenHash != "") = true := by simpa using hhash
        rw [serve, resolveRefreshToken, hasserted]
        exact ⟨_, rfl, fun session => rfl⟩
      obtain ⟨next, hserve, hnext⟩ := hserve
      rw [hserve]
      simp [Pool.solo, semantics, exec, reply, hnext]
    · refine solo_revokeAll howner (AList.lookup_insert _) ?_
      simp

/-! ## What becomes of the families -/

/-- The item of the user, if it is there, has the attribute `families`. -/
def HasFamilies (rosters : Table String RosterItem) (u : String) : Prop :=
  ∀ item, rosters.lookup u = some item → item.families.isSome = true

/-- An update that leaves the attribute as it is. -/
theorem hasFamilies_insert {rosters : Table String RosterItem} {v : String} {item item' : RosterItem}
    (hitem : rosters.lookup v = some item)
    (hsame : item'.families.isSome = item.families.isSome) :
    HasFamilies (rosters.insert v item') u ↔ HasFamilies rosters u := by
  unfold HasFamilies
  by_cases hu : u = v
  · subst hu
    simp [hitem, hsame]
  · simp [hu]

/-- An update below the attribute leaves it. -/
theorem isSome_file {item item' : RosterItem} {h f : String} (hfile : item.file h f = some item') :
    item'.families.isSome = item.families.isSome := by
  obtain ⟨families, hfamilies, rfl⟩ := Option.map_eq_some_iff.mp hfile
  simp [hfamilies]

theorem isSome_refile {a : Rotation} {item item' : RosterItem} (h : a.refile item = some item') :
    item'.families.isSome = item.families.isSome := by
  unfold Rotation.refile at h
  split at h
  · obtain ⟨families, hfamilies, rfl⟩ := Option.map_eq_some_iff.mp h
    simp [hfamilies]
  · obtain ⟨families, hfamilies, h⟩ := Option.bind_eq_some_iff.mp h
    obtain ⟨family, -, rfl⟩ := Option.map_eq_some_iff.mp h
    simp [hfamilies]

theorem isSome_unfile {item item' : RosterItem} {h f : String}
    (hunfile : item.unfile h f = some item') :
    item'.families.isSome = item.families.isSome := by
  unfold RosterItem.unfile at hunfile
  by_cases hf : f = ""
  · rw [if_pos hf] at hunfile
    obtain rfl := Option.some.inj hunfile
    rfl
  · rw [if_neg hf] at hunfile
    obtain ⟨families, hfamilies, hunfile⟩ := Option.bind_eq_some_iff.mp hunfile
    obtain ⟨family, -, rfl⟩ := Option.map_eq_some_iff.mp hunfile
    simp [hfamilies]

variable {w' : Store} {x : Choice}

/-- Only clearing the roster of a user takes the attribute away, and nothing brings it back. -/
theorem hasFamilies_exec {o : Command} {ans : Ans o} (hex : exec place x c o w = some (ans, w'))
    (hspares : o = .clearRoster u → (w.rosters.lookup u).isSome = true → x.lands = false) :
    HasFamilies w'.rosters u ↔ HasFamilies w.rosters u := by
  obtain ⟨rfl, -⟩ | ⟨hlands, hchanges⟩ := exec_cases hex
  · rfl
  cases hchanges with
  | createUser hname hnone hans =>
    rename_i v _
    unfold HasFamilies
    by_cases hu : u = v
    · subst hu
      simp [hnone]
    · simp [hu]
  | store hfree hitem hfile hans => exact hasFamilies_insert hitem (isSome_file hfile)
  | rotate hlive hfree hretired hitem hrefile hans =>
    exact hasFamilies_insert hitem (isSome_refile hrefile)
  | revoke hlive hitem hunfile hans => exact hasFamilies_insert hitem (isSome_unfile hunfile)
  | batchDelete hleft => rw [removeAll_rosters]
  | clearFamily hitem => exact hasFamilies_insert hitem (by simp [RosterItem.dropFamily])
  | clearRoster hitem =>
    rename_i v _ _
    unfold HasFamilies
    by_cases hu : u = v
    · subst hu
      rw [hspares rfl (by rw [hitem]; rfl)] at hlands
      exact nomatch hlands
    · simp [hu]

/-- A roster that is cleared has lost the attribute. -/
theorem not_hasFamilies_clearRoster {ans : Answer Unit}
    (hex : exec place x c (.clearRoster u) w = some (ans, w'))
    (hitem : (w.rosters.lookup u).isSome = true) (hlands : x.lands = true) :
    ¬ HasFamilies w'.rosters u := by
  obtain ⟨item, hitem⟩ := Option.isSome_iff_exists.mp hitem
  have hresult : w.updateItem u (fun _ => { sessions := [], families := none }) =
      (.ok (), w.withRoster u (some { sessions := [], families := none })) := by
    rw [Store.updateItem, hitem]
  have hcleared : w' = w.withRoster u (some { sessions := [], families := none }) := by
    rw [exec, hresult] at hex
    cases x with
    | proceed => exact (Prod.mk.inj (Option.some.inj hex)).2.symm
    | lost e => exact (Prod.mk.inj (Option.some.inj hex)).2.symm
    | fail e => cases hlands
    | _ => cases hex
  intro h
  rw [hcleared] at h
  have := h _ (AList.lookup_insert _)
  simp at this

/-! ## The claim -/

/-- No roster of the user is cleared. -/
def Spares (u : String) (m : StoreMoment) (_c : ℕ) (x : Choice) (o : Command) : Prop :=
  o = .clearRoster u → (m.world.rosters.lookup u).isSome = true → x.lands = false

variable {p t : StorePool} {a : StoreAct}

/-- A step that spares the roster neither takes nor brings the attribute. -/
theorem hasFamilies_step (hstep : (store place secs).step p a = some t)
    (hspares : p.Under (Spares u) a) :
    HasFamilies t.world.rosters u ↔ HasFamilies p.world.rosters u := by
  obtain ⟨c, i, rfl, -, hm, -⟩ | ⟨c, x, i, o, next, ans, w', rfl, hc, hex, hm, -⟩ |
    ⟨⟨clock⟩, w', rfl, hdrift, hm, -⟩ := Pool.step_cases hstep
  · rw [hm, Disciplined.settle_world]
    rfl
  · rw [hm, Disciplined.settle_world, Moment.performed_world]
    exact hasFamilies_exec hex (hspares c x o ⟨rfl, i, next, hc⟩)
  · unfold semantics drift at hdrift
    simp only [Option.ite_none_right_eq_some, Option.some.injEq] at hdrift
    obtain ⟨-, rfl⟩ := hdrift
    rw [hm]
    rfl

/-- A step after which the attribute is there has spared the roster. -/
theorem spares_of_hasFamilies (hstep : (store place secs).step p a = some t)
    (ht : HasFamilies t.world.rosters u) : p.Under (Spares u) a := by
  rintro c x o ⟨rfl, i, next, hc⟩ rfl hitem
  by_contra hlands
  obtain ⟨c', i', hact, -⟩ | ⟨c', x', i', o', next', ans, w', hact, hc', hex, hm, -⟩ |
    ⟨k, w', hact, -⟩ := Pool.step_cases hstep
  · exact nomatch hact
  · cases hact
    rw [hc] at hc'
    cases hc'
    rw [hm, Disciplined.settle_world, Moment.performed_world] at ht
    have hcleared : exec place x c (.clearRoster u) p.world = some (ans, w') := hex
    exact not_hasFamilies_clearRoster hcleared hitem (by simpa using hlands) ht
  · exact nomatch hact

/-- The attribute is there after a run exactly if it was there before and the run has spared the
roster. -/
theorem hasFamilies_run {q : StorePool} {as : List StoreAct}
    (hrun : (store place secs).Run System.anyStep p as q) :
    HasFamilies q.world.rosters u ↔ HasFamilies p.world.rosters u ∧
      (store place secs).Run (Pool.Under (Spares u)) p as q := by
  induction hrun with
  | refl p => exact ⟨fun h => ⟨h, .refl p⟩, fun h => h.1⟩
  | cons _ hstep _ ih =>
    rw [ih]
    constructor
    · rintro ⟨ht, hrest⟩
      have hspares := spares_of_hasFamilies hstep ht
      exact ⟨(hasFamilies_step hstep hspares).mp ht, .cons hspares hstep hrest⟩
    · rintro ⟨hp, hall⟩
      cases hall with
      | cons hspares hstep' hrest =>
        cases hstep.symm.trans hstep'
        exact ⟨(hasFamilies_step hstep hspares).mpr hp, hrest⟩

/-- **Signing in works as long as no roster of the user was cleared**: in every state the store
can reach, a session of a user who is there is stored, found and revoked exactly if the run so
far has not cleared the roster of the user. -/
theorem signsIn_iff_spared {clock : Instant} {as : List StoreAct} {q : StorePool} {s : Session}
    (hrun : (store place secs).Run System.anyStep (.start clock) as q)
    (hfamily : isValidFamilyId s.familyId = true) (hhash : s.refreshTokenHash ≠ "")
    (howner : s.userId ≠ "") (huser : (q.world.rosters.lookup s.userId).isSome = true)
    (hfree : q.world.sessions.lookup s.refreshTokenHash = none) :
    SignsIn place secs q.world s ↔
      (store place secs).Run (Pool.Under (Spares s.userId)) (.start clock) as q := by
  obtain ⟨item, hitem⟩ := Option.isSome_iff_exists.mp huser
  have hfamilies : HasFamilies q.world.rosters s.userId ↔ item.families.isSome = true :=
    ⟨fun h => h item hitem, fun h item' hitem' => by
      rw [hitem] at hitem'
      exact Option.some.inj hitem' ▸ h⟩
  have hstart : HasFamilies (StorePool.start clock).world.rosters s.userId := by
    intro item' hitem'
    exact nomatch hitem'
  rw [signsIn_iff hfamily hhash howner hitem hfree, ← hfamilies, hasFamilies_run hrun]
  exact and_iff_right hstart

/-! ## Runs -/

namespace Sample

open Adapter.Sample

/-- A family of its own for every sign-in. -/
def otherFamily : String := "fam_00000000000000000000000001"

/-- A session of the other family. -/
def otherLogin (tokenHash : String) : Session :=
  { generation tokenHash 0 with familyId := otherFamily }

/-- The user is created and signs in. -/
def signIn : List StoreAct :=
  [.begin 0 (.createUser theUser), .advance 0 .proceed, .begin 1 (.store (generation "a" 0)),
    .advance 1 .proceed]

/-- All sessions of the user are revoked. -/
def signOut : List StoreAct :=
  [.begin 2 (.revokeAllUserSessions theUser), .advance 2 .proceed,
    .advance 2 (.process [.session "a"]), .advance 2 .proceed, .advance 2 .proceed]

/-- The test of `Spares`. -/
def isSpared (u : String) (_m : StoreMoment) (_c : ℕ) (_x : Choice) : Command → Bool
  | .clearRoster v => u != v
  | _ => true

theorem spares_of_test (u : String) (m : StoreMoment) (c : ℕ) (x : Choice) (o : Command)
    (h : isSpared u m c x o = true) : Spares u m c x o := by
  rintro rfl
  simp [isSpared] at h

/-- The user is there, and no session has the hash. -/
def isFree (p : StorePool) (u h : String) : Bool :=
  (p.world.rosters.lookup u).isSome && (p.world.sessions.lookup h).isNone

/-- Call 2 has signed the user out, and one session went. -/
def hasSignedOut (p : StorePool) : Bool :=
  match p.calls 2 with
  | some ⟨.revokeAllUserSessions u, .done (.revoked n)⟩ => u == theUser && n == 1
  | _ => false

theorem returned_of_hasSignedOut {p : StorePool} (h : hasSignedOut p = true) :
    p.Returned 2 (.revokeAllUserSessions theUser) (.revoked 1) := by
  unfold hasSignedOut at h
  split at h
  · rename_i u n hc
    obtain ⟨rfl, rfl⟩ : u = theUser ∧ n = 1 := by simpa using h
    exact hc
  · cases h

end Sample

open Sample Adapter.Sample in
/-- A second sign-in works. -/
theorem signsIn_iff_spared_twice : ∃ as q,
    (store (fun _ => 0) 0).Run System.anyStep (.start 0) as q ∧
      SignsIn (fun _ => 0) 0 q.world (otherLogin "b") := by
  have hrun : ((store (fun _ => 0) 0).followWhen (Pool.passes (isSpared theUser)) (.start 0)
      signIn).any (fun q => isFree q theUser "b") = true := by
    decide +kernel
  obtain ⟨q, hrun, htest⟩ :=
    System.Run.of_followWhen_any (Pool.under_of_passes (spares_of_test theUser)) hrun
  simp only [isFree, Bool.and_eq_true, Option.isNone_iff_eq_none] at htest
  have hany := hrun.mono fun _ _ _ => trivial
  exact ⟨signIn, q, hany, (signsIn_iff_spared hany (by decide) (by decide) (by decide) htest.1
    htest.2).mpr hrun⟩

open Sample Adapter.Sample in
/-- After a global sign-out that succeeds the user cannot sign in. -/
theorem not_signsIn_after_sign_out : ∃ as q,
    (store (fun _ => 0) 0).Run System.anyStep (.start 0) as q ∧
      q.Returned 2 (.revokeAllUserSessions theUser) (.revoked 1) ∧
        (q.world.rosters.lookup theUser).isSome = true ∧
          ¬ SignsIn (fun _ => 0) 0 q.world (otherLogin "b") := by
  have hrun : ((store (fun _ => 0) 0).follow (.start 0) (signIn ++ signOut)).any (fun q =>
      ((q.world.rosters.lookup theUser).any fun item => item.families.isNone) &&
        isFree q theUser "b" && hasSignedOut q) = true := by
    decide +kernel
  obtain ⟨q, hrun, htest⟩ := System.Run.of_follow_any hrun
  simp only [Bool.and_eq_true, Option.any_eq_true, isFree, Option.isNone_iff_eq_none] at htest
  obtain ⟨⟨⟨item, hitem, hnone⟩, huser, hfree⟩, hcall⟩ := htest
  refine ⟨_, q, hrun, returned_of_hasSignedOut hcall, huser, fun h => ?_⟩
  have hfamilies := (signsIn_iff (by decide) (by decide) (by decide) hitem hfree).mp h
  rw [hnone] at hfamilies
  cases hfamilies

end Dynamo

end OidcExchange
