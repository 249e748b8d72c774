import OidcExchange.Analysis.FamilyEnd
import OidcExchange.Analysis.Provenance
import OidcExchange.Storage.Ledger

/-!
# The service keeps a ledger of families

Seen from the outside the service keeps a ledger: a family is opened by a sign-in, its current
token is renewed by a refresh, and families are closed by every kind of revocation, by the removal
of their user, by the sweep. Every run of the service is a run of that ledger. So a family that
has no live session never has one again, and a token that has left the store never comes back.
-/

set_option autoImplicit false

namespace OidcExchange

open Storage Interleaving Service

/-! ## The ledger behind the store -/

/-- What has become of a family: its newest generation is live, or is not. -/
def phaseOf (m : ServiceMoment) (familyId : String) : Phase String :=
  match (generations m familyId).head? with
  | none => .unborn
  | some s =>
    if (m.world.sessions.lookup s.refreshTokenHash).isSome then .active s.refreshTokenHash
    else .ended

/-- The families with their current hashes, and the hashes that were ever installed. -/
def ledgerOf (m : ServiceMoment) : Ledger String String where
  phase := phaseOf m
  used := fun h => ∃ c s, (c, s) ∈ installs m ∧ s.refreshTokenHash = h

variable {d : Deployment} {m m' : ServiceMoment} {familyId h : String} {s : Session}

theorem mem_used : h ∈ (ledgerOf m).used ↔ ∃ c s, (c, s) ∈ installs m ∧ s.refreshTokenHash = h :=
  Iff.rfl

theorem phaseOf_unborn (hnone : generations m familyId = []) : phaseOf m familyId = .unborn := by
  simp [phaseOf, hnone]

theorem phaseOf_head (hhead : (generations m familyId).head? = some s) :
    phaseOf m familyId = if (m.world.sessions.lookup s.refreshTokenHash).isSome then
      .active s.refreshTokenHash else .ended := by
  simp only [phaseOf, hhead]

/-- A live session is current in its family. -/
theorem phaseOf_live (hl : Lineage d m) (hlive : m.world.sessions.lookup h = some s) :
    phaseOf m s.familyId = .active h := by
  obtain ⟨rfl, hhead⟩ := hl.live h s hlive
  rw [phaseOf_head hhead, hlive]
  rfl

/-- What is current in a family is a live session. -/
theorem live_of_active (hl : Lineage d m) (hactive : phaseOf m familyId = .active h) :
    ∃ s, m.world.sessions.lookup h = some s ∧ s.familyId = familyId := by
  unfold phaseOf at hactive
  split at hactive
  · cases hactive
  · rename_i s hhead
    split at hactive
    · rename_i hsome
      cases hactive
      obtain ⟨t, ht⟩ := Option.isSome_iff_exists.mp hsome
      obtain ⟨c, hs⟩ := (mem_generations.mp (List.mem_of_mem_head? hhead)).1
      obtain ⟨c', hinstalled⟩ := hl.installed_of_live ht
      obtain ⟨-, rfl⟩ := hl.install_unique hs hinstalled (hl.live _ t ht).1.symm
      exact ⟨s, ht, (mem_generations.mp (List.mem_of_mem_head? hhead)).2⟩
    · cases hactive

/-- **What the ledger says**: a hash is current in a family when a session of the family is live
under it. -/
theorem phaseOf_eq_active (hl : Lineage d m) :
    phaseOf m familyId = .active h ↔
      ∃ s, m.world.sessions.lookup h = some s ∧ s.familyId = familyId := by
  constructor
  · exact live_of_active hl
  · rintro ⟨s, hlive, rfl⟩
    exact phaseOf_live hl hlive

/-! ## Every step is a step of the ledger -/

/-- What installs nothing and leaves no session that was not there closes families. -/
theorem ledger_closed (hi : installs m' = installs m)
    (hw : ∀ h s, m'.world.sessions.lookup h = some s → m.world.sessions.lookup h = some s) :
    (ledgerOf m).Step (ledgerOf m') := by
  have hg : generations m' = generations m := by
    unfold generations
    rw [hi]
  refine .closed (fun f => ?_) (Set.ext fun h => by rw [mem_used, mem_used, hi])
  cases hhead : (generations m f).head? with
  | none => exact .inl (by simp only [ledgerOf, phaseOf, hg, hhead])
  | some s =>
    have hbefore := phaseOf_head hhead
    have hafter := @phaseOf_head m' f s (hg ▸ hhead)
    cases hlive' : m'.world.sessions.lookup s.refreshTokenHash with
    | some t =>
      have hlive := hw _ t hlive'
      rw [hlive] at hbefore
      rw [hlive'] at hafter
      exact .inl (hafter.trans hbefore.symm)
    | none =>
      rw [hlive'] at hafter
      cases hlive : m.world.sessions.lookup s.refreshTokenHash with
      | none =>
        rw [hlive] at hbefore
        exact .inl (hafter.trans hbefore.symm)
      | some t =>
        rw [hlive] at hbefore
        exact .inr ⟨⟨_, hbefore⟩, hafter⟩

/-- A session that was installed now is current in its family, and other families stay as they
are. -/
theorem phases_of_install (hl : Lineage d m) (hl' : Lineage d m') {c : ℕ}
    (hi : installs m' = (c, s) :: installs m)
    (hlookup : ∀ k, k ≠ s.refreshTokenHash → (∀ t, m.world.sessions.lookup k = some t →
      t.familyId ≠ s.familyId) → m'.world.sessions.lookup k = m.world.sessions.lookup k)
    (hlive : m'.world.sessions.lookup s.refreshTokenHash = some s) :
    phaseOf m' s.familyId = .active s.refreshTokenHash ∧
      (∀ f, f ≠ s.familyId → phaseOf m' f = phaseOf m f) ∧ s.refreshTokenHash ∉ (ledgerOf m).used ∧
      (ledgerOf m').used = insert s.refreshTokenHash (ledgerOf m).used := by
  have hnodup := hl'.hashes_nodup
  rw [hi, List.map_cons, List.nodup_cons] at hnodup
  have hfresh : s.refreshTokenHash ∉ (ledgerOf m).used := by
    rintro ⟨c', t, ht, heq⟩
    exact hnodup.1 (List.mem_map.mpr ⟨(c', t), ht, heq⟩)
  refine ⟨phaseOf_live hl' hlive, fun f hf => ?_, hfresh, ?_⟩
  · have hg : generations m' f = generations m f := by
      rw [Lineage.generations_of_cons hi, if_neg (Ne.symm hf)]
    cases hhead : (generations m f).head? with
    | none => simp only [phaseOf, hg, hhead]
    | some t =>
      have hinstalled := mem_generations.mp (List.mem_of_mem_head? hhead)
      have hsame : m'.world.sessions.lookup t.refreshTokenHash =
          m.world.sessions.lookup t.refreshTokenHash := by
        refine hlookup _ (fun heq => hfresh ?_) fun u hu hfamily => ?_
        · obtain ⟨⟨c', ht⟩, -⟩ := hinstalled
          exact ⟨c', t, ht, heq⟩
        · obtain ⟨c', ht⟩ := hinstalled.1
          obtain ⟨c'', hu'⟩ := hl.installed_of_live hu
          obtain ⟨-, rfl⟩ := hl.install_unique ht hu' (hl.live _ u hu).1.symm
          exact hf (hinstalled.2.symm.trans hfamily)
      rw [phaseOf_head hhead, @phaseOf_head m' f t (hg ▸ hhead), hsame]
  · ext k
    rw [mem_used, Set.mem_insert_iff, mem_used, hi]
    constructor
    · rintro ⟨c', t, hmem, rfl⟩
      rcases List.mem_cons.mp hmem with heq | hmem
      · obtain ⟨-, rfl⟩ := Prod.mk.inj heq
        exact .inl rfl
      · exact .inr ⟨c', t, hmem, rfl⟩
    · rintro (rfl | ⟨c', t, hmem, rfl⟩)
      · exact ⟨c, s, List.mem_cons_self, rfl⟩
      · exact ⟨c', t, List.mem_cons_of_mem _ hmem, rfl⟩

/-- **Every step of the core is a step of the ledger.** -/
theorem ledgerStep_of_coreStep (hl : Lineage d m ∧ Truthful m) (hl' : Lineage d m')
    (hstep : CoreStep d m m') : (ledgerOf m).Step (ledgerOf m') := by
  cases hstep with
  | shrank unseen shrinks _ =>
    exact ledger_closed (Moment.collect_performed_none _ _ _ unseen.install) shrinks.sessions
  | drifted shrinks => exact ledger_closed rfl shrinks.sessions
  | served ready hex =>
    rename_i request c x o ans w
    cases storeStep_of_exec hex with
    | drew raw _ => exact ledger_closed rfl fun _ _ h => h
    | drewFamily f _ _ => exact ledger_closed rfl fun _ _ h => h
    | stored s =>
      -- a session is stored in a family that was drawn for it
      have hunborn : generations m s.familyId = [] := by
        obtain ⟨req, -, ⟨user, raw, drawn, expiresAt, createdAt, rfl, -, -, hfamily, -⟩, halone⟩ :=
          ready
        exact hl.1.fresh_family halone (Moment.mem_collect_of_past hfamily rfl)
      obtain ⟨hphase, hothers, hfresh, hused⟩ := phases_of_install hl.1 hl'
        (Moment.collect_performed_some installOf m _ rfl)
        (fun k hk _ => (Table.lookup_insert_ite ..).trans (if_neg hk))
        ((Table.lookup_insert_ite ..).trans (if_pos rfl))
      exact .opened s.familyId s.refreshTokenHash (phaseOf_unborn hunborn) hfresh hphase hothers
        hused
    | rotated k r live retired hlive _ _ _ =>
      -- a swap replaces the live generation of the family
      obtain ⟨hsucc, -⟩ := succeeds_of_rotateReady hl.1 hl.2 ready hlive
      have hfamily : live.familyId = r.familyId := hsucc.same.familyId.symm
      obtain ⟨hphase, hothers, hfresh, hused⟩ := phases_of_install hl.1 hl'
        (Moment.collect_performed_some installOf m _ rfl)
        (fun k' hk' hother => (Table.lookup_insert_ite ..).trans <| (if_neg hk').trans <|
          (Table.lookup_erase_ite ..).trans <| if_neg fun (heq : k' = k) =>
            hother live (heq ▸ hlive) hfamily)
        ((Table.lookup_insert_ite ..).trans (if_pos rfl))
      exact .renewed r.familyId k r.refreshTokenHash (hfamily ▸ phaseOf_live hl.1 hlive) hfresh hphase
        hothers hused
    | shrank unseen shrinks =>
      exact ledger_closed (Moment.collect_performed_none _ _ _ unseen.install) shrinks.sessions

/-! ## Runs -/

section Runs

variable {sessionIdForFamily : String → String} {Bytes : Type} {W : Wire Bytes}
  {K : KeyManager Bytes}

/-- What the ledger can have become since it was `l`, kept by every step of the service. -/
def ledgerProtocol (d : Deployment) (sessionIdForFamily : String → String)
    (l : Ledger String String) :
    Protocol (adminSemantics d) (AppReady d sessionIdForFamily) where
  inv m := (Lineage d (AppMoment.core m) ∧ Truthful (AppMoment.core m)) ∧
    l.Reaches (ledgerOf (AppMoment.core m))
  allowed _ _ _ _ := True
  begins h _ := h
  performs h _ hready _ hex :=
    have hstep := coreStep_of_appReady hready hex
    have hlineage := hstep.lineage h.1
    ⟨hlineage, h.2.tail (ledgerStep_of_coreStep h.1 hlineage.1 hstep)⟩
  ends h _ := h
  drifts h hdrift :=
    have hstep := coreStep_of_drift hdrift
    have hlineage := hstep.lineage h.1
    ⟨hlineage, h.2.tail (ledgerStep_of_coreStep h.1 hlineage.1 hstep)⟩

/-- The lineage of families, in every run of the whole service. -/
theorem appLineage_of_run {meets : AppPool → AppAct → Prop} {clock : Instant} {p : AppPool}
    {as : List AppAct}
    (hrun : (appService d sessionIdForFamily W K).Run meets (AppPool.start clock) as p) :
    (Lineage d (AppMoment.core p.toMoment) ∧ Truthful (AppMoment.core p.toMoment)) ∧
      (ledgerOf (AppMoment.core (AppPool.start clock).toMoment)).Reaches
        (ledgerOf (AppMoment.core p.toMoment)) :=
  (ledgerProtocol d sessionIdForFamily _).run (answerApp_obeys d sessionIdForFamily W K)
    (hrun.mono fun _ _ _ _ _ _ _ => trivial) (Disciplined.initial _)
    ⟨lineage_start d clock, .refl⟩

theorem ledgerOf_start (clock : Instant) :
    ledgerOf (AppMoment.core (AppPool.start clock).toMoment) = Ledger.blank := by
  have hinstalls : installs (AppMoment.core (AppPool.start clock).toMoment) = [] := rfl
  have hphase : phaseOf (AppMoment.core (AppPool.start clock).toMoment) = fun _ => .unborn := by
    funext f
    exact phaseOf_unborn (by rw [generations, hinstalls]; rfl)
  have hused : (ledgerOf (AppMoment.core (AppPool.start clock).toMoment)).used = ∅ := by
    ext k
    rw [mem_used, hinstalls]
    simp
  rw [Ledger.blank, ← hphase, ← hused]
  rfl

/-- From any state of a run on, the ledger moves on. -/
theorem ledger_reaches {meets meets' : AppPool → AppAct → Prop} {clock : Instant} {p q : AppPool}
    {as as' : List AppAct}
    (hrun : (appService d sessionIdForFamily W K).Run meets (AppPool.start clock) as p)
    (hrun' : (appService d sessionIdForFamily W K).Run meets' p as' q) :
    (ledgerOf (AppMoment.core p.toMoment)).Reaches (ledgerOf (AppMoment.core q.toMoment)) := by
  have hbody := answerApp_obeys d sessionIdForFamily W K
  exact ((ledgerProtocol d sessionIdForFamily _).run hbody
    (hrun'.mono fun _ _ _ _ _ _ _ => trivial) ((Disciplined.initial _).run hbody hrun)
    ⟨(appLineage_of_run hrun).1, .refl⟩).2

/-- **The service refines the ledger**: in every run of the whole service, the families and their
live sessions go through a run of the ledger that starts blank; a family is active there with the
hash under which a session of it is live, and no hash is current in two families. -/
theorem service_refines_ledger {clock : Instant} {p q : AppPool} {as as' : List AppAct}
    (hrun : (appService d sessionIdForFamily W K).Run System.anyStep (AppPool.start clock) as p)
    (hrun' : (appService d sessionIdForFamily W K).Run System.anyStep p as' q) :
    Ledger.blank.Reaches (ledgerOf (AppMoment.core p.toMoment)) ∧
      (ledgerOf (AppMoment.core p.toMoment)).Reaches (ledgerOf (AppMoment.core q.toMoment)) ∧
      (ledgerOf (AppMoment.core q.toMoment)).Sound ∧
      ∀ familyId h, (ledgerOf (AppMoment.core q.toMoment)).phase familyId = .active h ↔
        ∃ s, q.world.sessions.lookup h = some s ∧ s.familyId = familyId := by
  obtain ⟨-, hstart⟩ := appLineage_of_run hrun
  obtain ⟨⟨hl, -⟩, hreached⟩ := appLineage_of_run (hrun.trans hrun')
  rw [ledgerOf_start] at hstart hreached
  exact ⟨hstart, ledger_reaches hrun hrun', Ledger.Reaches.sound hreached Ledger.sound_blank,
    fun familyId h => phaseOf_eq_active hl⟩

/-- After a sign-in and a refresh the family is active with the refreshed token. -/
theorem service_refines_ledger_refreshed : ∃ p s,
    Sample.app.Run System.anyStep (AppPool.start 0) Sample.signedInAndRefreshed p ∧
      p.world.sessions.lookup (Sample.digest "b") = some s ∧
      (ledgerOf (AppMoment.core p.toMoment)).phase s.familyId = .active (Sample.digest "b") := by
  obtain ⟨p, hrun, ⟨s, hs⟩, -⟩ := Sample.run_refreshed
  obtain ⟨-, -, -, hphases⟩ := service_refines_ledger hrun (.refl p)
  exact ⟨p, s, hrun, hs, (hphases s.familyId _).mpr ⟨s, hs, rfl⟩⟩

/-- **What is gone stays gone**: once a session that was installed is no longer live, whatever
removed it, no session is ever live under its hash again; and once a family has no live session,
no session of it is ever live again. -/
theorem removed_never_returns {clock : Instant} {p q : AppPool} {as as' : List AppAct}
    (hrun : (appService d sessionIdForFamily W K).Run System.anyStep (AppPool.start clock) as p)
    (hrun' : (appService d sessionIdForFamily W K).Run System.anyStep p as' q)
    {c : ℕ} {s : Session} (hinstalled : (c, s) ∈ installs (AppMoment.core p.toMoment)) :
    (p.world.sessions.lookup s.refreshTokenHash = none →
      q.world.sessions.lookup s.refreshTokenHash = none) ∧
    ((∀ h t, p.world.sessions.lookup h = some t → t.familyId ≠ s.familyId) →
      ∀ h t, q.world.sessions.lookup h = some t → t.familyId ≠ s.familyId) := by
  obtain ⟨⟨hl, -⟩, -⟩ := appLineage_of_run hrun
  obtain ⟨⟨hl', -⟩, -⟩ := appLineage_of_run (hrun.trans hrun')
  have hreaches := ledger_reaches hrun hrun'
  constructor
  · intro hgone
    cases hlive : q.world.sessions.lookup s.refreshTokenHash with
    | none => rfl
    | some t =>
      refine absurd (phaseOf_live hl' hlive) (hreaches.spent ⟨c, s, hinstalled, rfl⟩ ?_ _)
      intro f hactive
      obtain ⟨u, hu, -⟩ := live_of_active hl hactive
      exact absurd (hgone.symm.trans hu) (by simp)
  · rintro hnone h t hlive hfamily
    have hphase := phaseOf_live hl' hlive
    rw [hfamily] at hphase
    have hended : phaseOf (AppMoment.core p.toMoment) s.familyId = .ended := by
      have hborn : s ∈ generations (AppMoment.core p.toMoment) s.familyId :=
        mem_generations.mpr ⟨⟨c, hinstalled⟩, rfl⟩
      cases hp : phaseOf (AppMoment.core p.toMoment) s.familyId with
      | active k =>
        obtain ⟨u, hu, hfamily'⟩ := live_of_active hl hp
        exact absurd hfamily' (hnone k u hu)
      | ended => rfl
      | unborn =>
        unfold phaseOf at hp
        split at hp
        · rename_i hhead
          rw [List.head?_eq_none_iff] at hhead
          rw [hhead] at hborn
          cases hborn
        · split at hp <;> cases hp
    cases (hreaches.ended hended).symm.trans hphase

end Runs

/-! ## Revocations -/

/-- The operation, answered as it was, takes the session out of the store. -/
def Revokes (o : Op) (ans : Ans o) (s : Session) : Prop :=
  match o, ans with
  | .revokeSession h, .ok _ => s.refreshTokenHash = h
  | .revokeFamily familyId, .ok _ => s.familyId = familyId
  | .revokeAllUserSessions userId, .ok _ => s.userId = userId
  | _, _ => False

/-- What a revocation leaves was there before, and is not what it was to remove. -/
theorem left_of_revokes {x : Choice} {c : ℕ} {o : Op} {ans : Ans o} {w w' : World}
    (hrevokes : Revokes o ans s) (hhash : s.refreshTokenHash = h)
    (hex : exec d x c o w = some (ans, w')) :
    (∀ k t, w'.sessions.lookup k = some t → w.sessions.lookup k = some t) ∧
      w'.sessions.lookup h ≠ some s := by
  have hshrinks : w.Shrinks w' := by
    cases storeStep_of_exec hex with
    | shrank _ shrinks => exact shrinks
    | drew raw _ => exact hrevokes.elim
    | drewFamily f _ _ => exact hrevokes.elim
    | stored t => exact hrevokes.elim
    | rotated _ _ _ _ _ _ _ _ => exact hrevokes.elim
  cases o with
  | revokeSession k =>
    cases ans with
    | error e => exact hrevokes.elim
    | ok u =>
      refine ⟨hshrinks.sessions, ?_⟩
      obtain rfl : h = k := hhash.symm.trans hrevokes
      obtain hdone | ⟨⟨e, he⟩, -⟩ := fallible_eq_some hex
      · unfold World.revokeSession at hdone
        split at hdone
        · cases congrArg Prod.fst hdone
        · obtain ⟨-, rfl⟩ := Prod.mk.inj hdone
          intro hs
          change (w.sessions.erase h).lookup h = some s at hs
          rw [Table.lookup_erase_ite, if_pos rfl] at hs
          cases hs
      · cases he
  | revokeFamily f =>
    cases ans with
    | error e => exact hrevokes.elim
    | ok n =>
      exact ⟨hshrinks.sessions, fun hs => (revokeFamily_leaves hex).1 h s hs hrevokes⟩
  | revokeAllUserSessions u =>
    cases ans with
    | error e => exact hrevokes.elim
    | ok n =>
      exact ⟨hshrinks.sessions,
        fun hs => revokeAllUserSessions_leaves hex h s hs hrevokes⟩
  | _ => exact hrevokes.elim

variable {sessionIdForFamily : String → String} {Bytes : Type} {W : Wire Bytes}
  {K : KeyManager Bytes}

/-- **Every revocation is final**: whatever call takes a live session out of the store, by its
hash, its family or its user, no session of that family is ever live again. -/
theorem revocations_final {clock : Instant} {p p' q : AppPool} {a : AppAct} {as as' : List AppAct}
    {c : ℕ} {o : Op} {ans : Ans o} {h : String} {s : Session}
    (hrun : (appService d sessionIdForFamily W K).Run System.anyStep (AppPool.start clock) as p)
    (hanswers : Pool.Answers (adminSemantics d) (answerApp d sessionIdForFamily W K) p a p' c
      (.token (.port o)) ans)
    (hlive : p.world.sessions.lookup h = some s) (hrevokes : Revokes o ans s)
    (hrun' : (appService d sessionIdForFamily W K).Run System.anyStep p' as' q) :
    ∀ k t, q.world.sessions.lookup k = some t → t.familyId ≠ s.familyId := by
  obtain ⟨⟨hl, -⟩, -⟩ := appLineage_of_run hrun
  obtain ⟨x, hex⟩ := hanswers.world
  obtain ⟨-, -, -, -, -, -, -, hstep⟩ := hanswers
  obtain ⟨hkept, hgone⟩ :=
    left_of_revokes (d := d) (x := x) (c := c) hrevokes (hl.live h s hlive).1 hex
  have hinstalled : ∃ c', (c', s) ∈ installs (AppMoment.core p'.toMoment) := by
    obtain ⟨c', hmem⟩ := hl.installed_of_live hlive
    exact ⟨c', ((core_history_suffix (Pool.history_of_step hstep)).filterMap _).subset hmem⟩
  obtain ⟨c', hinstalled⟩ := hinstalled
  refine (removed_never_returns (hrun.trans (.single trivial hstep)) hrun' hinstalled).2 ?_
  intro k t ht hfamily
  have hphase := phaseOf_live hl (hkept k t ht)
  rw [hfamily] at hphase
  cases hphase.symm.trans (phaseOf_live hl hlive)
  cases (hkept h t ht).symm.trans hlive
  exact hgone ht

/-! ## An operator revokes the sessions of a user -/

namespace Sample

/-- The user signs in, and an operator is about to remove the user's sessions. -/
def revokingSessions : List AppAct :=
  (tokenSignIn "a").map tokenStep ++
    appCall 1 (.admin (.revokeUserSessions operator theUser)) [.proceed]

/-- Call 1 is about to remove the user's sessions. -/
def removesSessions (p : AppPool) : Bool :=
  match p.calls 1 with
  | some ⟨_, .perform (.token (.port (.revokeAllUserSessions userId))) _⟩ => userId == theUser
  | _ => false

end Sample

open Sample in
/-- The session of the sign-in is removed, and its family is over. -/
theorem revocations_final_operator : ∃ p p' s, ∃ ans : Ans (.revokeAllUserSessions theUser),
    Pool.Answers (adminSemantics (deployment true)) (answerApp (deployment true) id noWire noKeys)
      p (.advance 1 .proceed) p' 1 (.token (.port (.revokeAllUserSessions theUser))) ans ∧
    p.world.sessions.lookup (digest "a") = some s ∧
    ∀ k t, p'.world.sessions.lookup k = some t → t.familyId ≠ s.familyId := by
  have hruns : (app.follow (AppPool.start 0) revokingSessions).any (fun p =>
      removesSessions p && (p.world.sessions.lookup (digest "a")).any (·.userId == theUser) &&
        (app.step p (.advance 1 .proceed)).isSome) = true := by
    decide +kernel
  obtain ⟨p, hrun, htest⟩ := System.Run.of_follow_any hruns
  simp only [Bool.and_eq_true] at htest
  obtain ⟨⟨hcall, hsession⟩, hnext⟩ := htest
  obtain ⟨s, hlive, huser⟩ := (Option.any_eq_true _ _).mp hsession
  obtain ⟨p', hstep⟩ := Option.isSome_iff_exists.mp hnext
  unfold removesSessions at hcall
  split at hcall
  · rename_i request userId next hc
    obtain rfl := eq_of_beq hcall
    have hanswers : Pool.Answers (adminSemantics (deployment true))
        (answerApp (deployment true) id noWire noKeys) p (.advance 1 .proceed) p' 1
        (.token (.port (.revokeAllUserSessions theUser)))
        (p.world.revokeAllUserSessions theUser).1 :=
      ⟨.proceed, request, next, (p.world.revokeAllUserSessions theUser).2, rfl, hc, rfl, hstep⟩
    exact ⟨p, p', s, _, hanswers, hlive,
      revocations_final hrun hanswers hlive (eq_of_beq huser) (.refl p')⟩
  · exact absurd hcall (by simp)

end OidcExchange
