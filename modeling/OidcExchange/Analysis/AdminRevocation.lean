import OidcExchange.Analysis.AdminFlow
import OidcExchange.Analysis.FamilyEnd
import OidcExchange.Storage.Table

/-!
# Administrative revocation of one session

The family an administrator's call removes was listed among the sessions of the user it names. A
removal that found something leaves nothing of the family, neither a session nor a retired token,
and nothing of it ever comes back; so only one call can be told that it has revoked the session.
-/

set_option autoImplicit false

namespace OidcExchange

open Storage Interleaving Service

variable {d : Deployment}

/-! ## A family that is gone -/

/-- The family has ended and has no retired token left. -/
structure FamilyGone (m : ServiceMoment) (familyId : String) : Prop where
  ended : Ended m familyId
  noRetired : ∀ h r, m.world.retired.lookup h = some r → r.familyId ≠ familyId

section Gone

variable {m m' : ServiceMoment} {familyId : String}

theorem FamilyGone.shrink (h : FamilyGone m familyId) (hi : installs m' = installs m)
    (hw : m.world.Shrinks m'.world) : FamilyGone m' familyId where
  ended := h.ended.shrink hi hw
  noRetired k r hr := h.noRetired k r (hw.retired k r hr)

/-- A family that is gone stays so. -/
theorem FamilyGone.performs (h : FamilyGone m familyId) (hl : Lineage d m) (htruth : Truthful m)
    {request : Request} {c : ℕ} {x : Choice} {o : Op} {ans : Ans o} {w : World}
    (hready : Ready d request (m.past c) o) (hex : exec d x c o m.world = some (ans, w)) :
    FamilyGone (m.performed c o ans w) familyId where
  ended := (h.ended.performs hl htruth hready hex).1
  noRetired := by
    cases storeStep_of_exec hex with
    | drew raw _ => exact h.noRetired
    | drewFamily drawn _ _ => exact h.noRetired
    | stored s => exact h.noRetired
    | rotated k r live retired hlive _ _ hretires =>
      obtain ⟨-, rfl⟩ | ⟨record, hrecord, rfl⟩ := hretires
      · exact h.noRetired
      · intro k' r' hr'
        change (m.world.retired.insert k record).lookup k' = some r' at hr'
        rw [Table.lookup_insert_ite] at hr'
        by_cases hk : k' = k
        · rw [if_pos hk] at hr'
          obtain rfl := Option.some.inj hr'
          rw [hrecord.family]
          exact h.ended.noLive k live hlive
        · rw [if_neg hk] at hr'
          exact h.noRetired k' r' hr'
    | shrank _ hshrinks => exact fun k r hr => h.noRetired k r (hshrinks.retired k r hr)

/-- No step of the core brings a family back that is gone, or adds to it. -/
theorem FamilyGone.coreStep (h : FamilyGone m familyId) (hl : Lineage d m ∧ Truthful m)
    (hstep : CoreStep d m m') : FamilyGone m' familyId ∧
      generations m' familyId = generations m familyId ∧
      winners m' familyId = winners m familyId := by
  cases hstep with
  | served ready hex =>
    exact ⟨h.performs hl.1 hl.2 ready hex, (h.ended.performs hl.1 hl.2 ready hex).2⟩
  | @shrank c x o ans w unseen shrinks hex =>
    have hi := Moment.collect_performed_none (c := c) _ m w unseen.install
    have hr := Moment.collect_performed_none (c := c) _ m w unseen.rotation
    refine ⟨h.shrink hi shrinks, ?_, ?_⟩
    · simp only [generations, installs, hi]
    · simp only [winners, rotations, hr]
  | drifted shrinks => exact ⟨h.shrink rfl shrinks, rfl, rfl⟩

/-- What is left of a family: a live session or a retired token. -/
def LeftOf (w : World) (familyId : String) : Prop :=
  (∃ h s, w.sessions.lookup h = some s ∧ s.familyId = familyId) ∨
    ∃ h r, w.retired.lookup h = some r ∧ r.familyId = familyId

/-- What is left of a family was once installed. -/
theorem founded_of_left (hl : Lineage d m) (h : LeftOf m.world familyId) :
    generations m familyId ≠ [] := by
  obtain ⟨k, s, hs, rfl⟩ | ⟨k, r, hr, rfl⟩ := h
  · obtain ⟨c, hinstalled⟩ := hl.installed_of_live hs
    exact List.ne_nil_of_mem (mem_generations.mpr ⟨⟨c, hinstalled⟩, rfl⟩)
  · obtain ⟨c, s, hswapped, -, hfamily, -⟩ := hl.retired k r hr
    exact List.ne_nil_of_mem
      (mem_generations.mpr ⟨⟨c, (hl.rotated_from c k s hswapped).1⟩, hfamily.symm⟩)

theorem FamilyGone.not_left (h : FamilyGone m familyId) : ¬LeftOf m.world familyId := by
  rintro (⟨k, s, hs, hfamily⟩ | ⟨k, r, hr, hfamily⟩)
  · exact h.ended.noLive k s hs hfamily
  · exact h.noRetired k r hr hfamily

/-- The generations of a family are of one user. -/
theorem userId_of_generations (hl : Lineage d m) {s t : Session}
    (hs : s ∈ generations m familyId) (ht : t ∈ generations m familyId) :
    s.userId = t.userId := by
  cases hlast : (generations m familyId).getLast? with
  | none =>
    rw [List.getLast?_eq_none_iff.mp hlast] at hs
    exact nomatch hs
  | some first =>
    have hsame := Lineage.sameSignIn_of_isChain (hl.chain familyId) hlast
    rw [(hsame s hs).userId, (hsame t ht).userId]

end Gone

/-- A removal that counts something has found something of the family. -/
theorem left_of_revokeFamily {x : Choice} {c : ℕ} {w w' : World} {familyId : String} {count : ℕ}
    (hex : exec d x c (.revokeFamily familyId) w = some (.ok count, w')) (hcount : 0 < count) :
    LeftOf w familyId := by
  obtain hdone | ⟨⟨e, he⟩, -⟩ := fallible_eq_some hex
  · unfold World.revokeFamily at hdone
    split at hdone
    · exact nomatch (Prod.mk.inj hdone).1
    · obtain ⟨hans, -⟩ := Prod.mk.inj hdone
      obtain rfl := Except.ok.inj hans
      by_cases hlive : 0 < Table.countWhere w.sessions fun _ s => s.familyId == familyId
      · obtain ⟨k, s, hs, hfamily⟩ := Table.exists_of_countWhere_pos _ hlive
        exact .inl ⟨k, s, hs, beq_iff_eq.mp hfamily⟩
      · have hretired : 0 < Table.countWhere w.retired fun _ r => r.familyId == familyId := by
          omega
        obtain ⟨k, r, hr, hfamily⟩ := Table.exists_of_countWhere_pos _ hretired
        exact .inr ⟨k, r, hr, beq_iff_eq.mp hfamily⟩
  · exact nomatch he

/-! ## The ledger -/

/-- What administrators were shown, and what was removed. -/
structure AdminLedger (d : Deployment) (m : AdminMoment) : Prop where
  lineage : TokenLineage d m.tokens
  /-- A listed session was installed and is the user's. -/
  listed : ∀ c userId now limit sessions s,
    .performed c (.listLiveSessions userId now limit) (.ok sessions) ∈ m.history → s ∈ sessions →
      s.userId = userId ∧ ∃ c', (c', s) ∈ installs m.core
  /-- A family of which something was removed is gone. -/
  gone : ∀ c familyId count, 0 < count →
    .performed c (.token (.port (.revokeFamily familyId))) (.ok count) ∈ m.history →
      FamilyGone m.core familyId
  /-- Only one call has removed something of a family. -/
  once : ∀ c c' familyId count count', 0 < count → 0 < count' →
    .performed c (.token (.port (.revokeFamily familyId))) (.ok count) ∈ m.history →
    .performed c' (.token (.port (.revokeFamily familyId))) (.ok count') ∈ m.history → c = c'
  /-- No lookup and no listing has panicked. -/
  calm : ∀ c o ans, .performed c o ans ∈ m.history → ¬ Panics ⟨o, ans⟩

section Ledger

variable {m : AdminMoment} {sessionIdForFamily : String → String} {request : AdminRequest} {c : ℕ}
  {x : Choice} {o : AdminOp} {ans : AdminAns o} {w : World}

/-- A session that is listed is live and the user's. -/
theorem mem_listLiveSessions {w : World} {userId : String} {now : Instant} {limit : ℕ}
    {s : Session} (h : s ∈ w.listLiveSessions userId now limit) :
    s.userId = userId ∧ ∃ k, w.sessions.lookup k = some s := by
  obtain ⟨hmem, hkept⟩ := List.mem_filter.mp
    ((List.perm_insertionSort _ _).subset (List.mem_of_mem_take h))
  obtain ⟨⟨k, t⟩, hentry, rfl⟩ := List.mem_map.mp hmem
  obtain ⟨huser, -⟩ := Bool.and_eq_true _ _ ▸ hkept
  exact ⟨beq_iff_eq.mp huser, k, (AList.mem_lookup_iff ..).mpr hentry⟩

/-- No lookup and no listing panics. -/
theorem calm_of_exec (hex : adminExec d x c o m.world = some (ans, w)) : ¬ Panics ⟨o, ans⟩ := by
  have hnot : ∀ {α : Type} {a : α} {ans : Answer α},
      fallible m.world x (.ok a, m.world) = some (ans, w) → ans ≠ .error .panic := by
    rintro α a ans hex rfl
    obtain hdone | ⟨⟨e, he⟩, -⟩ := fallible_eq_some hex
    · exact nomatch (Prod.mk.inj hdone).1
    · exact nomatch he
  intro hpanics
  cases o with
  | listLiveSessions u t n =>
    have hne := hnot (show fallible m.world x (.ok _, m.world) = _ from hex)
    unfold Panics at hpanics
    split at hpanics <;> simp_all
  | token o =>
    cases o with
    | getSessionByRefreshToken h => exact hpanics
    | port o =>
      cases o with
      | getUserById u =>
        have hne := hnot (show fallible m.world x (.ok _, m.world) = _ from hex)
        unfold Panics at hpanics
        split at hpanics <;> simp_all
      | _ => exact hpanics

/-- A removal that finds something leaves nothing of the family. -/
theorem gone_of_removal {m : ServiceMoment} {familyId : String} {count : ℕ} (hl : Lineage d m)
    (hcount : 0 < count) (hex : exec d x c (.revokeFamily familyId) m.world = some (.ok count, w)) :
    FamilyGone (m.performed c (.revokeFamily familyId) (.ok count) w) familyId where
  ended := ⟨founded_of_left (m := m) hl (left_of_revokeFamily hex hcount),
    (revokeFamily_leaves hex).1⟩
  noRetired := (revokeFamily_leaves hex).2

/-- Every operation of a compliant call keeps the ledger. -/
theorem AdminLedger.performs (h : AdminLedger d m)
    (hready : AdminReady d sessionIdForFamily request (m.past c) o)
    (hex : adminExec d x c o m.world = some (ans, w)) :
    AdminLedger d (m.performed c o ans w) where
  lineage := (coreStep_of_ready hready hex).lineage h.lineage
  listed c' userId now limit sessions s hmem hs := by
    have hsubset := (coreStep_of_ready hready hex).installs_subset
    obtain heq | hmem := List.mem_cons.mp hmem
    · cases heq
      obtain hdone | ⟨⟨e, he⟩, -⟩ := fallible_eq_some (show fallible m.world x _ = _ from hex)
      · obtain rfl := Except.ok.inj (Prod.mk.inj hdone).1
        obtain ⟨huser, k, hlive⟩ := mem_listLiveSessions hs
        obtain ⟨c₁, hinstalled⟩ := h.lineage.1.installed_of_live (h := k) hlive
        exact ⟨huser, c₁, hsubset hinstalled⟩
      · exact nomatch he
    · obtain ⟨huser, c₁, hinstalled⟩ := h.listed c' userId now limit sessions s hmem hs
      exact ⟨huser, c₁, hsubset hinstalled⟩
  gone c' familyId count hcount hmem := by
    obtain heq | hmem := List.mem_cons.mp hmem
    · cases heq
      rw [adminCore_performed_token, core_performed_port]
      exact gone_of_removal h.lineage.1 hcount hex
    · exact ((h.gone c' familyId count hcount hmem).coreStep h.lineage
        (coreStep_of_ready hready hex)).1
  once c₁ c₂ familyId count₁ count₂ hcount₁ hcount₂ hmem₁ hmem₂ := by
    obtain heq₁ | hold₁ := List.mem_cons.mp hmem₁
    · obtain heq₂ | hold₂ := List.mem_cons.mp hmem₂
      · cases heq₁
        cases heq₂
        rfl
      · cases heq₁
        exact absurd (left_of_revokeFamily (d := d) (c := c) hex hcount₁)
          (h.gone _ _ _ hcount₂ hold₂).not_left
    · obtain heq₂ | hold₂ := List.mem_cons.mp hmem₂
      · cases heq₂
        exact absurd (left_of_revokeFamily (d := d) (c := c) hex hcount₂)
          (h.gone _ _ _ hcount₁ hold₁).not_left
      · exact h.once c₁ c₂ familyId count₁ count₂ hcount₁ hcount₂ hold₁ hold₂
  calm c' o' ans' hmem := by
    obtain heq | hmem := List.mem_cons.mp hmem
    · cases heq
      exact calm_of_exec hex
    · exact h.calm c' o' ans' hmem

/-- The ledger says nothing of the beginning and the end of a call. -/
theorem AdminLedger.congr {m' : AdminMoment} (h : AdminLedger d m)
    (htokens : m'.tokens = m.tokens)
    (hsubset : ∀ c o ans, .performed c o ans ∈ m'.history → .performed c o ans ∈ m.history) :
    AdminLedger d m' where
  lineage := htokens ▸ h.lineage
  listed c' userId now limit sessions s hmem hs := by
    rw [AdminMoment.core, htokens]
    exact h.listed c' userId now limit sessions s (hsubset _ _ _ hmem) hs
  gone c' familyId count hcount hmem := by
    rw [AdminMoment.core, htokens]
    exact h.gone c' familyId count hcount (hsubset _ _ _ hmem)
  once c₁ c₂ familyId count₁ count₂ hcount₁ hcount₂ hmem₁ hmem₂ :=
    h.once c₁ c₂ familyId count₁ count₂ hcount₁ hcount₂ (hsubset _ _ _ hmem₁) (hsubset _ _ _ hmem₂)
  calm c' o' ans' hmem := h.calm c' o' ans' (hsubset _ _ _ hmem)

theorem AdminLedger.drifts {k : Drift} (h : AdminLedger d m)
    (hdrift : drift k m.world = some w) : AdminLedger d (m.drifted w) where
  lineage := h.lineage.drifts hdrift
  listed := h.listed
  gone c' familyId count hcount hmem :=
    (h.gone c' familyId count hcount hmem).shrink rfl (shrinks_of_drift hdrift).1
  once := h.once
  calm := h.calm

/-- The ledger, kept by every step. -/
def adminProtocol (d : Deployment) (sessionIdForFamily : String → String) :
    Protocol (adminSemantics d) (AdminReady d sessionIdForFamily) where
  inv := AdminLedger d
  allowed _ _ _ _ := True
  begins h _ := h.congr rfl fun _ _ _ hmem => (List.mem_cons.mp hmem).resolve_left nofun
  performs h _ hready _ hex := h.performs hready hex
  ends h _ := h.congr rfl fun _ _ _ hmem => (List.mem_cons.mp hmem).resolve_left nofun
  drifts h hdrift := h.drifts hdrift

theorem adminLedger_start (d : Deployment) (clock : Instant) :
    AdminLedger d (AdminPool.start clock).toMoment where
  lineage := lineage_start d clock
  listed _ _ _ _ _ _ hmem := nomatch hmem
  gone _ _ _ _ hmem := nomatch hmem
  once _ _ _ _ _ _ _ hmem := nomatch hmem
  calm _ _ _ hmem := nomatch hmem

end Ledger

/-! ## What is removed -/

/-- The family has the identifier, and its generations are the user's. -/
structure IsFamilyOf (sessionIdForFamily : String → String) (m : ServiceMoment)
    (userId sessionId familyId : String) : Prop where
  identifier : sessionIdForFamily familyId = sessionId
  founded : generations m familyId ≠ []
  owner : ∀ s ∈ generations m familyId, s.userId = userId

/-- The second world is the first without the sessions and the retired tokens of the family. -/
structure World.WithoutFamily (w w' : World) (familyId : String) : Prop where
  sessions : ∀ h s, w'.sessions.lookup h = some s ↔
    w.sessions.lookup h = some s ∧ s.familyId ≠ familyId
  retired : ∀ h r, w'.retired.lookup h = some r ↔
    w.retired.lookup h = some r ∧ r.familyId ≠ familyId
  others : w' = { w with sessions := w'.sessions, retired := w'.retired }

/-- A family revocation that is answered with a count removes the family and nothing else. -/
theorem withoutFamily_of_exec {x : Choice} {c : ℕ} {w w' : World} {familyId : String} {count : ℕ}
    (hex : exec d x c (.revokeFamily familyId) w = some (.ok count, w')) :
    w.WithoutFamily w' familyId := by
  obtain hdone | ⟨⟨e, he⟩, -⟩ := fallible_eq_some hex
  · unfold World.revokeFamily at hdone
    split at hdone
    · exact nomatch (Prod.mk.inj hdone).1
    · obtain ⟨-, rfl⟩ := Prod.mk.inj hdone
      refine ⟨fun h s => ?_, fun h r => ?_, rfl⟩
      · refine Table.lookup_deleteWhere_eq_some.trans (and_congr_right fun _ => ?_)
        exact beq_eq_false_iff_ne
      · refine Table.lookup_deleteWhere_eq_some.trans (and_congr_right fun _ => ?_)
        exact beq_eq_false_iff_ne
  · exact nomatch he

/-- A family revocation that fails leaves the store alone. -/
theorem same_of_failed_removal {x : Choice} {c : ℕ} {w w' : World} {familyId : String}
    {fault : Fault Error}
    (hex : exec d x c (.revokeFamily familyId) w = some (.error fault, w')) : w' = w := by
  obtain hdone | ⟨-, hw⟩ := fallible_eq_some hex
  · unfold World.revokeFamily at hdone
    split at hdone
    · exact (Prod.mk.inj hdone).2.symm
    · exact nomatch (Prod.mk.inj hdone).1
  · exact hw

/-- What is done besides leaves the world alone. -/
theorem same_of_attends {x : Choice} {c : ℕ} {o : Op} {ans : Ans o} {w w' : World}
    (ho : o.Attends) (hex : exec d x c o w = some (ans, w')) : w' = w := by
  cases o with
  | now => exact (Prod.mk.inj (Option.some.inj hex)).2.symm
  | getUserById u =>
    obtain hdone | ⟨-, hw⟩ := fallible_eq_some hex
    · exact (Prod.mk.inj hdone).2.symm
    · exact hw
  | emit event =>
    obtain hdone | ⟨-, hw⟩ := fallible_eq_some hex
    · exact (Prod.mk.inj hdone).2.symm
    · exact hw
  | _ => exact ho.elim

section Removal

variable {m : AdminMoment} {sessionIdForFamily : String → String}
  {userId sessionId familyId : String}

/-- A family that was listed for a user is the user's. -/
theorem AdminLedger.isFamilyOf (h : AdminLedger d m) {c : ℕ}
    (hlisted : FamilyListed sessionIdForFamily userId sessionId (m.past c) familyId) :
    IsFamilyOf sessionIdForFamily m.core userId sessionId familyId := by
  obtain ⟨hid, now, limit, sessions, s, hmem, hs, rfl⟩ := hlisted
  obtain ⟨huser, c', hinstalled⟩ := h.listed c userId now limit sessions s
    ((Moment.mem_past ..).mp hmem) hs
  have hgen : s ∈ generations m.core s.familyId := mem_generations.mpr ⟨⟨c', hinstalled⟩, rfl⟩
  exact ⟨hid, List.ne_nil_of_mem hgen, fun t ht =>
    (userId_of_generations h.lineage.1 ht hgen).trans huser⟩

/-- An operation of an administrator's call changes the world only by removing a family of the
user that has the identifier. -/
theorem removal_of_step (h : AdminLedger d m) {operator : OperatorPrincipal} {c : ℕ} {x : Choice}
    {o : AdminOp} {ans : AdminAns o} {w : World}
    (hready : AdminReady d sessionIdForFamily (.revokeUserSession operator userId sessionId)
      (m.past c) o) (hex : adminExec d x c o m.world = some (ans, w)) :
    w = m.world ∨ ∃ familyId, IsFamilyOf sessionIdForFamily m.core userId sessionId familyId ∧
      m.world.WithoutFamily w familyId := by
  cases o with
  | listLiveSessions u t n =>
    obtain hdone | ⟨-, hw⟩ := fallible_eq_some (show fallible m.world x _ = _ from hex)
    · exact .inl (Prod.mk.inj hdone).2.symm
    · exact .inl hw
  | token o =>
    cases o with
    | getSessionByRefreshToken h => exact hready.elim
    | port o =>
      have hex : exec d x c o m.world = some (ans, w) := hex
      obtain ho | ⟨f, rfl⟩ | ⟨u, rfl⟩ := removes_of_ready hready fun _ => nofun
      · exact .inl (same_of_attends ho hex)
      · cases ans with
        | error fault => exact .inl (same_of_failed_removal hex)
        | ok count => exact .inr ⟨f, h.isFamilyOf hready, withoutFamily_of_exec hex⟩
      · exact (show False from hready).elim

end Removal

/-! ## From the removal on -/

/-- The family is over since `p`: nothing is left of it, nothing was installed or swapped in it
since, and no call that read its token after `p` has redeemed it. -/
structure FamilyOver (d : Deployment) (p : AdminPool) (familyId : String) (q : AdminPool) :
    Prop where
  noSession : ∀ h s, q.world.sessions.lookup h = some s → s.familyId ≠ familyId
  noRetired : ∀ h r, q.world.retired.lookup h = some r → r.familyId ≠ familyId
  unextended : generations (AdminMoment.core q.toMoment) familyId =
    generations (AdminMoment.core p.toMoment) familyId
  unswapped : winners (AdminMoment.core q.toMoment) familyId =
    winners (AdminMoment.core p.toMoment) familyId
  refused : ∀ c req tokens,
    (∀ h ans, .performed c (.token (.port (.resolveRefreshToken h))) ans ∉ p.history) →
    q.Returned c (.token (.served (.refresh req))) (.token (.served (.tokens tokens))) →
    ∀ s ∈ generations (AdminMoment.core q.toMoment) familyId,
      s.refreshTokenHash ≠ d.digest req.refreshToken

/-- No generation of a family that is gone is redeemed. -/
theorem not_redeemed_of_gone {m : TokenMoment} {familyId k : String} {c : ℕ} {x : Choice}
    {o : RevokeOp} {ans : RevokeAns o} {w : World} (hgone : FamilyGone m.core familyId)
    (hl : Lineage d m.core) (hex : revokeExec d x c o m.world = some (ans, w))
    (hredeems : RedeemsBy o ans k) {s : Session} (hs : s ∈ generations m.core familyId) :
    s.refreshTokenHash ≠ k := by
  rintro rfl
  obtain ⟨⟨c₁, hinstalled⟩, hfamily⟩ := mem_generations.mp hs
  -- a session under the hash is this generation
  have hnone : ∀ t, m.core.world.sessions.lookup s.refreshTokenHash ≠ some t := by
    intro t hlive
    obtain ⟨c₂, hinstalled'⟩ := hl.installed_of_live hlive
    obtain ⟨-, rfl⟩ := hl.install_unique hinstalled hinstalled' (hl.live _ t hlive).1.symm
    exact hgone.ended.noLive _ _ hlive hfamily
  unfold RedeemsBy at hredeems
  split at hredeems
  · subst hredeems
    rename_i r
    have hex : exec d x c (.rotateRefreshToken s.refreshTokenHash r) m.core.world =
      some (.ok true, w) := hex
    cases storeStep_of_exec hex with
    | rotated _ _ live _ hlive _ _ _ => exact hnone live hlive
    | shrank hunseen _ => exact nomatch hunseen.rotation
  · rename_i resolution
    obtain ⟨rfl, hredeemable⟩ := hredeems
    have hshows := (resolve_of_exec (d := d) (c := c) hex).1
    cases resolution with
    | live t => exact hnone t hshows
    | superseded t retiredAt =>
      -- the record of a generation names its family
      obtain ⟨-, record, hrecord, -, -⟩ := hshows
      obtain ⟨c₂, r, hwon, -, hnamed, -⟩ := hl.retired _ record hrecord
      obtain ⟨-, c₃, s', hinstalled', hhash, hsucceeds⟩ := hl.rotated_from _ _ _ hwon
      obtain ⟨-, rfl⟩ := hl.install_unique hinstalled hinstalled' hhash.symm
      exact hgone.noRetired _ record hrecord
        ((hnamed.trans hsucceeds.same.familyId).trans hfamily)
    | _ => exact hredeemable.elim
  · exact hredeems

/-- Since `p` the family is gone and has not grown, and nothing of it was redeemed. -/
structure GoneSince (d : Deployment) (p : AdminMoment) (familyId : String) (m : AdminMoment) :
    Prop where
  ledger : AdminLedger d m
  gone : FamilyGone m.core familyId
  unextended : generations m.core familyId = generations p.core familyId
  unswapped : winners m.core familyId = winners p.core familyId
  unredeemed : ∀ c o ans, .performed c (.token o) ans ∈ m.history →
    .performed c (.token o) ans ∉ p.history → ∀ k, RedeemsBy o ans k →
      ∀ s ∈ generations p.core familyId, s.refreshTokenHash ≠ k

section Since

variable {p m : AdminMoment} {familyId : String} {sessionIdForFamily : String → String}

theorem GoneSince.performs (h : GoneSince d p familyId m) {request : AdminRequest} {c : ℕ}
    {x : Choice} {o : AdminOp} {ans : AdminAns o} {w : World}
    (hready : AdminReady d sessionIdForFamily request (m.past c) o)
    (hex : adminExec d x c o m.world = some (ans, w)) :
    GoneSince d p familyId (m.performed c o ans w) := by
  obtain ⟨hgone, hgens, hwon⟩ := h.gone.coreStep h.ledger.lineage (coreStep_of_ready hready hex)
  refine ⟨h.ledger.performs hready hex, hgone, hgens.trans h.unextended, hwon.trans h.unswapped, ?_⟩
  intro c' o' ans' hmem hnew k hredeems s hs
  obtain heq | hmem := List.mem_cons.mp hmem
  · cases heq
    rw [← h.unextended] at hs
    exact not_redeemed_of_gone (m := m.tokens) h.gone h.ledger.lineage.1 hex hredeems hs
  · exact h.unredeemed c' o' ans' hmem hnew k hredeems s hs

theorem GoneSince.congr {m' : AdminMoment} (h : GoneSince d p familyId m)
    (htokens : m'.tokens = m.tokens)
    (hsubset : ∀ c o ans, .performed c o ans ∈ m'.history → .performed c o ans ∈ m.history) :
    GoneSince d p familyId m' := by
  have hcore : m'.core = m.core := congrArg TokenMoment.core htokens
  exact ⟨h.ledger.congr htokens hsubset, hcore ▸ h.gone, hcore ▸ h.unextended,
    hcore ▸ h.unswapped, fun c o ans hmem => h.unredeemed c o ans (hsubset _ _ _ hmem)⟩

/-- Once a family is gone it stays so, and nothing of it is redeemed. -/
def goneProtocol (d : Deployment) (sessionIdForFamily : String → String) (p : AdminMoment)
    (familyId : String) : Protocol (adminSemantics d) (AdminReady d sessionIdForFamily) where
  inv := GoneSince d p familyId
  allowed _ _ _ _ := True
  begins h _ := h.congr rfl fun _ _ _ hmem => (List.mem_cons.mp hmem).resolve_left nofun
  performs h _ hready _ hex := h.performs hready hex
  ends h _ := h.congr rfl fun _ _ _ hmem => (List.mem_cons.mp hmem).resolve_left nofun
  drifts h hdrift := ⟨h.ledger.drifts hdrift, h.gone.shrink rfl (shrinks_of_drift hdrift).1,
    h.unextended, h.unswapped, h.unredeemed⟩

end Since

section Runs

variable {Bytes : Type} {W : Wire Bytes} {K : KeyManager Bytes}
  {sessionIdForFamily : String → String} {clock : Instant} {p q : AdminPool}
  {as as' : List AdminAct}

/-- The service, with every call disciplined and the ledger kept. -/
theorem ledger_of_run (hrun : (adminService d sessionIdForFamily W K).Run System.anyStep
    (AdminPool.start clock) as p) :
    Disciplined (AdminReady d sessionIdForFamily) (AdminOutcome sessionIdForFamily) p ∧
      AdminLedger d p.toMoment :=
  ⟨(Disciplined.initial _).run (answerAdmin_obeys d sessionIdForFamily W K) hrun,
    (adminProtocol d sessionIdForFamily).run (answerAdmin_obeys d sessionIdForFamily W K)
      (hrun.mono fun _ _ _ _ _ _ _ => trivial) (Disciplined.initial _)
      (adminLedger_start d clock)⟩

/-- A family of which something was removed is over from then on. -/
theorem familyOver_of_removal {c : ℕ} {familyId : String} {count : ℕ}
    (hrun : (adminService d sessionIdForFamily W K).Run System.anyStep
      (AdminPool.start clock) as p)
    (hlater : (adminService d sessionIdForFamily W K).Run System.anyStep p as' q)
    (hcount : 0 < count)
    (hremoved : .performed c (.token (.port (.revokeFamily familyId))) (.ok count) ∈ p.history) :
    FamilyOver d p familyId q := by
  obtain ⟨hdisciplined, hledger⟩ := ledger_of_run hrun
  have hsince : GoneSince d p.toMoment familyId q.toMoment :=
    (goneProtocol d sessionIdForFamily p.toMoment familyId).run
      (answerAdmin_obeys d sessionIdForFamily W K) (hlater.mono fun _ _ _ _ _ _ _ => trivial)
      hdisciplined ⟨hledger, hledger.gone c familyId count hcount hremoved, rfl, rfl,
        fun _ _ _ hmem hnew => absurd hmem hnew⟩
  refine ⟨hsince.gone.ended.noLive, hsince.gone.noRetired, hsince.unextended, hsince.unswapped, ?_⟩
  intro c' req tokens hunread hreturned s hs
  have htold : Disciplined (fun _ _ _ => True) (ToldByService d) q :=
    (Disciplined.initial _).run (answerAdmin_told sessionIdForFamily W K) (hrun.trans hlater)
  obtain ⟨resolution, hredeemable, hmem⟩ := htold.returned hreturned req tokens rfl rfl tokens rfl
  rw [← past_tokens] at hmem
  have hmem := mem_tokens.mp ((Moment.mem_past ..).mp (mem_corePast.mp hmem))
  rw [hsince.unextended] at hs
  exact hsince.unredeemed c' _ _ hmem (hunread _ _) _ ⟨rfl, hredeemable⟩ s hs

/-- A call that was told that it has revoked a session has removed something of a family of the
user that has the identifier. -/
theorem removal_of_returned {c : ℕ} {operator : OperatorPrincipal} {userId sessionId : String}
    {reply : AdminReply}
    (hrun : (adminService d sessionIdForFamily W K).Run System.anyStep
      (AdminPool.start clock) as p)
    (hreturned : p.Returned c (.revokeUserSession operator userId sessionId) reply) :
    ∃ familyId count,
      IsFamilyOf sessionIdForFamily (AdminMoment.core p.toMoment) userId sessionId familyId ∧
      0 < count ∧
      .performed c (.token (.port (.revokeFamily familyId))) (.ok count) ∈ p.history := by
  obtain ⟨hdisciplined, hledger⟩ := ledger_of_run hrun
  obtain ⟨familyId, count, hlisted, hmem, hcount⟩ :=
    (hdisciplined.returned hreturned operator userId sessionId rfl).removed reply rfl
  exact ⟨familyId, count, hledger.isFamilyOf hlisted, hcount, (Moment.mem_past ..).mp hmem⟩

/-- **An administrator's revocation of a session is confined and effective**: a step of the call
changes the world only by removing the sessions and the retired tokens of a family of the user
that has the identifier; when the user has no such family the call ends in an error; when it
returns, something of such a family was removed and the family is over; and no two calls for one
identifier return. -/
theorem admin_revocation_confined (hinjective : Function.Injective sessionIdForFamily)
    (hrun : (adminService d sessionIdForFamily W K).Run System.anyStep
      (AdminPool.start clock) as p) {c : ℕ} {operator : OperatorPrincipal}
    {userId sessionId : String} {rest : AdminService Error AdminReply}
    (hcall : p.calls c = some ⟨.revokeUserSession operator userId sessionId, rest⟩) :
    (∀ x q, (adminService d sessionIdForFamily W K).step p (.advance c x) = some q →
      q.world = p.world ∨ ∃ familyId,
        IsFamilyOf sessionIdForFamily (AdminMoment.core p.toMoment) userId sessionId familyId ∧
        p.world.WithoutFamily q.world familyId) ∧
    ((∀ familyId, ¬ IsFamilyOf sessionIdForFamily (AdminMoment.core p.toMoment) userId sessionId
        familyId) → rest.finished = true → ∃ e, rest = .raise (.error e)) ∧
    (∀ reply, rest = .done reply → ∃ familyId count,
      IsFamilyOf sessionIdForFamily (AdminMoment.core p.toMoment) userId sessionId familyId ∧
      0 < count ∧
      .performed c (.token (.port (.revokeFamily familyId))) (.ok count) ∈ p.history ∧
      ∀ as' q, (adminService d sessionIdForFamily W K).Run System.anyStep p as' q →
        FamilyOver d p familyId q) ∧
    ∀ reply, rest = .done reply → ∀ c' operator' userId' reply',
      p.Returned c' (.revokeUserSession operator' userId' sessionId) reply' → c' = c := by
  obtain ⟨hdisciplined, hledger⟩ := ledger_of_run hrun
  refine ⟨?_, ?_, ?_, ?_⟩
  · intro x q hstep
    obtain ⟨c', i, hact, -⟩ | ⟨c', x', i, o, next, ans, w, hact, hc, hex, hm, -⟩ |
      ⟨k, w, hact, -⟩ := Pool.step_cases hstep
    · exact nomatch hact
    · cases hact
      obtain ⟨rfl, rfl⟩ := Call.mk.inj (Option.some.inj (hc.symm.trans hcall))
      have hworld : q.world = w := by
        rw [hm, Disciplined.settle_world, Moment.performed_world]
      rw [hworld]
      exact removal_of_step hledger (hdisciplined.ready_next hc) hex
    · exact nomatch hact
  · intro hnone hfinished
    have hadmitted := hdisciplined.obeys c _ hcall
    cases rest with
    | perform o next => exact nomatch hfinished
    | done reply =>
      obtain ⟨familyId, count, hfamily, -⟩ := removal_of_returned hrun hcall
      exact absurd hfamily (hnone familyId)
    | raise fault =>
      cases fault with
      | error e => exact ⟨e, rfl⟩
      | panic =>
        obtain ⟨familyId, hlisted⟩ | ⟨⟨o, ans⟩, hmem, hpanics⟩ :=
          (hadmitted operator userId sessionId rfl).panicked rfl
        · exact absurd (hledger.isFamilyOf hlisted) (hnone familyId)
        · exact absurd hpanics (hledger.calm c o ans ((Moment.mem_past ..).mp hmem))
  · rintro reply rfl
    obtain ⟨familyId, count, hfamily, hcount, hmem⟩ := removal_of_returned hrun hcall
    exact ⟨familyId, count, hfamily, hcount, hmem, fun as' q hlater =>
      familyOver_of_removal hrun hlater hcount hmem⟩
  · rintro reply rfl c' operator' userId' reply' hreturned
    obtain ⟨familyId, count, hfamily, hcount, hmem⟩ := removal_of_returned hrun hcall
    obtain ⟨familyId', count', hfamily', hcount', hmem'⟩ := removal_of_returned hrun hreturned
    obtain rfl : familyId = familyId' :=
      hinjective (hfamily.identifier.trans hfamily'.identifier.symm)
    exact hledger.once c' c familyId count' count hcount' hcount hmem' hmem

end Runs

/-! ## A revocation that a swap comes before -/

namespace Sample

/-- The service of the small deployment; a family is its own identifier. -/
abbrev admins : System AdminPool AdminAct := adminService (deployment true) id noWire noKeys

/-- A step of the service that revokes tokens, as a step here. -/
def ofToken : TokenAct → AdminAct
  | .begin c request => .begin c (.token request)
  | .advance c x => .advance c x
  | .drift k => .drift k

/-- Two calls for the session list the family, the token is swapped, and both calls go on. -/
def revokedTwice : List AdminAct :=
  (tokenSignIn "a").map ofToken ++
    [.begin 1 (.revokeUserSession operator theUser theFamily), .advance 1 .proceed,
      .advance 1 .proceed, .advance 1 .proceed,
      .begin 2 (.revokeUserSession operator theUser theFamily), .advance 2 .proceed,
      .advance 2 .proceed, .advance 2 .proceed] ++
    (tokenRefresh 3 "a" "b").map ofToken ++
    [.advance 1 .proceed, .advance 1 .proceed, .advance 2 .proceed]

/-- Call 1 was told that the session is revoked, and call 2 that there is none. -/
def toldOnce (p : AdminPool) : Bool :=
  (match p.calls 1 with
    | some ⟨.revokeUserSession o u s, .done _⟩ =>
      decide (o = operator) && u == theUser && s == theFamily
    | _ => false) &&
  match p.calls 2 with
  | some ⟨.revokeUserSession _ _ _, .raise (.error (.notFound _))⟩ => true
  | _ => false

theorem told_of_test {p : AdminPool} (htest : toldOnce p = true) :
    ∃ reply, p.calls 1 = some ⟨.revokeUserSession operator theUser theFamily, .done reply⟩ := by
  obtain ⟨hfirst, -⟩ := Bool.and_eq_true _ _ ▸ htest
  split at hfirst
  · rename_i o u s reply hc
    obtain ⟨hrest, hs⟩ := Bool.and_eq_true _ _ ▸ hfirst
    obtain ⟨ho, hu⟩ := Bool.and_eq_true _ _ ▸ hrest
    obtain rfl := of_decide_eq_true ho
    obtain rfl := beq_iff_eq.mp hu
    obtain rfl := beq_iff_eq.mp hs
    exact ⟨reply, hc⟩
  · exact nomatch hfirst

end Sample

/-- Two calls for one session and a swap after both have listed it: the first removes the family,
the second is told that there is none. -/
theorem admin_revocation_confined_swapped : ∃ p familyId,
    Sample.admins.Run System.anyStep (AdminPool.start 0) Sample.revokedTwice p ∧
    FamilyOver (Sample.deployment true) p familyId p ∧ Sample.toldOnce p = true := by
  have hruns : (Sample.admins.follow (AdminPool.start 0) Sample.revokedTwice).any
      Sample.toldOnce = true := by
    decide +kernel
  obtain ⟨p, hrun, htest⟩ := System.Run.of_follow_any hruns
  obtain ⟨reply, hcall⟩ := Sample.told_of_test htest
  obtain ⟨-, -, hover, -⟩ := admin_revocation_confined Function.injective_id hrun hcall
  obtain ⟨familyId, -, -, -, -, hover⟩ := hover reply rfl
  exact ⟨p, familyId, hrun, hover [] p (.refl p), htest⟩

end OidcExchange
