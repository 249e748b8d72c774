import OidcExchange.Analysis.ExchangeRecords
import OidcExchange.Analysis.RevokeFlow

/-!
# A revocation that is recorded

A revocation reads the presented generation and removes it in a later step. When no swap has
replaced the generation by then, none of its descendants is live, and none ever will be: a
descendant is installed only by a swap of a live one.
-/

set_option autoImplicit false

namespace OidcExchange

open Storage Interleaving Service

variable {d : Deployment}

/-! ## Descendants -/

/-- The generation is the one of `h` or has replaced a descendant of it. -/
inductive Descends (m : ServiceMoment) (h : String) : String → Prop
  | self : Descends m h h
  | next {h' : String} {c : ℕ} {r : Session} (before : Descends m h h')
      (won : (c, h', r) ∈ rotations m) : Descends m h r.refreshTokenHash

/-- The generation was installed once, and none of its descendants is live. -/
structure LineGone (m : ServiceMoment) (h : String) : Prop where
  installed : ∃ c s, (c, s) ∈ installs m ∧ s.refreshTokenHash = h
  dead : ∀ h', Descends m h h' → m.world.sessions.lookup h' = none

section Descendants

variable {m m' : ServiceMoment} {h h' : String}

theorem descends_congr (hr : rotations m' = rotations m) : Descends m' h h' ↔ Descends m h h' := by
  constructor
  · intro hdescends
    induction hdescends with
    | self => exact .self
    | next _ won ih => exact .next ih (hr ▸ won)
  · intro hdescends
    induction hdescends with
    | self => exact .self
    | next _ won ih => exact .next ih (hr ▸ won)

/-- A swap of a generation that does not descend from `h` adds no descendant. -/
theorem descends_of_swap {c : ℕ} {k : String} {r : Session}
    (hr : rotations m' = (c, k, r) :: rotations m) (hother : ¬ Descends m h k) :
    Descends m' h h' ↔ Descends m h h' := by
  constructor
  · intro hdescends
    induction hdescends with
    | self => exact .self
    | next before won ih =>
      rw [hr] at won
      obtain heq | won := List.mem_cons.mp won
      · cases heq
        exact absurd ih hother
      · exact .next ih won
  · intro hdescends
    induction hdescends with
    | self => exact .self
    | next before won ih => exact .next ih (hr ▸ List.mem_cons_of_mem _ won)

/-- A generation that no swap has replaced has no descendant but itself. -/
theorem eq_of_descends (hkept : ∀ c r, (c, h, r) ∉ rotations m) (hdescends : Descends m h h') :
    h' = h := by
  induction hdescends with
  | self => rfl
  | next before won ih => exact absurd (ih ▸ won) (hkept _ _)

/-- A descendant was installed. -/
theorem LineGone.installed_of_descends (hgone : LineGone m h) (hl : Lineage d m)
    (hdescends : Descends m h h') : ∃ c s, (c, s) ∈ installs m ∧ s.refreshTokenHash = h' := by
  cases hdescends with
  | self => exact hgone.installed
  | next before won => exact ⟨_, _, (hl.rotated_from _ _ _ won).1, rfl⟩

/-- A line that is gone stays so while the store shrinks. -/
theorem LineGone.shrink (hgone : LineGone m h) (hi : installs m' = installs m)
    (hr : rotations m' = rotations m)
    (hsessions : ∀ k s, m'.world.sessions.lookup k = some s → m.world.sessions.lookup k = some s) :
    LineGone m' h where
  installed := hi ▸ hgone.installed
  dead k hdescends := by
    cases hk : m'.world.sessions.lookup k with
    | none => rfl
    | some s =>
      have hlive := hsessions k s hk
      rw [hgone.dead k ((descends_congr hr).mp hdescends)] at hlive
      exact nomatch hlive

/-- A line that is gone stays so when another session is installed under a fresh hash. -/
theorem LineGone.install (hgone : LineGone m h) (hl : Lineage d m)
    (hi : installs m ⊆ installs m') (hsame : ∀ h', Descends m' h h' ↔ Descends m h h')
    {r : Session} (hfresh : ∀ c s, (c, s) ∈ installs m → s.refreshTokenHash ≠ r.refreshTokenHash)
    (hw : ∀ k, k ≠ r.refreshTokenHash → m.world.sessions.lookup k = none →
      m'.world.sessions.lookup k = none) : LineGone m' h where
  installed := by
    obtain ⟨c, s, hinstalled, hhash⟩ := hgone.installed
    exact ⟨c, s, hi hinstalled, hhash⟩
  dead k hdescends := by
    have hold := (hsame k).mp hdescends
    obtain ⟨c, s, hinstalled, rfl⟩ := hgone.installed_of_descends hl hold
    exact hw _ (hfresh c s hinstalled) (hgone.dead _ hold)

/-- No operation of the core brings a line back, or adds to it. -/
theorem LineGone.performs {request : Request} {c : ℕ} {x : Choice} {o : Op} {ans : Ans o}
    {w : World} (hgone : LineGone m h) (hl : Lineage d m) (htruth : Truthful m)
    (hready : Ready d request (m.past c) o) (hex : exec d x c o m.world = some (ans, w)) :
    LineGone (m.performed c o ans w) h ∧
      ∀ h', Descends (m.performed c o ans w) h h' ↔ Descends m h h' := by
  have hinstalls := Moment.collect_subset_performed installOf m c o ans w
  cases storeStep_of_exec hex with
  | drew raw _ => exact ⟨hgone.shrink rfl rfl fun _ _ h => h, fun _ => descends_congr rfl⟩
  | drewFamily familyId _ _ => exact ⟨hgone.shrink rfl rfl fun _ _ h => h, fun _ => descends_congr rfl⟩
  | stored s =>
    obtain ⟨req, -, ⟨user, raw, familyId, expiresAt, createdAt, hs, -, hraw, -, -⟩, halone⟩ :=
      hready
    have hr : ∀ w, rotations (m.performed c (.storeRefreshToken s) (.ok ()) w) = rotations m :=
      fun w => Moment.collect_performed_none rotationOf m w rfl
    refine ⟨hgone.install hl hinstalls (fun _ => descends_congr (hr _)) (r := s)
      (fun _ _ hinstalled => ?_) fun k hne hk => ?_, fun _ => descends_congr (hr _)⟩
    · rw [hs]
      exact hl.fresh_hash halone (Moment.mem_collect_of_past hraw rfl) hinstalled
    · refine (Table.lookup_insert_ite ..).trans ?_
      rw [if_neg hne]
      exact hk
  | rotated k r live retired hlive huser hfamily hretires =>
    obtain ⟨-, ⟨raw, hraw, hhash⟩, halone, -⟩ := succeeds_of_rotateReady hl htruth hready hlive
    have hother : ¬ Descends m h k := by
      intro hdescends
      rw [hgone.dead k hdescends] at hlive
      exact nomatch hlive
    have hr : ∀ w, rotations (m.performed c (.rotateRefreshToken k r) (.ok true) w) =
        (c, k, r) :: rotations m :=
      fun w => Moment.collect_performed_some rotationOf m w rfl
    refine ⟨hgone.install hl hinstalls (fun _ => descends_of_swap (hr _) hother) (r := r)
      (fun _ _ hinstalled => ?_) fun j hne hj => ?_, fun _ => descends_of_swap (hr _) hother⟩
    · rw [hhash]
      exact hl.fresh_hash halone hraw hinstalled
    · refine (Table.lookup_insert_ite ..).trans ?_
      rw [if_neg hne, Table.lookup_erase_ite]
      split
      · rfl
      · exact hj
  | shrank hunseen hshrinks =>
    have hr := Moment.collect_performed_none rotationOf m (c := c) w hunseen.rotation
    have hi := Moment.collect_performed_none installOf m (c := c) w hunseen.install
    exact ⟨hgone.shrink hi hr hshrinks.sessions, fun _ => descends_congr hr⟩

end Descendants

/-! ## The protocol -/

/-- A revocation removes the generation it has read before any swap has replaced it. -/
def Unraced (m : TokenMoment) (c : ℕ) (_ : Choice) (o : RevokeOp) : Prop :=
  ∀ request, .began c (.revoke request) ∈ m.history →
    o = .port (.revokeSession (d.digest request.token)) →
      ∀ c' r, (c', d.digest request.token, r) ∉ rotations m.core

/-- What revocations have read and removed. -/
structure RevocationLedger (d : Deployment) (m : TokenMoment) : Prop where
  lineage : TokenLineage d m
  /-- A session that was read was installed. -/
  read : ∀ c h s, .performed c (.getSessionByRefreshToken h) (.ok (some s)) ∈ m.history →
    ∃ c', (c', s) ∈ installs m.core ∧ s.refreshTokenHash = h
  /-- A record follows a removal. -/
  recorded : ∀ c request event ans, .began c (.revoke request) ∈ m.history →
    request.PresentsRefresh → event.RecordsRevocation →
    .performed c (.port (.emit event)) ans ∈ m.history → Removed d request (m.past c)
  /-- What was removed is gone, with all that descends from it. -/
  gone : ∀ c request, .began c (.revoke request) ∈ m.history → Removed d request (m.past c) →
    LineGone m.core (d.digest request.token)

section Protocol

variable {m : TokenMoment} {c : ℕ} {x : Choice} {w : World}

/-- Nothing a call does brings a line back, or adds to it. -/
theorem lineGone_performs {request : TokenRequest} {o : RevokeOp} {ans : RevokeAns o} {h : String}
    (hgone : LineGone m.core h) (hlineage : TokenLineage d m)
    (hready : TokenReady d request (m.past c) o)
    (hex : revokeExec d x c o m.world = some (ans, w)) :
    LineGone (TokenMoment.core (m.performed c o ans w)) h ∧
      ∀ h', Descends (TokenMoment.core (m.performed c o ans w)) h h' ↔ Descends m.core h h' := by
  cases o with
  | getSessionByRefreshToken hash =>
    have hsame : w = m.world := by
      obtain hdone | ⟨-, hw⟩ := fallible_eq_some hex
      · exact (Prod.mk.inj hdone).2.symm
      · exact hw
    subst hsame
    exact ⟨hgone.shrink rfl rfl fun _ _ h => h, fun _ => descends_congr rfl⟩
  | port o =>
    have hex : exec d x c o m.core.world = some (ans, w) := hex
    cases request with
    | served request =>
      have hready : Ready d request (m.core.past c) o := by rw [past_core]; exact hready
      exact hgone.performs hlineage.1 hlineage.2 hready hex
    | revoke request =>
      have hunseen : Unseen o ans := unseen_of_revokeReady hready
      have hr : rotations (m.core.performed c o ans w) = rotations m.core :=
        Moment.collect_performed_none rotationOf m.core w hunseen.rotation
      have hi : installs (m.core.performed c o ans w) = installs m.core :=
        Moment.collect_performed_none installOf m.core w hunseen.install
      have hshrinks : m.core.world.Shrinks w := shrinks_of_revokeReady hready hex
      exact ⟨hgone.shrink hi hr hshrinks.sessions, fun _ => descends_congr hr⟩

/-- A revocation that removes the generation it has read ends its line. -/
theorem lineGone_of_removal {request : RevokeRequest}
    (hledger : RevocationLedger d m) (hbegan : .began c (.revoke request) ∈ m.history)
    (hready : TokenReady d (.revoke request) (m.past c)
      (.port (.revokeSession (d.digest request.token))))
    (hunraced : Unraced (d := d) m c x (.port (.revokeSession (d.digest request.token))))
    (hex : exec d x c (.revokeSession (d.digest request.token)) m.world = some (.ok (), w)) :
    LineGone (m.core.performed c (.revokeSession (d.digest request.token)) (.ok ()) w)
      (d.digest request.token) := by
  obtain ⟨-, s, hread⟩ := hready
  refine ⟨?_, fun h' hdescends => ?_⟩
  · exact (hledger.read c _ s ((Moment.mem_past ..).mp hread)).imp fun _ h => ⟨s, h⟩
  · have hr : rotations (m.core.performed c (.revokeSession (d.digest request.token)) (.ok ()) w) =
        rotations m.core := rfl
    rw [descends_congr hr] at hdescends
    rw [eq_of_descends (hunraced request hbegan rfl) hdescends]
    show w.sessions.lookup _ = none
    rw [revokeSession_erases hex, Table.lookup_erase_ite, if_pos rfl]

theorem installs_performed (o : RevokeOp) (ans : RevokeAns o) (w : World) :
    installs m.core ⊆ installs (TokenMoment.core (m.performed c o ans w)) := by
  cases o with
  | getSessionByRefreshToken hash => exact List.Subset.refl _
  | port o => exact Moment.collect_subset_performed installOf m.core c o ans w

/-- Every operation of a compliant call keeps the ledger, when no revocation is overtaken. -/
theorem RevocationLedger.performs {request : TokenRequest} {o : RevokeOp} {ans : RevokeAns o}
    (h : RevocationLedger d m) (hrunning : m.Running c request)
    (hready : TokenReady d request (m.past c) o) (hunraced : Unraced (d := d) m c x o)
    (hex : revokeExec d x c o m.world = some (ans, w)) :
    RevocationLedger d (m.performed c o ans w) where
  lineage := h.lineage.performs hready hex
  read c' hash s hmem := by
    obtain heq | hmem := List.mem_cons.mp hmem
    · cases heq
      obtain hdone | ⟨⟨e, he⟩, -⟩ := fallible_eq_some hex
      · obtain ⟨hlive, rfl⟩ := Prod.mk.inj hdone
        have hlive : m.core.world.sessions.lookup hash = some s := Except.ok.inj hlive
        obtain ⟨c', hinstalled⟩ := h.lineage.1.installed_of_live hlive
        exact ⟨c', hinstalled, (h.lineage.1.live hash s hlive).1⟩
      · exact nomatch he
    · obtain ⟨c', hinstalled, hhash⟩ := h.read c' hash s hmem
      exact ⟨c', installs_performed o ans w hinstalled, hhash⟩
  recorded c' asked event ans' hbegan hpresents hrecords hmem := by
    have hasked : .began c' (.revoke asked) ∈ m.history :=
      (List.mem_cons.mp hbegan).resolve_left nofun
    refine (Moment.mem_past ..).mpr (List.mem_cons_of_mem _ ((Moment.mem_past ..).mp ?_))
    obtain heq | hmem := List.mem_cons.mp hmem
    · cases heq
      obtain rfl := (hrunning.asked _).mp hasked
      exact hready hpresents hrecords
    · exact h.recorded c' asked event ans' hasked hpresents hrecords hmem
  gone c' asked hbegan hremoved := by
    have hasked : .began c' (.revoke asked) ∈ m.history :=
      (List.mem_cons.mp hbegan).resolve_left nofun
    obtain heq | hmem := List.mem_cons.mp ((Moment.mem_past ..).mp hremoved)
    · cases heq
      obtain rfl := (hrunning.asked _).mp hasked
      exact lineGone_of_removal h hasked hready hunraced hex
    · exact (lineGone_performs (h.gone c' asked hasked ((Moment.mem_past ..).mpr hmem)) h.lineage
        hready hex).1

/-- The ledger of revocations, kept by every step that overtakes none. -/
def recordedRevocationProtocol (d : Deployment) : Protocol (revokeSemantics d) (TokenReady d) where
  inv := RevocationLedger d
  allowed := Unraced (d := d)
  begins := fun {m c i} h hunseen => by
    refine ⟨h.lineage, fun c' hash s hmem => ?_,
      fun c' request event ans hbegan hpresents hrecords hmem => ?_,
      fun c' request hbegan hremoved => ?_⟩
    · exact h.read c' hash s ((List.mem_cons.mp hmem).resolve_left nofun)
    · have hbefore := (List.mem_cons.mp hmem).resolve_left nofun
      obtain heq | hbegan := List.mem_cons.mp hbegan
      · cases heq
        exact absurd rfl (hunseen _ hbefore)
      · exact h.recorded c' request event ans hbegan hpresents hrecords hbefore
    · obtain heq | hbegan := List.mem_cons.mp hbegan
      · cases heq
        have hremoved : Removed d request (m.past c) := hremoved
        rw [hunseen.past] at hremoved
        exact nomatch hremoved
      · exact h.gone c' request hbegan hremoved
  performs h hrunning hready hunraced hex := h.performs hrunning hready hunraced hex
  ends := fun {m c i} h _ => by
    refine ⟨h.lineage, fun c' hash s hmem => ?_,
      fun c' request event ans hbegan hpresents hrecords hmem => ?_,
      fun c' request hbegan hremoved => ?_⟩
    · exact h.read c' hash s ((List.mem_cons.mp hmem).resolve_left nofun)
    · exact h.recorded c' request event ans ((List.mem_cons.mp hbegan).resolve_left nofun)
        hpresents hrecords ((List.mem_cons.mp hmem).resolve_left nofun)
    · exact h.gone c' request ((List.mem_cons.mp hbegan).resolve_left nofun) hremoved
  drifts h hdrift :=
    ⟨h.lineage.drifts hdrift, h.read, h.recorded, fun c' request hbegan hremoved =>
      (h.gone c' request hbegan hremoved).shrink rfl rfl (shrinks_of_drift hdrift).1.sessions⟩

end Protocol

/-! ## Redeeming a descendant -/

/-- The classification leaves a token to redeem. -/
def RefreshResolution.Redeemable : RefreshResolution → Prop
  | .live _ => True
  | .superseded _ _ => True
  | _ => False

/-- A refresh that returned tokens was told that its token can be redeemed. -/
def ToldRedeemable (d : Deployment) (req : RefreshRequest) (past : Past)
    (result : Except (Fault Error) TokenResponse) : Prop :=
  ∀ tokens, result = .ok tokens → ∃ resolution : RefreshResolution, resolution.Redeemable ∧
    ⟨.resolveRefreshToken (d.digest req.refreshToken), .ok resolution⟩ ∈ past

theorem refresh_told (req : RefreshRequest) :
    (refresh d req).Obeys anything (ToldRedeemable d req) [] := by
  refine obeys_assert (fun _ => ?_) (fun _ => nofun)
  refine obeys_assert (fun _ => ⟨trivial, ?_⟩) (fun _ => nofun)
  rintro (e | resolution)
  · exact nofun
  · have htold : resolution.Redeemable → ∀ p : Service Error TokenResponse,
        p.Obeys anything (ToldRedeemable d req)
          [⟨.resolveRefreshToken (d.digest req.refreshToken), .ok resolution⟩] := by
      intro hredeemable p
      refine ((Program.only_of_forall (P := fun _ => True) (fun _ => trivial) p).obeys
        fun _ _ _ => trivial).mono ?_
      intro past' result hsince tokens _
      exact ⟨resolution, hredeemable, hsince.mem List.mem_cons_self⟩
    have hrefused : ∀ actor past, (refuseWithValidationFailed d unknownRefreshTokenReason actor req :
        Service Error TokenResponse).Obeys anything (ToldRedeemable d req) past := fun actor past =>
      refuseWithValidationFailed_obeys d _ actor req (fun _ _ _ => trivial) fun _ _ _ => nofun
    cases resolution with
    | live s => exact htold trivial _
    | superseded s retiredAt => exact htold trivial _
    | retired familyId userId retiredAt =>
      show (if d.refreshRotation = true then _ else _ : Service Error TokenResponse).Obeys _ _ _
      split
      · refine obeys_assert (fun _ => ?_) (fun _ => nofun)
        refine obeys_assert (fun _ => ⟨trivial, ?_⟩) (fun _ => nofun)
        rintro (e | count)
        · exact nofun
        · refine obeys_assert (fun _ => ?_) (fun _ => nofun)
          exact obeys_then_fail (emitMandatoryAuditEvent_only d _) (fun _ _ _ => trivial)
            fun _ _ _ => nofun
      · exact hrefused _ _
    | unknown =>
      show (if d.refreshRotation = true then _ else _ : Service Error TokenResponse).Obeys _ _ _
      split
      · exact hrefused _ _
      · exact hrefused _ _

/-- What is known of a call of the larger service that has ended, when it is a refresh. -/
def ToldWhenServed (d : Deployment) (request : TokenRequest) (past : RevokePast)
    (result : Except (Fault Error) TokenReply) : Prop :=
  ∀ req tokens, request = .served (.refresh req) → result = .ok (.served (.tokens tokens)) →
    ToldRedeemable d req (corePast past) (.ok tokens)

theorem answerToken_told {Bytes : Type} (W : Wire Bytes) (K : KeyManager Bytes)
    (request : TokenRequest) :
    (answerToken W K d request).Obeys (fun _ _ => True) (ToldWhenServed d request) [] := by
  have hother : (∀ req, request ≠ .served (.refresh req)) →
      (answerToken W K d request).Obeys (fun _ _ => True) (ToldWhenServed d request) [] :=
    fun hne => Program.obeys_of_forall (fun _ _ => trivial)
      (fun _ _ req _ heq => absurd heq (hne req)) _
  cases request with
  | revoke request => exact hother fun _ => nofun
  | served request =>
    cases request with
    | refresh req =>
      have hserve : (serve d (.refresh req)).Obeys anything (fun past result =>
          ∀ tokens, result = .ok (.tokens tokens) → ToldRedeemable d req past (.ok tokens)) [] := by
        refine obeys_map (refresh_told req) ?_
        rintro past (e | tokens) htold tokens' heq
        · exact nomatch heq
        · cases heq
          exact htold
      refine (@ported_obeys _ _ _ _ _ [] _ hserve fun _ _ _ => trivial).bind ?_ ?_
      · rintro past response htold _ tokens ⟨⟩ heq
        cases heq
        exact htold tokens rfl
      · exact fun _ _ _ _ _ _ heq => nomatch heq
    | _ => exact hother fun _ => nofun

/-- The operation was answered as it is only for a token that can be redeemed. -/
def RedeemsBy : (o : RevokeOp) → RevokeAns o → String → Prop
  | .port (.rotateRefreshToken h _), .ok true, k => k = h
  | .port (.resolveRefreshToken h), .ok resolution, k => k = h ∧ resolution.Redeemable
  | _, _, _ => False

/-- No descendant of a line that is gone is redeemed. -/
theorem not_descends_of_redeems {m : TokenMoment} {h k : String} {c : ℕ} {x : Choice}
    {o : RevokeOp} {ans : RevokeAns o} {w : World} (hgone : LineGone m.core h)
    (hl : Lineage d m.core) (hex : revokeExec d x c o m.world = some (ans, w))
    (hredeems : RedeemsBy o ans k) : ¬ Descends m.core h k := by
  intro hdescends
  unfold RedeemsBy at hredeems
  split at hredeems
  · rename_i r
    subst hredeems
    have hex : exec d x c (.rotateRefreshToken k r) m.core.world = some (.ok true, w) := hex
    cases storeStep_of_exec hex with
    | rotated _ _ live _ hlive _ _ _ =>
      rw [hgone.dead k hdescends] at hlive
      exact nomatch hlive
    | shrank hunseen _ => exact nomatch hunseen.rotation
  · rename_i resolution
    obtain ⟨rfl, hredeemable⟩ := hredeems
    have hshows := (resolve_of_exec (d := d) (c := c) hex).1
    cases resolution with
    | live s =>
      have hlive : m.core.world.sessions.lookup k = some s := hshows
      rw [hgone.dead k hdescends] at hlive
      exact nomatch hlive
    | superseded s retiredAt =>
      -- the live successor would descend too
      obtain ⟨-, record, hrecord, -, hlive⟩ := hshows
      obtain ⟨c', r, hwon, hsuccessor, -⟩ := hl.retired k record hrecord
      have hlive : m.core.world.sessions.lookup record.successorHash = some s := hlive
      rw [hsuccessor, hgone.dead _ (.next hdescends hwon)] at hlive
      exact nomatch hlive
    | _ => exact hredeemable.elim
  · exact hredeems

/-! ## From the record on -/

section Runs

variable {Bytes : Type} {W : Wire Bytes} {K : KeyManager Bytes} {clock : Instant}
  {p q : TokenPool} {as : List TokenAct} {h : String}

/-- Since `p` the line of `h` is gone, has not grown, and nothing of it was redeemed. -/
structure LineEnded (d : Deployment) (p : TokenPool) (h : String) (q : TokenPool) : Prop where
  disciplined : Disciplined (TokenReady d) (TokenOutcome d) q
  ledger : RevocationLedger d q.toMoment
  gone : LineGone (TokenMoment.core q.toMoment) h
  same : ∀ k, Descends (TokenMoment.core q.toMoment) h k ↔
    Descends (TokenMoment.core p.toMoment) h k
  unredeemed : ∀ c o ans, .performed c o ans ∈ q.history → .performed c o ans ∉ p.history →
    ∀ k, RedeemsBy o ans k → ¬ Descends (TokenMoment.core p.toMoment) h k

theorem core_settle (c : ℕ) (rest : RevokeService Error TokenReply) (m : TokenMoment) :
    TokenMoment.core (Pool.settle c rest m) = m.core := by
  unfold Pool.settle
  split <;> rfl

theorem LineEnded.step {q' : TokenPool} {a : TokenAct} (hended : LineEnded d p h q)
    (hunraced : q.Under (Unraced (d := d)) a) (hstep : (tokenService W K d).step q a = some q') :
    LineEnded d p h q' := by
  have hdisciplined := hended.disciplined.step (answerToken_obeys d W K) hstep
  have hledger := (recordedRevocationProtocol d).step hended.disciplined hended.ledger hunraced hstep
  obtain ⟨c, i, -, -, hm, -⟩ | ⟨c, x, i, o, next, ans, w, -, hc, hex, hm, -⟩ |
    ⟨k, w, -, hdrift, hm, -⟩ := Pool.step_cases hstep
  · have hcore : TokenMoment.core q'.toMoment = TokenMoment.core q.toMoment := by
      rw [hm, core_settle, core_begin]
    refine ⟨hdisciplined, hledger, hcore ▸ hended.gone, hcore ▸ hended.same, ?_⟩
    intro c' o ans hmem
    rw [hm, Disciplined.mem_settle_history] at hmem
    obtain ⟨-, heq⟩ | hmem := hmem
    · exact nomatch heq
    · exact hended.unredeemed c' o ans ((List.mem_cons.mp hmem).resolve_left nofun)
  · have hcore : TokenMoment.core q'.toMoment =
        TokenMoment.core (q.toMoment.performed c o ans w) := by
      rw [hm, core_settle]
    obtain ⟨hgone, hsame⟩ := lineGone_performs hended.gone hended.ledger.lineage
      (hended.disciplined.ready_next hc) hex
    refine ⟨hdisciplined, hledger, hcore ▸ hgone,
      fun k => (hcore ▸ hsame k).trans (hended.same k), ?_⟩
    intro c' o' ans' hmem hnew k hredeems
    rw [hm, Disciplined.mem_settle_history] at hmem
    obtain ⟨-, heq⟩ | hmem := hmem
    · exact nomatch heq
    · obtain heq | hmem := List.mem_cons.mp hmem
      · cases heq
        rw [← hended.same k]
        exact not_descends_of_redeems hended.gone hended.ledger.lineage.1 hex hredeems
      · exact hended.unredeemed c' o' ans' hmem hnew k hredeems
  · have hcore : TokenMoment.core q'.toMoment = (TokenMoment.core q.toMoment).drifted w := by
      rw [hm, core_drifted]
    refine ⟨hdisciplined, hledger, ?_, fun k => ?_, ?_⟩
    · rw [hcore]
      exact hended.gone.shrink rfl rfl (shrinks_of_drift hdrift).1.sessions
    · have hr : rotations ((TokenMoment.core q.toMoment).drifted w) =
          rotations (TokenMoment.core q.toMoment) := rfl
      rw [hcore, descends_congr hr]
      exact hended.same k
    · rw [hm]
      exact hended.unredeemed

/-- In a run in which no revocation is overtaken, from a revocation's record on: no descendant
of the presented generation is live, none is swapped, and no refresh that begins afterwards
with the token of one returns tokens. -/
theorem recorded_revocation_holds {as' : List TokenAct} {c : ℕ} {request : RevokeRequest}
    {event : AuditEvent} {ans : Answer Unit}
    (hrun : (tokenService W K d).Run (Pool.Under (Unraced (d := d))) (TokenPool.start clock) as p)
    (hlater : (tokenService W K d).Run (Pool.Under (Unraced (d := d))) p as' q)
    (hasked : .began c (.revoke request) ∈ p.history) (hpresents : request.PresentsRefresh)
    (hrecords : event.RecordsRevocation)
    (hrecorded : .performed c (.port (.emit event)) ans ∈ p.history) :
    (∀ h, Descends (TokenMoment.core q.toMoment) (d.digest request.token) h →
      q.world.sessions.lookup h = none) ∧
    (∀ a q' c' h r, Pool.Answers (revokeSemantics d) (answerToken W K d) q a q' c'
        (.port (.rotateRefreshToken h r)) (.ok true) →
      ¬ Descends (TokenMoment.core q.toMoment) (d.digest request.token) h) ∧
    (∀ c' req tokens, p.calls c' = none →
      q.Returned c' (.served (.refresh req)) (.served (.tokens tokens)) →
      ¬ Descends (TokenMoment.core q.toMoment) (d.digest request.token)
        (d.digest req.refreshToken)) := by
  have hdisciplined : Disciplined (TokenReady d) (TokenOutcome d) p :=
    (Disciplined.initial _).run (answerToken_obeys d W K) hrun
  have hstart : RevocationLedger d (TokenPool.start clock).toMoment :=
    ⟨lineage_start d clock, fun _ _ _ hmem => (nomatch hmem), fun _ _ _ _ hmem => (nomatch hmem),
      fun _ _ hmem => (nomatch hmem)⟩
  have hledger : RevocationLedger d p.toMoment :=
    (recordedRevocationProtocol d).run (answerToken_obeys d W K) hrun (Disciplined.initial _) hstart
  have hgone := hledger.gone c request hasked (hledger.recorded c request event ans hasked
    hpresents hrecords hrecorded)
  have hended : LineEnded d p (d.digest request.token) q :=
    hlater.preserves (I := LineEnded d p (d.digest request.token))
      (fun _ _ _ hs hunraced hstep => hs.step hunraced hstep)
      ⟨hdisciplined, hledger, hgone, fun _ => Iff.rfl, fun _ _ _ hmem hnew => absurd hmem hnew⟩
  refine ⟨hended.gone.dead, ?_, ?_⟩
  · rintro a q' c' h r ⟨x, i, next, w, -, -, hex, -⟩
    exact not_descends_of_redeems (c := c') (o := .port (.rotateRefreshToken h r)) hended.gone
      hended.ledger.lineage.1 hex rfl
  · intro c' req tokens hnew hreturned
    have htold : Disciplined (fun _ _ _ => True) (ToldWhenServed d) q :=
      (Disciplined.initial _).run (answerToken_told W K) (hrun.trans hlater)
    obtain ⟨resolution, hredeemable, hmem⟩ := htold.returned hreturned req tokens rfl rfl tokens rfl
    have hmem := (Moment.mem_past ..).mp (mem_corePast.mp hmem)
    rw [hended.same]
    refine hended.unredeemed c' _ _ hmem ?_ _ ⟨rfl, hredeemable⟩
    intro hbefore
    exact hdisciplined.unseen c' hnew _ hbefore rfl

end Runs

/-! ## Two runs -/

namespace Sample

/-- Writers and readers that carry nothing; no access token is presented below. -/
def noWire : Wire Unit where
  asBytes := fun _ => ()
  toVec := fun _ => ()
  fromSlice := fun _ => none
  encode := fun _ => ""
  decode := fun _ => none

/-- A key manager that verifies nothing. -/
def noKeys : KeyManager Unit where
  sign := fun _ => .ok ()
  verify := fun _ _ => .ok false

/-- The service of the small deployment, with revocation. -/
abbrev tokens : System TokenPool TokenAct := tokenService noWire noKeys (deployment true)

/-- A client revokes a refresh token. -/
def revoking (raw : String) : RevokeRequest where
  token := raw
  tokenTypeHint := some "refresh_token"
  clientAddr := .unknown
  userAgent := none

/-- A call begins and goes on alone. -/
def tokenCall (c : ℕ) (request : TokenRequest) (choices : List Choice) : List TokenAct :=
  .begin c request :: choices.map (.advance c)

/-- The first sign-in. -/
def tokenSignIn (raw : String) : List TokenAct :=
  tokenCall 0 (.served (.exchange login)) (registerChoices ++ storeChoices raw theFamily ++
    respondChoices)

/-- An undisturbed refresh. -/
def tokenRefresh (c : ℕ) (raw next : String) : List TokenAct :=
  tokenCall c (.served (.refresh (present raw))) (swapChoices next ++ respondChoices)

/-- The token is revoked and nothing happens in between. -/
def revokedAlone : List TokenAct :=
  tokenSignIn "a" ++ tokenCall 1 (.revoke (revoking "a")) [.proceed, .proceed, .proceed]

/-- A swap overtakes the revocation between its read and its removal. -/
def revokedLate : List TokenAct :=
  tokenSignIn "a" ++ tokenCall 1 (.revoke (revoking "a")) [.proceed] ++ tokenRefresh 2 "a" "b" ++
    [.advance 1 .proceed, .advance 1 .proceed]

/-- A later refresh of the revoked token, which is refused. -/
def refreshedLater : List TokenAct := tokenCall 2 (.served (.refresh (present "a"))) [.proceed]

/-- Call 1 has recorded a revocation. -/
def revocationRecorded (p : TokenPool) : Bool :=
  p.history.any fun e => match e with
    | .performed 1 (.port (.emit event)) _ => decide event.RecordsRevocation
    | _ => false

/-- Call 1 has ended. -/
def revocationEnded (p : TokenPool) : Bool :=
  p.history.any fun e => match e with
    | .ended 1 => true
    | _ => false

/-- Call 1 was asked to revoke the refresh token "a". -/
def revocationAsked (p : TokenPool) : Bool :=
  p.history.any fun e => match e with
    | .began 1 (.revoke request) =>
      request.token == "a" && request.tokenTypeHint == some "refresh_token"
    | _ => false

/-- No session that is about to be removed was swapped. -/
def isUnraced (p : TokenPool) : TokenAct → Bool
  | .advance c _ => match p.calls c with
    | some ⟨_, .perform (.port (.revokeSession h)) _⟩ =>
      (rotations (TokenMoment.core p.toMoment)).all fun e => e.2.1 != h
    | _ => true
  | _ => true

/-- The session of "a" was swapped for that of "b". -/
def swappedOnce (p : TokenPool) : Bool :=
  (rotations (TokenMoment.core p.toMoment)).any fun e =>
    e.2.1 == digest "a" && e.2.2.refreshTokenHash == digest "b"

/-- Call 3 has redeemed "b". -/
def redeemedAfter (p : TokenPool) : Bool :=
  (p.calls 3).any fun call => match call.request, call.rest with
    | .served (.refresh req), .done (.served (.tokens _)) => req.refreshToken == "b"
    | _, _ => false

theorem recorded_of_test {p : TokenPool} (htest : revocationRecorded p = true) :
    ∃ event ans, event.RecordsRevocation ∧
      .performed 1 (.port (.emit event)) ans ∈ p.history := by
  obtain ⟨e, hmem, he⟩ := List.any_eq_true.mp htest
  split at he
  · exact ⟨_, _, of_decide_eq_true he, hmem⟩
  · exact nomatch he

theorem asked_of_test {p : TokenPool} (htest : revocationAsked p = true) :
    ∃ request : RevokeRequest, request.token = "a" ∧ request.PresentsRefresh ∧
      .began 1 (.revoke request) ∈ p.history := by
  obtain ⟨e, hmem, he⟩ := List.any_eq_true.mp htest
  split at he
  · rename_i request
    obtain ⟨htoken, hhint⟩ := Bool.and_eq_true _ _ ▸ he
    refine ⟨request, beq_iff_eq.mp htoken, ?_, hmem⟩
    rw [RevokeRequest.PresentsRefresh, beq_iff_eq.mp hhint]
    decide
  · exact nomatch he

theorem ended_of_test {p : TokenPool} (htest : revocationEnded p = true) :
    .ended 1 ∈ p.history := by
  obtain ⟨e, hmem, he⟩ := List.any_eq_true.mp htest
  split at he
  · exact hmem
  · exact nomatch he

theorem descends_of_test {p : TokenPool} (htest : swappedOnce p = true) :
    Descends (TokenMoment.core p.toMoment) (digest "a") (digest "b") := by
  obtain ⟨⟨c, h, r⟩, hmem, he⟩ := List.any_eq_true.mp htest
  obtain ⟨hfrom, hto⟩ := Bool.and_eq_true _ _ ▸ he
  obtain rfl : h = digest "a" := beq_iff_eq.mp hfrom
  have hto : r.refreshTokenHash = digest "b" := beq_iff_eq.mp hto
  exact hto ▸ .next .self hmem

theorem redeemed_of_test {p : TokenPool} (htest : redeemedAfter p = true) :
    ∃ req tokens, req.refreshToken = "b" ∧
      p.Returned 3 (.served (.refresh req)) (.served (.tokens tokens)) := by
  obtain ⟨⟨asked, rest⟩, hc, hcall⟩ := (Option.any_eq_true _ _).mp htest
  split at hcall
  · rename_i req tokens hasked hrest
    cases hasked
    cases hrest
    exact ⟨req, tokens, beq_iff_eq.mp hcall, hc⟩
  · exact nomatch hcall

theorem unraced_of_test (p : TokenPool) (a : TokenAct) (htest : isUnraced p a = true) :
    p.Under (Unraced (d := deployment true)) a := by
  rintro c x o ⟨rfl, i, next, hc⟩ request - rfl c' r hmem
  simp only [isUnraced, hc] at htest
  exact absurd rfl (bne_iff_ne.mp (List.all_eq_true.mp htest _ hmem))

end Sample

/-- A revocation that nothing overtakes: the token is refused from then on. -/
theorem recorded_revocation_holds_alone : ∃ p q,
    Sample.tokens.Run (Pool.Under (Unraced (d := Sample.deployment true))) (TokenPool.start 0)
      Sample.revokedAlone p ∧
    Sample.tokens.Run (Pool.Under (Unraced (d := Sample.deployment true))) p
      Sample.refreshedLater q ∧
    ∀ h, Descends (TokenMoment.core q.toMoment) (Sample.digest "a") h →
      q.world.sessions.lookup h = none := by
  have hruns : (Sample.tokens.followWhen Sample.isUnraced (TokenPool.start 0)
      Sample.revokedAlone).any (fun p => (Sample.revocationRecorded p && Sample.revocationAsked p) &&
        (Sample.tokens.followWhen Sample.isUnraced p Sample.refreshedLater).any fun _ => true) =
          true := by
    decide +kernel
  obtain ⟨p, hrun, htest⟩ := System.Run.of_followWhen_any Sample.unraced_of_test hruns
  obtain ⟨hmeets, hlater⟩ := Bool.and_eq_true _ _ ▸ htest
  obtain ⟨q, hlater, -⟩ := System.Run.of_followWhen_any Sample.unraced_of_test hlater
  obtain ⟨hrecorded, hasked⟩ := Bool.and_eq_true _ _ ▸ hmeets
  obtain ⟨event, ans, hrecords, hrecorded⟩ := Sample.recorded_of_test hrecorded
  obtain ⟨request, htoken, hpresents, hasked⟩ := Sample.asked_of_test hasked
  refine ⟨p, q, hrun, hlater, ?_⟩
  have hholds := (recorded_revocation_holds hrun hlater hasked hpresents hrecords hrecorded).1
  rw [htoken] at hholds
  exact hholds

/-- A swap between the read and the removal: the revocation is recorded and returns, and the
token that replaced the revoked one is redeemed afterwards. -/
theorem recorded_revocation_overtaken : ∃ p q request event ans req tokens,
    Sample.tokens.Run System.anyStep (TokenPool.start 0) Sample.revokedLate p ∧
    Sample.tokens.Run System.anyStep p (Sample.tokenRefresh 3 "b" "c") q ∧
    .began 1 (.revoke request) ∈ p.history ∧ request.PresentsRefresh ∧
    event.RecordsRevocation ∧ .performed 1 (.port (.emit event)) ans ∈ p.history ∧
    .ended 1 ∈ p.history ∧ p.calls 3 = none ∧
    q.Returned 3 (.served (.refresh req)) (.served (.tokens tokens)) ∧
    Descends (TokenMoment.core q.toMoment) (Sample.digest request.token)
      (Sample.digest req.refreshToken) := by
  have hruns : (Sample.tokens.follow (TokenPool.start 0) Sample.revokedLate).any (fun p =>
      (((Sample.revocationRecorded p && Sample.revocationAsked p) && Sample.revocationEnded p) &&
        (p.calls 3).isNone) && (Sample.tokens.follow p (Sample.tokenRefresh 3 "b" "c")).any fun q =>
          Sample.redeemedAfter q && Sample.swappedOnce q) = true := by
    decide +kernel
  obtain ⟨p, hrun, htest⟩ := System.Run.of_follow_any hruns
  obtain ⟨hmeets, hlater⟩ := Bool.and_eq_true _ _ ▸ htest
  obtain ⟨q, hlater, hq⟩ := System.Run.of_follow_any hlater
  obtain ⟨hmeets, hnone⟩ := Bool.and_eq_true _ _ ▸ hmeets
  obtain ⟨hmeets, hended⟩ := Bool.and_eq_true _ _ ▸ hmeets
  obtain ⟨hrecorded, hasked⟩ := Bool.and_eq_true _ _ ▸ hmeets
  obtain ⟨hredeemed, hswapped⟩ := Bool.and_eq_true _ _ ▸ hq
  obtain ⟨event, ans, hrecords, hrecorded⟩ := Sample.recorded_of_test hrecorded
  obtain ⟨request, htoken, hpresents, hasked⟩ := Sample.asked_of_test hasked
  obtain ⟨req, tokens, hnext, hreturned⟩ := Sample.redeemed_of_test hredeemed
  refine ⟨p, q, request, event, ans, req, tokens, hrun, hlater, hasked, hpresents, hrecords,
    hrecorded, Sample.ended_of_test hended, Option.isNone_iff_eq_none.mp hnone, hreturned, ?_⟩
  rw [htoken, hnext]
  exact Sample.descends_of_test hswapped

end OidcExchange
