import OidcExchange.Analysis.Accounts
import OidcExchange.Analysis.FamilyEnd

/-!
# How often a refresh token is redeemed

A call that redeems a hash has won the swap of the generation it was shown: of the hash
itself while that was live, of its successor during grace. A hash is swapped once, so
there is one winner of each kind. A call that looks a retired hash up after its
successor was swapped, or after the grace window, is shown neither and revokes the
family.
-/

set_option autoImplicit false

namespace OidcExchange

open Storage Interleaving Service Past

variable (d : Deployment)

/-- Call `c` presented a token with digest `h` and has returned tokens for it. -/
def Redeems (p : ServicePool) (c : ℕ) (h : String) : Prop :=
  ∃ req a, p.Returned c (.refresh req) a ∧ d.digest req.refreshToken = h

/-- Call `c` redeemed `h` after it was told that `h` is live. -/
def RedeemsLive (p : ServicePool) (c : ℕ) (h : String) : Prop :=
  Redeems d p c h ∧
    ∃ s, first (p.toMoment.past c) = some ⟨.resolveRefreshToken h, .ok (.live s)⟩

/-- Call `c` redeemed `h` after it was told that `h` is superseded. -/
def RedeemsInGrace (p : ServicePool) (c : ℕ) (h : String) : Prop :=
  Redeems d p c h ∧ ∃ s retiredAt,
    first (p.toMoment.past c) = some ⟨.resolveRefreshToken h, .ok (.superseded s retiredAt)⟩

/-- A hash is redeemed at most twice: once while live and once in grace. -/
structure RedeemedAtMostTwice (p : ServicePool) (h : String) : Prop where
  kinds : ∀ c, Redeems d p c h → RedeemsLive d p c h ∨ RedeemsInGrace d p c h
  live : ∀ c c', RedeemsLive d p c h → RedeemsLive d p c' h → c = c'
  grace : ∀ c c', RedeemsInGrace d p c h → RedeemsInGrace d p c' h → c = c'
  twice : ∃ calls : List ℕ, calls.length ≤ 2 ∧ ∀ c, Redeems d p c h → c ∈ calls

/-- Call `c` has begun with the request and has performed nothing yet. -/
def Presenting (p : ServicePool) (c : ℕ) (req : RefreshRequest) : Prop :=
  p.calls c = some ⟨.refresh req, serve d (.refresh req)⟩ ∧ p.toMoment.past c = []

/-- The record of `h` is retained, and its successor has been swapped or the grace window
has passed. -/
structure TooLate (m : ServiceMoment) (h : String) (record : RetiredRefreshToken) : Prop where
  recorded : m.world.retired.lookup h = some record
  retained : m.world.clock < record.expiresAt
  late : (∃ c r, (c, record.successorHash, r) ∈ rotations m) ∨
    withinGrace m.world.clock record.retiredAt d.refreshRotationGrace = false

/-- A call that looks a hash up too late never returns tokens, and unless the lookup itself
failed it has tried to revoke the family when it ends; a revocation that was answered with
a count left no live generation of the family, then or since. -/
def RefusesLate (p : ServicePool) : Prop :=
  ∀ c req record x p' as q, Presenting d p c req →
    TooLate d p.toMoment (d.digest req.refreshToken) record →
    (service d).step p (.advance c x) = some p' → (service d).Run System.anyStep p' as q →
    (∀ a, ¬ q.Returned c (.refresh req) a) ∧
      ∀ e, q.Failed c (.refresh req) e → (∃ e', x = .fail e') ∨
        ∃ ans, ⟨.revokeFamily record.familyId, ans⟩ ∈ q.toMoment.past c ∧
          ((∃ count, ans = .ok count) →
            ∀ h s, q.world.sessions.lookup h = some s → s.familyId ≠ record.familyId)

variable {d}

/-! ## Redemptions and swaps -/

section Redemptions

variable {p : ServicePool} {c : ℕ} {h : String}

/-- A redemption won the swap of the generation it was shown. -/
theorem swap_of_redeems (hrotation : d.refreshRotation = true)
    (htruth : Truthful p.toMoment) (hcompliant : Compliant d p) (hredeems : Redeems d p c h) :
    ∃ s r, (c, s.refreshTokenHash, r) ∈ rotations p.toMoment ∧
      ((first (p.toMoment.past c) = some ⟨.resolveRefreshToken h, .ok (.live s)⟩ ∧
          s.refreshTokenHash = h) ∨
        ∃ retiredAt c', first (p.toMoment.past c) =
          some ⟨.resolveRefreshToken h, .ok (.superseded s retiredAt)⟩ ∧
          (c', h, s) ∈ rotations p.toMoment) := by
  obtain ⟨req, a, hreturned, rfl⟩ := hredeems
  obtain ⟨tokens, rfl, s, raw, r, hpresented, -, hswap, -⟩ :=
    (hcompliant.returned hreturned hrotation).redeemed _ rfl
  refine ⟨s, r, Moment.mem_collect_of_past hswap rfl, ?_⟩
  obtain hfirst | ⟨retiredAt, now, hfirst, -⟩ := hpresented
  · exact .inl ⟨hfirst, (htruth c _ _ ((Moment.mem_past ..).mp (mem_of_first hfirst))).1⟩
  · obtain ⟨c', hmem⟩ := htruth c _ _ ((Moment.mem_past ..).mp (mem_of_first hfirst))
    exact .inr ⟨retiredAt, c', hfirst, hmem⟩

theorem redeemsLive_unique (hrotation : d.refreshRotation = true) (hl : Lineage d p.toMoment)
    (htruth : Truthful p.toMoment) (hcompliant : Compliant d p) {c' : ℕ}
    (hc : RedeemsLive d p c h) (hc' : RedeemsLive d p c' h) : c = c' := by
  -- both swapped the hash itself
  have hswap : ∀ {k}, RedeemsLive d p k h → ∃ r, (k, h, r) ∈ rotations p.toMoment := by
    rintro k ⟨hredeems, t, ht⟩
    obtain ⟨s, r, hmem, ⟨-, rfl⟩ | ⟨_, _, hfirst, -⟩⟩ :=
      swap_of_redeems hrotation htruth hcompliant hredeems
    · exact ⟨r, hmem⟩
    · simp [ht] at hfirst
  obtain ⟨r, hmem⟩ := hswap hc
  obtain ⟨r', hmem'⟩ := hswap hc'
  exact (hl.rotation_unique hmem hmem').1

theorem redeemsInGrace_unique (hrotation : d.refreshRotation = true) (hl : Lineage d p.toMoment)
    (htruth : Truthful p.toMoment) (hcompliant : Compliant d p) {c' : ℕ}
    (hc : RedeemsInGrace d p c h) (hc' : RedeemsInGrace d p c' h) : c = c' := by
  -- both swapped the one successor of the hash
  have hswap : ∀ {k}, RedeemsInGrace d p k h → ∃ s r k',
      (k, s.refreshTokenHash, r) ∈ rotations p.toMoment ∧ (k', h, s) ∈ rotations p.toMoment := by
    rintro k ⟨hredeems, t, retiredAt, ht⟩
    obtain ⟨s, r, hmem, ⟨hfirst, -⟩ | ⟨_, k', -, hmem'⟩⟩ :=
      swap_of_redeems hrotation htruth hcompliant hredeems
    · simp [ht] at hfirst
    · exact ⟨s, r, k', hmem, hmem'⟩
  obtain ⟨s, r, k, hmem, hsucc⟩ := hswap hc
  obtain ⟨s', r', k', hmem', hsucc'⟩ := hswap hc'
  obtain ⟨-, rfl⟩ := hl.rotation_unique hsucc hsucc'
  exact (hl.rotation_unique hmem hmem').1

/-- **A hash is redeemed at most twice.** -/
theorem redeemedAtMostTwice (hrotation : d.refreshRotation = true) (hl : Lineage d p.toMoment)
    (htruth : Truthful p.toMoment) (hcompliant : Compliant d p) (h : String) :
    RedeemedAtMostTwice d p h := by
  have hkinds : ∀ c, Redeems d p c h → RedeemsLive d p c h ∨ RedeemsInGrace d p c h := by
    intro c hredeems
    obtain ⟨s, r, -, ⟨hfirst, -⟩ | ⟨retiredAt, -, hfirst, -⟩⟩ :=
      swap_of_redeems hrotation htruth hcompliant hredeems
    · exact .inl ⟨hredeems, s, hfirst⟩
    · exact .inr ⟨hredeems, s, retiredAt, hfirst⟩
  have hlive : ∀ c c', RedeemsLive d p c h → RedeemsLive d p c' h → c = c' := fun _ _ =>
    redeemsLive_unique hrotation hl htruth hcompliant
  have hgrace : ∀ c c', RedeemsInGrace d p c h → RedeemsInGrace d p c' h → c = c' := fun _ _ =>
    redeemsInGrace_unique hrotation hl htruth hcompliant
  refine ⟨hkinds, hlive, hgrace, ?_⟩
  -- the list names the winner of each kind, if there is one
  have hone : ∀ P : ℕ → Prop, (∀ c c', P c → P c' → c = c') →
      ∃ calls : List ℕ, calls.length ≤ 1 ∧ ∀ c, P c → c ∈ calls := by
    intro P hunique
    by_cases hex : ∃ c, P c
    · obtain ⟨c, hc⟩ := hex
      exact ⟨[c], by simp, fun c' hc' => by simp [hunique c' c hc' hc]⟩
    · exact ⟨[], by simp, fun c hc => absurd ⟨c, hc⟩ hex⟩
  obtain ⟨lives, hlives, hmem⟩ := hone _ hlive
  obtain ⟨graces, hgraces, hmem'⟩ := hone _ hgrace
  refine ⟨lives ++ graces, by simp; omega, fun c hc => List.mem_append.mpr ?_⟩
  exact (hkinds c hc).imp (hmem c) (hmem' c)

end Redemptions

/-! ## Looking a hash up too late -/

/-- A grace window that has passed stays passed. -/
theorem withinGrace_false_of_le {now later retiredAt : Instant} {secs : UInt64}
    (hpassed : withinGrace now retiredAt secs = false) (hle : now ≤ later) :
    withinGrace later retiredAt secs = false := by
  unfold withinGrace at hpassed ⊢
  split at hpassed
  · simp only [decide_eq_false_iff_not] at hpassed ⊢
    exact fun h => hpassed (Int.le_trans (Int.sub_le_sub_right hle _) h)
  · rfl

/-- No operation turns the clock back, and the clock is read as it is. -/
theorem clock_of_exec {x : Choice} {c : ℕ} {o : Op} {ans : Ans o} {w w' : World}
    (hex : exec d x c o w = some (ans, w')) :
    w.clock ≤ w'.clock ∧ ∀ now, (⟨o, ans⟩ : Performed Ans) = ⟨.now, now⟩ → now = w.clock := by
  constructor
  · cases storeStep_of_exec hex with
    | shrank _ hshrinks => exact hshrinks.clock
    | _ => exact Int.le_refl _
  · intro now heq
    obtain ⟨rfl, hans⟩ := Sigma.mk.inj heq
    obtain rfl := eq_of_heq hans
    exact (Prod.mk.inj (Option.some.inj hex)).1.symm

/-- What call `c` learned first stays first, and it reads no time before `t`. -/
def clockProtocol (d : Deployment) (c : ℕ) (e : Performed Ans) (t : Instant) :
    Protocol (portSemantics d) (Ready d) where
  inv m := first (m.past c) = some e ∧ t ≤ m.world.clock ∧
    ∀ now, (⟨.now, now⟩ : Performed Ans) ∈ m.past c → t ≤ now
  allowed _ _ _ _ := True
  begins h _ := h
  performs := fun {m c' i x o ans w} ⟨hfirst, hclock, hread⟩ _ _ _ hex => by
    obtain ⟨hmono, hnow⟩ := clock_of_exec (c := c') hex
    refine ⟨?_, Int.le_trans hclock hmono, ?_⟩
    · by_cases hc : c' = c
      · subst hc
        rw [Moment.past_performed_self]
        exact first_cons hfirst _
      · rw [Moment.past_performed_other _ hc]
        exact hfirst
    · intro now hmem
      by_cases hc : c' = c
      · subst hc
        rw [Moment.past_performed_self] at hmem
        rcases List.mem_cons.mp hmem with heq | hmem
        · exact hnow now heq.symm ▸ hclock
        · exact hread now hmem
      · rw [Moment.past_performed_other _ hc] at hmem
        exact hread now hmem
  ends h _ := h
  drifts h hdrift := ⟨h.1, Int.le_trans h.2.1 (shrinks_of_drift hdrift).1.clock, h.2.2⟩

section Late

variable {p : ServicePool} {h : String} {record : RetiredRefreshToken}

/-- A hash that is looked up too late is shown as retired, or as superseded with the grace
window passed. -/
theorem resolve_of_tooLate (hl : Lineage d p.toMoment) (hlong : h ≠ "")
    (hlate : TooLate d p.toMoment h record) :
    ∃ c r, (c, h, r) ∈ rotations p.toMoment ∧ record.familyId = r.familyId ∧
      (p.world.resolveRefreshToken h =
          .ok (.retired record.familyId r.userId record.retiredAt) ∨
        (p.world.resolveRefreshToken h = .ok (.superseded r record.retiredAt) ∧
          withinGrace p.world.clock record.retiredAt d.refreshRotationGrace = false)) := by
  obtain ⟨c, r, hmem, hsucc, hfamily, huser, -⟩ := hl.retired h record hlate.recorded
  have hgone := hl.rotated c h r hmem
  have hkept : ¬ record.expiresAt ≤ p.world.clock := Int.not_le.mpr hlate.retained
  refine ⟨c, r, hmem, hfamily, ?_⟩
  have hrecorded := hlate.recorded
  cases hnext : p.world.sessions.lookup record.successorHash with
  | none =>
    left
    simp [World.resolveRefreshToken, hlong, hgone, hrecorded, hkept, hnext, huser]
  | some s =>
    right
    -- the successor that is live is the one the swap installed
    obtain ⟨c', hinstalled⟩ := hl.installed_of_live hnext
    obtain ⟨-, rfl⟩ := hl.install_unique hinstalled (hl.rotated_from c h r hmem).1
      ((hl.live _ s hnext).1.trans hsucc)
    refine ⟨by simp [World.resolveRefreshToken, hlong, hgone, hrecorded, hkept, hnext, hfamily], ?_⟩
    obtain ⟨c'', r', hswapped⟩ | hpassed := hlate.late
    · have := hl.rotated c'' _ r' hswapped
      rw [hnext] at this
      exact absurd this (by simp)
    · exact hpassed

/-- What a call looked up when its first step is a step of a presenting call. -/
theorem past_of_presenting {c : ℕ} {req : RefreshRequest} {x : Choice} {p' : ServicePool}
    (hpresenting : Presenting d p c req) (hstep : (service d).step p (.advance c x) = some p') :
    req.refreshToken ≠ "" ∧ ∃ o ans w, exec d x c o p.world = some (ans, w) ∧
      p'.world = w ∧ p'.toMoment.past c = [⟨o, ans⟩] := by
  obtain ⟨hcall, hpast⟩ := hpresenting
  obtain ⟨_, _, hact, -⟩ | ⟨c', x', i, o, next, ans, w, hact, hc, hex, hm, -⟩ |
    ⟨_, _, hact, -⟩ := Pool.step_cases hstep
  · exact absurd hact (by simp)
  · obtain ⟨rfl, rfl⟩ : c = c' ∧ x = x' := by simpa using hact
    refine ⟨?_, o, ans, w, hex, ?_, ?_⟩
    · intro hempty
      simp [hcall, serve, refresh, Service.assert, hempty] at hc
    · rw [hm, Disciplined.settle_world, Moment.performed_world]
    · rw [hm, Disciplined.settle_past, Moment.past_performed_self, hpast]
  · exact absurd hact (by simp)

section Ended

variable {clock : Instant} {meets : ServicePool → ServiceAct → Prop} {as₀ as : List ServiceAct}
  {c : ℕ} {req : RefreshRequest} {x : Choice} {p' q : ServicePool}
  {result : Except (Fault Error) Response}

/-- A presenting call that has ended looked its hash up first, in the world in which it
presented it, and has read no time before that since. -/
theorem lookup_of_ended (hrun : (service d).Run meets (ServicePool.start clock) as₀ p)
    (hpresenting : Presenting d p c req) (hstep : (service d).step p (.advance c x) = some p')
    (hrun' : (service d).Run System.anyStep p' as q)
    (houtcome : RefreshOutcome d req (q.toMoment.past c) result) :
    ∃ ans w, exec d x c (.resolveRefreshToken (d.digest req.refreshToken)) p.world =
        some (ans, w) ∧
      first (q.toMoment.past c) =
        some ⟨.resolveRefreshToken (d.digest req.refreshToken), ans⟩ ∧
      ∀ now, ⟨.now, now⟩ ∈ q.toMoment.past c → p.world.clock ≤ now := by
  obtain ⟨hne, o, ans, w, hex, hw, hpast⟩ := past_of_presenting hpresenting hstep
  obtain ⟨hmono, hnow⟩ := clock_of_exec hex
  have hbegun : first (p'.toMoment.past c) = some ⟨o, ans⟩ ∧ p.world.clock ≤ p'.world.clock ∧
      ∀ now, (⟨.now, now⟩ : Performed Ans) ∈ p'.toMoment.past c → p.world.clock ≤ now := by
    refine ⟨by rw [hpast]; rfl, hw ▸ hmono, fun now hmem => ?_⟩
    rw [hpast] at hmem
    exact hnow now (List.mem_singleton.mp hmem).symm ▸ Int.le_refl _
  have hcompliant := (compliant_of_run d hrun).step (serve_obeys d) hstep
  obtain ⟨hfirst, -, hread⟩ := (clockProtocol d c ⟨o, ans⟩ p.world.clock).run (serve_obeys d)
    (hrun'.mono fun _ _ _ _ _ _ _ => trivial) hcompliant hbegun
  obtain ⟨ans', hresolved⟩ := houtcome.resolved hne
  obtain ⟨rfl, hans⟩ := Sigma.mk.inj (Option.some.inj (hfirst.symm.trans hresolved))
  obtain rfl := eq_of_heq hans
  exact ⟨ans, w, hex, hfirst, hread⟩

/-- A call that looked its hash up too late and has ended was refused the lookup, or was
shown a retired hash, or a superseded one after which it only reads late times. -/
theorem shown_of_ended (hrun : (service d).Run meets (ServicePool.start clock) as₀ p)
    (hpresenting : Presenting d p c req)
    (hlate : TooLate d p.toMoment (d.digest req.refreshToken) record)
    (hstep : (service d).step p (.advance c x) = some p')
    (hrun' : (service d).Run System.anyStep p' as q)
    (houtcome : RefreshOutcome d req (q.toMoment.past c) result) :
    (∃ e, x = .fail e ∧ first (q.toMoment.past c) =
        some ⟨.resolveRefreshToken (d.digest req.refreshToken), .error (.error e)⟩) ∨
      ∃ c' r, (c', d.digest req.refreshToken, r) ∈ rotations p.toMoment ∧
        record.familyId = r.familyId ∧
        (first (q.toMoment.past c) = some ⟨.resolveRefreshToken (d.digest req.refreshToken),
            .ok (.retired record.familyId r.userId record.retiredAt)⟩ ∨
          first (q.toMoment.past c) = some ⟨.resolveRefreshToken (d.digest req.refreshToken),
              .ok (.superseded r record.retiredAt)⟩ ∧
            ∀ now, ⟨.now, now⟩ ∈ q.toMoment.past c →
              withinGrace now record.retiredAt d.refreshRotationGrace = false) := by
  have hlong : d.digest req.refreshToken ≠ "" := by
    intro h0
    have hlen := d.digest_length req.refreshToken
    rw [h0] at hlen
    exact absurd hlen (by decide)
  obtain ⟨ans, w, hex, hfirst, hread⟩ := lookup_of_ended hrun hpresenting hstep hrun' houtcome
  cases x with
  | fail e =>
    obtain ⟨rfl, -⟩ := Prod.mk.inj (Option.some.inj hex)
    exact .inl ⟨e, rfl, hfirst⟩
  | proceed =>
    right
    obtain ⟨rfl, -⟩ := Prod.mk.inj (Option.some.inj hex)
    obtain ⟨c', r, hmem, hfamily, hresolve | ⟨hresolve, hpassed⟩⟩ :=
      resolve_of_tooLate (lineage_of_run hrun).1 hlong hlate
    · rw [hresolve] at hfirst
      exact ⟨c', r, hmem, hfamily, .inl hfirst⟩
    · rw [hresolve] at hfirst
      exact ⟨c', r, hmem, hfamily,
        .inr ⟨hfirst, fun now hnow => withinGrace_false_of_le hpassed (hread now hnow)⟩⟩
  | _ => exact absurd hex (by simp [exec, fallible])

end Ended

/-- **A hash that is looked up too late is refused, and its family ends.** -/
theorem refusesLate (hrotation : d.refreshRotation = true) {clock : Instant}
    {meets : ServicePool → ServiceAct → Prop} {as₀ : List ServiceAct}
    (hrun : (service d).Run meets (ServicePool.start clock) as₀ p) : RefusesLate d p := by
  rintro c req record x p' as q hpresenting hlate hstep hrun'
  obtain ⟨hl, -⟩ := lineage_of_run hrun
  have hall : (service d).Run System.anyStep (ServicePool.start clock)
      (as₀ ++ .advance c x :: as) q :=
    (hrun.mono fun _ _ _ => trivial).trans (.cons trivial hstep hrun')
  have hcompliant := compliant_of_run d hall
  have hshown := fun {result} (houtcome : RefreshOutcome d req (q.toMoment.past c) result) =>
    shown_of_ended hrun hpresenting hlate hstep hrun' houtcome
  -- no generation is presented to the call
  have hnothing : ∀ {result}, RefreshOutcome d req (q.toMoment.past c) result →
      ∀ s, ¬ Presented d req (q.toMoment.past c) s := by
    rintro result houtcome s (hlive | ⟨retiredAt, now, hgrace, hnow, hwithin⟩)
    · obtain ⟨e, -, hfirst⟩ | ⟨_, r, -, -, hfirst | ⟨hfirst, -⟩⟩ := hshown houtcome <;>
        simp [hlive] at hfirst
    · obtain ⟨e, -, hfirst⟩ | ⟨_, r, -, -, hfirst | ⟨hfirst, hpassed⟩⟩ := hshown houtcome
      · simp [hgrace] at hfirst
      · simp [hgrace] at hfirst
      · obtain ⟨-, rfl⟩ : s = r ∧ retiredAt = record.retiredAt := by simpa [hgrace] using hfirst
        rw [hpassed now hnow] at hwithin
        exact absurd hwithin (by simp)
  constructor
  · intro a hreturned
    have houtcome := hcompliant.returned hreturned hrotation
    obtain ⟨tokens, -, s, _, _, hpresented, -⟩ := houtcome.redeemed a rfl
    exact hnothing houtcome s hpresented
  · intro e hfailed
    have houtcome := hcompliant.failed hfailed hrotation
    obtain ⟨e', hfail, -⟩ | ⟨c', r, hmem, hfamily, hfirst⟩ := hshown houtcome
    · exact .inl ⟨e', hfail⟩
    right
    have hinstalled := (hl.rotated_from c' _ r hmem).1
    have hreuse : ReusePresented d req (q.toMoment.past c) record.familyId r.userId := by
      obtain hfirst | ⟨hfirst, hpassed⟩ := hfirst
      · exact .inl ⟨record.retiredAt, hfirst⟩
      · obtain ⟨now, hnow⟩ := houtcome.clocked r record.retiredAt hfirst
        exact .inr ⟨r, record.retiredAt, now, hfirst, hfamily.symm, rfl, hnow, hpassed now hnow⟩
    obtain ⟨s, hpresented⟩ | ⟨ans, hrevoked⟩ := houtcome.reused record.familyId r.userId hreuse
      (hfamily ▸ hl.valid c' r hinstalled) ((accounts_of_run hrun).owned c' r hinstalled)
    · exact absurd hpresented (hnothing houtcome s)
    · refine ⟨ans, hrevoked, ?_⟩
      rintro ⟨count, rfl⟩
      exact (ended_of_revokedBy hall ⟨count, (Moment.mem_past ..).mp hrevoked⟩).noLive

end Late

/-- **A refresh token is redeemable a bounded number of times**: in every run a hash is
redeemed at most once while live and at most once in grace, and a call that presents it
too late is refused and ends its family. -/
theorem redemption_bounded (hrotation : d.refreshRotation = true)
    {meets : ServicePool → ServiceAct → Prop} {clock : Instant} {p : ServicePool}
    {as : List ServiceAct} (hrun : (service d).Run meets (ServicePool.start clock) as p) :
    (∀ h, RedeemedAtMostTwice d p h) ∧ RefusesLate d p := by
  obtain ⟨hl, htruth⟩ := lineage_of_run hrun
  exact ⟨redeemedAtMostTwice hrotation hl htruth (compliant_of_run d hrun),
    refusesLate hrotation hrun⟩

namespace Sample

/-- Call `c` has redeemed the hash. -/
def hasRedeemed (h : String) (c : ℕ) (p : ServicePool) : Bool :=
  match p.calls c with
  | some ⟨.refresh req, .done _⟩ => digest req.refreshToken == h
  | _ => false

theorem redeems_of_test {h : String} {c : ℕ} {p : ServicePool} (checks : Bool)
    (htest : hasRedeemed h c p = true) : Redeems (deployment checks) p c h := by
  unfold hasRedeemed at htest
  split at htest
  · rename_i req a hc
    exact ⟨req, a, hc, beq_iff_eq.mp htest⟩
  · exact absurd htest (by simp)

end Sample

/-- The bound is reached: one token is redeemed while live and once more in grace. -/
theorem redemption_bounded_twice : ∃ as p,
    (service (Sample.deployment true)).Run System.anyStep (ServicePool.start 0) as p ∧
    Redeems (Sample.deployment true) p 1 (Sample.digest "a") ∧
    Redeems (Sample.deployment true) p 2 (Sample.digest "a") ∧
    (∀ h, RedeemedAtMostTwice (Sample.deployment true) p h) ∧
    RefusesLate (Sample.deployment true) p := by
  have hrun : ((service (Sample.deployment true)).follow (ServicePool.start 0)
      (Sample.signIn "a" ++ Sample.refreshing 1 "a" "b" ++
        Sample.refreshingInGrace 2 "a" "c")).any (fun p =>
      Sample.hasRedeemed (Sample.digest "a") 1 p && Sample.hasRedeemed (Sample.digest "a") 2 p) =
      true := by
    decide +kernel
  obtain ⟨p, hrun, htest⟩ := System.Run.of_follow_any hrun
  obtain ⟨hone, htwo⟩ := Bool.and_eq_true _ _ ▸ htest
  exact ⟨_, p, hrun, Sample.redeems_of_test true hone, Sample.redeems_of_test true htwo,
    redemption_bounded rfl hrun⟩

end OidcExchange
