import OidcExchange.Analysis.DirectGrant

/-!
# An assertion is accepted at most once

The marker of an assertion is kept until the assertion expires. While every marker is claimed
before that, by the clock of the store, no assertion is bound twice; a claim that arrives later
finds the earlier marker lapsed and replaces it.
-/

set_option autoImplicit false

namespace OidcExchange

open Storage Interleaving

variable {d : Deployment} {g : GrantSettings}

/-- Markers are claimed while the assertion has not expired by the clock of the store. -/
def MarkerInTime (d : Deployment) (m : GrantMoment) (_c : ℕ) (_x : BindingChoice)
    (o : BindingOp) : Prop :=
  ∀ claims ctx expiresAt, o = .putSingleUse (assertionMarkerKey d ctx claims) expiresAt →
    m.world.ports.clock < expiresAt

/-- What the history and the store say of each other about the markers of one expiry. -/
structure MarkerLedger (d : Deployment) (m : GrantMoment) : Prop where
  held : ∀ c claims ctx e, Did m c (.putSingleUse (assertionMarkerKey d ctx claims) e) (.ok true) →
    e ≤ m.world.ports.clock ∨
      m.world.singleUse.lookup (assertionMarkerKey d ctx claims) = some e
  once : ∀ c c' claims ctx e,
    Did m c (.putSingleUse (assertionMarkerKey d ctx claims) e) (.ok true) →
    Did m c' (.putSingleUse (assertionMarkerKey d ctx claims) e) (.ok true) → c = c'

namespace MarkerLedger

variable {m : GrantMoment} {c : ℕ} {w : BindingWorld}

/-- An operation that claims no marker, and leaves those that have not lapsed. -/
theorem frame (h : MarkerLedger d m) {o : BindingOp} {ans : BindingAns o}
    (ho : ∀ claims ctx e, (⟨.putSingleUse (assertionMarkerKey d ctx claims) e, .ok true⟩ :
      Performed BindingAns) ≠ ⟨o, ans⟩)
    (hclock : m.world.ports.clock ≤ w.ports.clock)
    (hkept : ∀ claims ctx e,
      m.world.singleUse.lookup (assertionMarkerKey d ctx claims) = some e →
      e ≤ w.ports.clock ∨ w.singleUse.lookup (assertionMarkerKey d ctx claims) = some e) :
    MarkerLedger d (m.performed c o ans w) := by
  have hput : ∀ {c' claims ctx e}, Did (m.performed c o ans w) c'
      (.putSingleUse (assertionMarkerKey d ctx claims) e) (.ok true) →
      Did m c' (.putSingleUse (assertionMarkerKey d ctx claims) e) (.ok true) := by
    intro c' claims ctx e hdid
    obtain ⟨-, heq⟩ | hdid := did_performed.mp hdid
    · exact absurd heq (ho claims ctx e)
    · exact hdid
  constructor
  · intro c' claims ctx e hdid
    obtain hlapsed | hlookup := h.held c' claims ctx e (hput hdid)
    · exact .inl (Int.le_trans hlapsed hclock)
    · exact hkept claims ctx e hlookup
  · exact fun c₁ c₂ claims ctx e h₁ h₂ => h.once c₁ c₂ claims ctx e (hput h₁) (hput h₂)

/-- A marker is claimed in time where none is live: its earlier claims have lapsed. -/
theorem claimed (h : MarkerLedger d m) {key : String} {expiresAt : Instant} {ans : Answer Bool}
    (hlapsed : ∀ e, m.world.singleUse.lookup key = some e → e ≤ m.world.ports.clock)
    (htime : MarkerInTime d m c (.port .proceed) (.putSingleUse key expiresAt)) :
    MarkerLedger d (m.performed c (.putSingleUse key expiresAt) ans
      { m.world with singleUse := m.world.singleUse.insert key expiresAt }) := by
  -- an earlier claim of the key until the same instant would be live still
  have hfirst : ∀ {c' claims ctx}, assertionMarkerKey d ctx claims = key →
      ¬ Did m c' (.putSingleUse (assertionMarkerKey d ctx claims) expiresAt) (.ok true) := by
    intro c' claims ctx hkey hdid
    have hpast : expiresAt ≤ m.world.ports.clock := by
      obtain hpast | hlookup := h.held c' claims ctx expiresAt hdid
      · exact hpast
      · exact hlapsed expiresAt (hkey ▸ hlookup)
    exact absurd (htime claims ctx expiresAt (by rw [hkey])) (Int.not_lt.mpr hpast)
  constructor
  · intro c' claims ctx e hdid
    obtain ⟨-, heq⟩ | hdid := did_performed.mp hdid
    · cases heq
      exact .inr (AList.lookup_insert _)
    · by_cases hkey : assertionMarkerKey d ctx claims = key
      · obtain hpast | hlookup := h.held c' claims ctx e hdid
        · exact .inl hpast
        · exact .inl (hlapsed e (hkey ▸ hlookup))
      · rw [Moment.performed_world, AList.lookup_insert_ne hkey]
        exact h.held c' claims ctx e hdid
  · intro c₁ c₂ claims ctx e h₁ h₂
    obtain ⟨hc₁, heq₁⟩ | hold₁ := did_performed.mp h₁
    · obtain ⟨hc₂, -⟩ | hold₂ := did_performed.mp h₂
      · exact hc₁.trans hc₂.symm
      · cases heq₁
        exact absurd hold₂ (hfirst rfl)
    · obtain ⟨-, heq₂⟩ | hold₂ := did_performed.mp h₂
      · cases heq₂
        exact absurd hold₁ (hfirst rfl)
      · exact h.once c₁ c₂ claims ctx e hold₁ hold₂

/-- Every operation in time of a call that complies keeps the ledger. -/
theorem performs (h : MarkerLedger d m) {request : GrantRequest} {x : BindingChoice}
    {o : BindingOp} {ans : BindingAns o} (hready : GrantReady d g request (m.past c) o)
    (htime : MarkerInTime d m c x o) (hstep : GrantStep d m.world o ans w) :
    MarkerLedger d (m.performed c o ans w) := by
  have hclock := clock_of_grantStep hstep
  cases hstep with
  | drew raw _ => exact h.frame (fun _ _ _ heq => by cases heq) hclock fun _ _ _ => .inr
  | port => exact h.frame (fun _ _ _ heq => by cases heq) hclock fun _ _ _ => .inr
  | claimed hlapsed => exact h.claimed hlapsed htime
  | notClaimed hrefused =>
    refine h.frame (fun _ _ _ heq => ?_) hclock fun _ _ _ => .inr
    cases heq
    exact hrefused rfl
  | burned =>
    refine h.frame (fun _ _ _ heq => by cases heq) hclock fun claims ctx e hlookup => .inr ?_
    obtain ⟨req, claims', ctx', expiresAt, nonce, -, -, -, rfl⟩ := hready
    rwa [AList.lookup_erase_ne (nonceKey_ne_marker nonce ctx claims).symm]
  | notBurned => exact h.frame (fun _ _ _ heq => by cases heq) hclock fun _ _ _ => .inr

/-- The world moves on its own. -/
theorem drifted (h : MarkerLedger d m) {k : BindingDrift}
    (hdrift : BindingWorld.drift k m.world = some w) : MarkerLedger d (m.drifted w) := by
  refine ⟨fun c claims ctx e hdid => ?_, h.once⟩
  rw [Moment.drifted_world]
  cases k with
  | ports k =>
    obtain ⟨ports, hports, rfl⟩ := Option.map_eq_some_iff.mp hdrift
    obtain hlapsed | hlookup := h.held c claims ctx e hdid
    · exact .inl (Int.le_trans hlapsed (shrinks_of_drift hports).1.clock)
    · exact .inr hlookup
  | reclaim key =>
    simp only [BindingWorld.drift] at hdrift
    split at hdrift
    · rename_i e' hlookup'
      split at hdrift
      · rename_i hlapsed
        obtain rfl := Option.some.inj hdrift
        obtain hpast | hlookup := h.held c claims ctx e hdid
        · exact .inl hpast
        · by_cases hkey : assertionMarkerKey d ctx claims = key
          · rw [hkey] at hlookup
            obtain rfl : e' = e := Option.some.inj (hlookup'.symm.trans hlookup)
            exact .inl hlapsed
          · exact .inr (by rwa [AList.lookup_erase_ne hkey])
      · exact absurd hdrift (by simp)
    · exact absurd hdrift (by simp)

/-- The ledger speaks of operations and the world alone. -/
theorem same (h : MarkerLedger d m) {m' : GrantMoment}
    (hdid : ∀ {c o} {ans : BindingAns o}, Did m' c o ans ↔ Did m c o ans)
    (hworld : m'.world = m.world) : MarkerLedger d m' := by
  constructor <;> simp only [hdid, hworld]
  · exact h.held
  · exact h.once

end MarkerLedger

/-- The ledger of markers, kept by every step that claims its marker in time. -/
def markerProtocol (d : Deployment) (g : GrantSettings) :
    Protocol (bindingSemantics d) (GrantReady d g) where
  inv m := MarkerLedger d m
  allowed := MarkerInTime d
  begins h _ := h.same did_begin rfl
  performs h _ hready htime hex := h.performs hready htime (grantStep_of_exec hex)
  ends h _ := h.same did_ended rfl
  drifts h hdrift := h.drifted hdrift

/-- The instant at which the claims say the assertion expires. -/
def IdentityClaims.expiry (claims : IdentityClaims) : Option Instant :=
  ((claims.rawClaims.lookup "exp").bind Value.numericDate).bind Instant.ofTimestamp

/-- The marker of an assertion is kept until the instant that its claims name. -/
theorem expiry_of_controls {claims : IdentityClaims} {ctx : AssertionContext} {now e : Instant}
    (h : readingControls d g claims ctx now = .ok e) : claims.expiry = some e := by
  obtain ⟨e', hlifetime, hrest⟩ := ok_of_bind h
  obtain ⟨_, -, hrest⟩ := ok_of_bind hrest
  obtain ⟨_, -, hrest⟩ := ok_of_bind hrest
  obtain rfl : e' = e := by simpa using hrest
  unfold checkLifetime at hlifetime
  unfold IdentityClaims.expiry
  split at hlifetime
  · exact absurd hlifetime (by simp [rejected])
  · rename_i expSecs hexp
    obtain ⟨_, -, hlifetime⟩ := ok_of_bind hlifetime
    obtain ⟨remaining, -, hlifetime⟩ := ok_of_bind hlifetime
    rw [hexp, Option.bind_some]
    split at hlifetime
    · exact absurd hlifetime (by simp [rejected])
    split at hlifetime
    · exact absurd hlifetime (by simp [rejected])
    split at hlifetime
    · exact absurd hlifetime (by simp [rejected])
    · rename_i expiresAt hinstant
      rw [hinstant, Except.ok.inj hlifetime]

/-- A marker names the provider and the assertion. -/
theorem marker_congr {claims : IdentityClaims} {ctx ctx' : AssertionContext}
    (hprovider : ctx.providerId = ctx'.providerId) (hjwt : ctx.compactJwt = ctx'.compactJwt) :
    assertionMarkerKey d ctx claims = assertionMarkerKey d ctx' claims := by
  unfold assertionMarkerKey
  rw [hprovider, hjwt]

variable {p : GrantPool} {clock : Instant} {as : List GrantAct}

/-- **While markers are claimed before the assertion expires, an assertion is accepted at most
once.** -/
theorem assertion_accepted_once
    (hrun : (grants d g).Run (Pool.Under (MarkerInTime d)) (GrantPool.start clock) as p)
    {c c' : ℕ} {req req' : ExchangeRequest} {claims : IdentityClaims} {ctx ctx' : AssertionContext}
    {e e' : Instant} (h : PastBinding d g p c req claims ctx e)
    (h' : PastBinding d g p c' req' claims ctx' e') (hprovider : ctx.providerId = ctx'.providerId)
    (hjwt : ctx.compactJwt = ctx'.compactJwt) : c = c' := by
  have hstart : MarkerLedger d (GrantPool.start clock).toMoment := by
    constructor <;> simp [Did, GrantPool.start, Pool.initial]
  have hledger : MarkerLedger d p.toMoment :=
    (markerProtocol d g).run grantBody_obeys hrun (Disciplined.initial _) hstart
  have hmarked := did_of_past h.bound.marked
  have hmarked' := did_of_past h'.bound.marked
  obtain ⟨now, -, hcontrols⟩ := h.bound.checked.controls
  obtain ⟨now', -, hcontrols'⟩ := h'.bound.checked.controls
  have hexpiry := (expiry_of_controls hcontrols).symm.trans (expiry_of_controls hcontrols')
  obtain rfl : e = e' := Option.some.inj hexpiry
  rw [← marker_congr hprovider hjwt] at hmarked'
  exact hledger.once c c' claims ctx e hmarked hmarked'

/-! ## Runs of two exchanges -/

namespace GrantSample

/-- An authorization code is redeemed; no nonce is asked for. -/
def redeemCode : ExchangeRequest :=
  { Sample.login with credential := .authorizationCode "code" "https://app.example/callback" }

/-- The exchange of a code goes on until it has read the clock. -/
def redeeming (c : ℕ) : List GrantAct :=
  call c (.exchange redeemCode)
    [.port (.decide .allow),
      .port (.grant { idToken := "jwt", refreshToken := none, accessToken := none }),
      .port (.identify claims), .port (.decide .allow), proceed]

/-- It claims its marker and looks its user up. -/
def marking (c : ℕ) : List GrantAct := [.advance c proceed, .advance c proceed]

/-- The claims are the ones of the sample. -/
def isClaims (found : IdentityClaims) : Bool :=
  decide (found.subject = claims.subject) && decide (found.email = claims.email) &&
    decide (found.emailVerified = claims.emailVerified) && decide (found.name = claims.name) &&
    decide (found.isPrivateEmail = claims.isPrivateEmail) &&
    decide (found.signingAlg = claims.signingAlg) &&
    match found.rawClaims.entries with
    | [⟨name, .string text⟩, ⟨name', .number 500 0⟩] =>
      decide (name = "nonce" ∧ text = theNonce ∧ name' = "exp")
    | _ => false

theorem eq_of_isClaims {found : IdentityClaims} (h : isClaims found = true) : found = claims := by
  obtain ⟨subject, email, emailVerified, name, isPrivateEmail, signingAlg, rawClaims⟩ := found
  simp only [isClaims, Bool.and_eq_true, decide_eq_true_eq] at h
  obtain ⟨⟨⟨⟨⟨⟨rfl, rfl⟩, rfl⟩, rfl⟩, rfl⟩, rfl⟩, hraw⟩ := h
  split at hraw
  · rename_i hentries
    obtain ⟨rfl, rfl, rfl⟩ := of_decide_eq_true hraw
    have hsame : rawClaims = claims.rawClaims := AList.ext (hentries.trans rfl)
    rw [hsame]
  · exact absurd hraw (by simp)

/-- Call `c` has redeemed the code and has looked its user up with the claims of the sample. -/
def hasPassed (c : ℕ) (p : GrantPool) : Bool :=
  match p.calls c with
  | some ⟨.exchange req, _⟩ => !req.credential.isDirectGrant && (req.provider == "idp") &&
      (p.toMoment.past c).any isLookup &&
      (earliest verdictOf (p.toMoment.past c)).any fun v =>
        v.2.1 == "jwt" && v.2.2.toOption.any isClaims
  | _ => false

/-- Call `c` is past binding the assertion of the sample, and no nonce was asked for. -/
def Passed (p : GrantPool) (c : ℕ) : Prop :=
  ∃ req ctx e, PastBinding (Sample.deployment true) settings p c req claims ctx e ∧
    ctx.requireNonce = false ∧ ctx.providerId = "idp" ∧ ctx.compactJwt = "jwt"

theorem passed_of_test {meets : GrantPool → GrantAct → Prop} {c : ℕ}
    (hrun : (grants (Sample.deployment true) settings).Run meets (GrantPool.start clock) as p)
    (htest : hasPassed c p = true) : Passed p c := by
  unfold hasPassed at htest
  split at htest
  · rename_i req rest hc
    simp only [Bool.and_eq_true, Bool.not_eq_true', beq_iff_eq] at htest
    obtain ⟨⟨⟨hcode, hidp⟩, hlookup⟩, hverdict⟩ := htest
    obtain ⟨found, ctx, e, hpast, -⟩ := bound_of_lookup hrun hc hlookup
    obtain ⟨provider, jwt, accessToken, hprovider, -, hseen, rfl⟩ := hpast.bound.checked.validated
    simp only [hseen, Option.any_some, Except.toOption, Bool.and_eq_true, beq_iff_eq] at hverdict
    obtain ⟨rfl, hclaims⟩ := hverdict
    obtain rfl := eq_of_isClaims hclaims
    refine ⟨req, _, e, hpast, hcode, ?_, rfl⟩
    have hknown : (Sample.deployment true).providers.lookup "idp" =
        some { providerId := "idp", clientId := "app" } := rfl
    rw [hidp, hknown] at hprovider
    exact congrArg Provider.providerId (Option.some.inj hprovider).symm
  · exact absurd htest (by simp)

/-- The operation claims no key after the instant. -/
def inTime (p : GrantPool) : GrantAct → Bool
  | .advance c _ =>
    match p.calls c with
    | some ⟨_, .perform (.putSingleUse _ expiresAt) _⟩ => decide (p.world.ports.clock < expiresAt)
    | _ => true
  | _ => true

theorem markerInTime_of_test (p : GrantPool) (a : GrantAct) (h : inTime p a = true) :
    p.Under (MarkerInTime d) a := by
  rintro c x o ⟨rfl, i, next, hc⟩ claims ctx expiresAt rfl
  simp only [inTime, hc] at h
  exact of_decide_eq_true h

end GrantSample

/-- Two exchanges present one assertion in time, and one of them gets past binding. -/
theorem assertion_accepted_once_in_time : ∃ as p,
    (grants (Sample.deployment true) GrantSample.settings).Run
      (Pool.Under (MarkerInTime (Sample.deployment true))) (GrantPool.start 1000000000) as p ∧
    GrantSample.Passed p 1 ∧ ∀ c, GrantSample.Passed p c → c = 1 := by
  have hrun : ((grants (Sample.deployment true) GrantSample.settings).followWhen GrantSample.inTime
      (GrantPool.start 1000000000)
      (GrantSample.redeeming 2 ++ GrantSample.redeeming 1 ++ GrantSample.marking 1 ++
        [.advance 2 GrantSample.proceed])).any (GrantSample.hasPassed 1) = true := by
    decide +kernel
  obtain ⟨p, hrun, htest⟩ :=
    System.Run.of_followWhen_any GrantSample.markerInTime_of_test hrun
  have hone := GrantSample.passed_of_test hrun htest
  refine ⟨_, p, hrun, hone, ?_⟩
  rintro c ⟨req, ctx, e, hpast, -, hprovider, hjwt⟩
  obtain ⟨req', ctx', e', hpast', -, hprovider', hjwt'⟩ := hone
  exact assertion_accepted_once hrun hpast hpast' (hprovider.trans hprovider'.symm)
    (hjwt.trans hjwt'.symm)

/-- The claim of the second exchange arrives when the assertion has expired. -/
theorem assertion_accepted_twice : ∃ as p,
    (grants (Sample.deployment true) GrantSample.settings).Run System.anyStep
      (GrantPool.start 1000000000) as p ∧ GrantSample.Passed p 1 ∧ GrantSample.Passed p 2 := by
  have hrun : ((grants (Sample.deployment true) GrantSample.settings).follow
      (GrantPool.start 1000000000)
      (GrantSample.redeeming 2 ++ GrantSample.redeeming 1 ++ GrantSample.marking 1 ++
        [.drift (.ports (.tick 499000000000))] ++ GrantSample.marking 2)).any
      (fun p => GrantSample.hasPassed 1 p && GrantSample.hasPassed 2 p) = true := by
    decide +kernel
  obtain ⟨p, hrun, htest⟩ := System.Run.of_follow_any hrun
  obtain ⟨hone, htwo⟩ := Bool.and_eq_true _ _ ▸ htest
  exact ⟨_, p, hrun, GrantSample.passed_of_test hrun hone, GrantSample.passed_of_test hrun htwo⟩

end OidcExchange
