import OidcExchange.Analysis.NonceLedger
import OidcExchange.Analysis.Undisturbed

/-!
# Direct grants redeem a nonce at most once

Over any number of clients, at most one exchange gets past binding with a nonce; an exchange
that an earlier control refused has left every record alone; and a minted nonce that nobody
presented past those controls is there for its holder until it expires.
-/

set_option autoImplicit false

namespace OidcExchange

open Storage Interleaving

variable {d : Deployment} {g : GrantSettings} {p : GrantPool} {clock : Instant}
variable {as : List GrantAct} {meets : GrantPool → GrantAct → Prop}

/-- Call `c` is the exchange `req` and is past the binding of the claims in the context. -/
structure PastBinding (d : Deployment) (g : GrantSettings) (p : GrantPool) (c : ℕ)
    (req : ExchangeRequest) (claims : IdentityClaims) (ctx : AssertionContext)
    (expiresAt : Instant) : Prop where
  asked : ∃ rest, p.calls c = some ⟨.exchange req, rest⟩
  bound : Bound d g req (p.toMoment.past c) claims ctx expiresAt

/-- Call `c` has redeemed the nonce in a direct grant. -/
def RedeemsNonce (d : Deployment) (g : GrantSettings) (p : GrantPool) (c : ℕ) (nonce : String) :
    Prop :=
  ∃ req claims ctx expiresAt, PastBinding d g p c req claims ctx expiresAt ∧
    req.credential.isDirectGrant = true ∧ claims.usableNonce = some nonce

/-- No step of call `c` up to the pool has changed a single-use record. -/
def TouchesNothing (d : Deployment) (g : GrantSettings) (clock : Instant) (p : GrantPool) (c : ℕ) :
    Prop :=
  ∀ before after x as as', (grants d g).Run System.anyStep (GrantPool.start clock) as before →
    (grants d g).step before (.advance c x) = some after →
    (grants d g).Run System.anyStep after as' p →
    after.world.singleUse = before.world.singleUse

/-- The nonce can be redeemed until it expires: a burn would find its record. -/
def Redeemable (d : Deployment) (p : GrantPool) (nonce : String) (expiresAt : Instant) : Prop :=
  p.world.ports.clock < expiresAt →
    (SingleUseStore.port.take p.world.ports.clock (nonceKey d nonce) p.world.singleUse).1 = .ok true

/-- The exchanges that passed every control that reads presented other nonces. -/
def NotPresented (d : Deployment) (g : GrantSettings) (p : GrantPool) (nonce : String) : Prop :=
  ∀ c req rest claims ctx expiresAt presented, p.calls c = some ⟨.exchange req, rest⟩ →
    Checked d g req (p.toMoment.past c) claims ctx expiresAt →
    claims.usableNonce = some presented → nonceKey d presented ≠ nonceKey d nonce

/-- The call of an exchange is in the history. -/
theorem asked_iff (hrun : (grants d g).Run meets (GrantPool.start clock) as p) {c : ℕ}
    {request : GrantRequest} :
    .began c request ∈ p.history ↔ ∃ rest, p.calls c = some ⟨request, rest⟩ := by
  have hdisciplined : Disciplined (GrantReady d g) (fun _ => GrantOutcome d) p :=
    Disciplined.run grantBody_obeys hrun (Disciplined.initial _)
  cases hc : p.calls c with
  | none =>
    refine iff_of_false (fun hbegan => hdisciplined.unseen c hc _ hbegan rfl) (by simp)
  | some call =>
    rw [hdisciplined.asked c call hc]
    constructor
    · rintro rfl
      exact ⟨call.rest, rfl⟩
    · rintro ⟨rest, hcall⟩
      rw [Option.some.inj hcall]

theorem redeemed_once (hrun : (grants d g).Run meets (GrantPool.start clock) as p) {c c' : ℕ}
    {nonce : String} (h : RedeemsNonce d g p c nonce) (h' : RedeemsNonce d g p c' nonce) :
    c = c' := by
  have hburned : ∀ {c}, RedeemsNonce d g p c nonce →
      Did p.toMoment c (.takeSingleUse (nonceKey d nonce)) (.ok true) := by
    rintro c ⟨req, claims, ctx, expiresAt, hpast, hdirect, hnonce⟩
    obtain ⟨provider, jwt, accessToken, -, -, -, rfl⟩ := hpast.bound.checked.validated
    obtain ⟨nonce', hnonce', hmem⟩ := hpast.bound.burned hdirect
    obtain rfl : nonce = nonce' := Option.some.inj (hnonce.symm.trans hnonce')
    exact did_of_past hmem
  exact ((nonces_of_run hrun).1.keys nonce).once c c' (hburned h) (hburned h')

/-- A call that has not passed the controls that read has performed ports alone. -/
theorem touchesNothing_of_refused (hrun : (grants d g).Run System.anyStep (GrantPool.start clock) as p)
    {c : ℕ} {req : ExchangeRequest} {rest : Program BindingAns (Fault Error) GrantResponse}
    (hc : p.calls c = some ⟨.exchange req, rest⟩) (hrefused : RefusedEarly d g req (p.toMoment.past c)) :
    TouchesNothing d g clock p c := by
  intro before after x _ _ _ hstep hlater
  obtain ⟨c', i, hact, -⟩ | ⟨c', x', i, o, next, ans, w, hact, -, hex, hm, -⟩ |
    ⟨k, w, hact, -⟩ := Pool.step_cases hstep
  · exact absurd hact (by simp)
  · obtain ⟨rfl, rfl⟩ : c = c' ∧ x = x' := by simpa using hact
    have hmem : ⟨o, ans⟩ ∈ p.toMoment.past c := by
      refine (Moment.mem_past _ c o ans).mpr ((Pool.history_of_run hlater).subset ?_)
      rw [hm, Disciplined.mem_settle_history]
      exact .inr (List.mem_cons_self ..)
    have hworld : after.world = w := by
      rw [hm, Disciplined.settle_world, Moment.performed_world]
    by_cases hport : o.IsPort
    · cases o with
      | port o =>
        rw [hworld]
        exact singleUse_of_port (grantStep_of_exec hex)
      | putSingleUse => exact hport.elim
      | takeSingleUse => exact hport.elim
    · obtain ⟨claims, ctx, expiresAt, hchecked⟩ := (nonces_of_run hrun).2.checked c req
        ((asked_iff hrun).mpr ⟨rest, hc⟩) _ hmem hport
      exact absurd hrefused hchecked.not_refused
  · exact absurd hact (by simp)

/-- A minted nonce has a record, which only a call that passed the checks burns. -/
theorem redeemable_of_minted (hrun : (grants d g).Run meets (GrantPool.start clock) as p) {c : ℕ}
    {minted : MintedNonce} (hc : p.Returned c .mintNonce (.nonce minted)) :
    ∃ expiresAt, ⟨.putSingleUse (nonceKey d minted.nonce) expiresAt, .ok true⟩ ∈ p.toMoment.past c ∧
      (NotPresented d g p minted.nonce → Redeemable d p minted.nonce expiresAt) := by
  have hdisciplined : Disciplined (GrantReady d g) (fun _ => GrantOutcome d) p :=
    Disciplined.run grantBody_obeys hrun (Disciplined.initial _)
  obtain ⟨expiresAt, hmem⟩ := hdisciplined.returned hc
  obtain ⟨hledger, hearned⟩ := nonces_of_run hrun
  refine ⟨expiresAt, hmem, fun hkept hlive => ?_⟩
  have huntaken : ∀ c' ans, ¬ Did p.toMoment c' (.takeSingleUse (nonceKey d minted.nonce)) ans := by
    intro c' ans hdid
    obtain ⟨req, claims, ctx, e, presented, hbegan, hchecked, hpresented, hkey⟩ :=
      hearned.took c' _ ans ((Moment.mem_past _ c' _ _).mpr hdid)
    obtain ⟨rest, hc'⟩ := (asked_iff hrun).mp hbegan
    exact hkept c' req rest claims ctx e presented hc' hchecked hpresented hkey.symm
  obtain hlapsed | hlookup :=
    (hledger.keys minted.nonce).held c expiresAt (did_of_past hmem) huntaken
  · exact absurd hlive (Int.not_lt.mpr hlapsed)
  · have hkey : nonceKey d minted.nonce ≠ "" := by
      intro hempty
      have := congrArg String.toList hempty
      simp [nonceKey] at this
    simp [SingleUseStore.port, hkey, hlookup, hlive]

/-- **Nonces of direct grants are single use end to end.** -/
theorem direct_grant_single_use
    (hrun : (grants d g).Run System.anyStep (GrantPool.start clock) as p) :
    (∀ c c' nonce, RedeemsNonce d g p c nonce → RedeemsNonce d g p c' nonce → c = c') ∧
    (∀ c req rest, p.calls c = some ⟨.exchange req, rest⟩ →
      RefusedEarly d g req (p.toMoment.past c) → TouchesNothing d g clock p c) ∧
    ∀ c minted, p.Returned c .mintNonce (.nonce minted) →
      ∃ expiresAt,
        ⟨.putSingleUse (nonceKey d minted.nonce) expiresAt, .ok true⟩ ∈ p.toMoment.past c ∧
        (NotPresented d g p minted.nonce → Redeemable d p minted.nonce expiresAt) := by
  refine ⟨fun c c' nonce h h' => redeemed_once hrun h h', ?_, ?_⟩
  · exact fun c req rest hc hrefused => touchesNothing_of_refused hrun hc hrefused
  · exact fun c minted hc => redeemable_of_minted hrun hc

/-! ## A small pool of grants -/

namespace GrantSample

/-- Nonces live five minutes. -/
def settings : GrantSettings where
  nonceTtl := 300
  leftHalf _ accessToken := accessToken

/-- The text of a nonce. -/
def theNonce : String := String.ofList (List.replicate nonceB64urlLen 'n')

/-- The claims of an assertion that expires at second 500. -/
def claims : IdentityClaims :=
  { Sample.claims with
    rawClaims := ((∅ : Table String Value).insert "exp" (.number 500 0)).insert "nonce"
      (.string theNonce) }

/-- The environment lets a port do its work. -/
def proceed : BindingChoice := .port .proceed

/-- A call begins and goes on alone. -/
def call (c : ℕ) (request : GrantRequest) (choices : List BindingChoice) : List GrantAct :=
  .begin c request :: choices.map (.advance c)

/-- A client is given the nonce. -/
def minting (c : ℕ) : List GrantAct :=
  call c .mintNonce [.port (.draw theNonce), proceed, proceed]

/-- What the environment decides until the assertion of a direct grant is bound. -/
def bindChoices : List BindingChoice :=
  [.port (.decide .allow), .port (.identify claims), .port (.decide .allow), proceed, proceed,
    proceed]

/-- A direct grant goes on until it has looked its user up. -/
def granting (c : ℕ) : List GrantAct :=
  call c (.exchange Sample.login) (bindChoices ++ [proceed])

/-- The operation looks a user up. -/
def isLookup : Performed BindingAns → Bool
  | ⟨.port (.getUserByExternalId _ _), _⟩ => true
  | _ => false

/-- The provider's verdict on the assertion of the call. -/
def verdict (c : ℕ) (p : GrantPool) : Option IdentityClaims :=
  (earliest verdictOf (p.toMoment.past c)).bind fun v => v.2.2.toOption

/-- Call `c` is a direct grant that has looked its user up with an assertion of the nonce. -/
def hasRedeemedNonce (nonce : String) (c : ℕ) (p : GrantPool) : Bool :=
  match p.calls c with
  | some ⟨.exchange req, _⟩ => req.credential.isDirectGrant && (p.toMoment.past c).any isLookup &&
      (verdict c p).any fun claims => claims.usableNonce == some nonce
  | _ => false

theorem bound_of_lookup {c : ℕ} {req : ExchangeRequest}
    {rest : Program BindingAns (Fault Error) GrantResponse}
    (hrun : (grants d g).Run meets (GrantPool.start clock) as p)
    (hc : p.calls c = some ⟨.exchange req, rest⟩)
    (hlookup : (p.toMoment.past c).any isLookup = true) :
    ∃ claims ctx expiresAt, PastBinding d g p c req claims ctx expiresAt ∧
      verdict c p = some claims := by
  obtain ⟨⟨o, ans⟩, hmem, his⟩ := List.any_eq_true.mp hlookup
  unfold isLookup at his
  split at his
  · rename_i externalId provider found heq
    cases heq
    obtain ⟨claims, ctx, expiresAt, hbound⟩ := (nonces_of_run hrun).2.bound c req externalId provider
      found ((asked_iff hrun).mpr ⟨rest, hc⟩) hmem
    refine ⟨claims, ctx, expiresAt, ⟨⟨rest, hc⟩, hbound⟩, ?_⟩
    obtain ⟨provider, jwt, accessToken, -, -, hverdict, -⟩ := hbound.checked.validated
    unfold verdict
    rw [hverdict]
    rfl
  · exact absurd his (by simp)

theorem redeemsNonce_of_test {nonce : String} {c : ℕ}
    (hrun : (grants d g).Run meets (GrantPool.start clock) as p)
    (htest : hasRedeemedNonce nonce c p = true) : RedeemsNonce d g p c nonce := by
  unfold hasRedeemedNonce at htest
  split at htest
  · rename_i req rest hc
    obtain ⟨hgrant, hnonce⟩ := Bool.and_eq_true _ _ ▸ htest
    obtain ⟨hdirect, hlookup⟩ := Bool.and_eq_true _ _ ▸ hgrant
    obtain ⟨claims, ctx, expiresAt, hpast, hverdict⟩ := bound_of_lookup hrun hc hlookup
    rw [hverdict] at hnonce
    exact ⟨req, claims, ctx, expiresAt, hpast, hdirect, beq_iff_eq.mp hnonce⟩
  · exact absurd htest (by simp)

end GrantSample

/-- A nonce is minted and redeemed, and two calls present it. -/
theorem direct_grant_single_use_redeemed : ∃ as p,
    (grants (Sample.deployment true) GrantSample.settings).Run System.anyStep
      (GrantPool.start 1000000000) as p ∧
    RedeemsNonce (Sample.deployment true) GrantSample.settings p 1 GrantSample.theNonce ∧
    ∀ c, RedeemsNonce (Sample.deployment true) GrantSample.settings p c GrantSample.theNonce →
      c = 1 := by
  have hrun : ((grants (Sample.deployment true) GrantSample.settings).follow
      (GrantPool.start 1000000000) (GrantSample.minting 0 ++ GrantSample.granting 1 ++
        GrantSample.call 2 (.exchange Sample.login)
          (GrantSample.bindChoices.dropLast))).any
      (GrantSample.hasRedeemedNonce GrantSample.theNonce 1) = true := by
    decide +kernel
  obtain ⟨p, hrun, htest⟩ := System.Run.of_follow_any hrun
  have hone := GrantSample.redeemsNonce_of_test hrun htest
  exact ⟨_, p, hrun, hone, fun c hc => (direct_grant_single_use hrun).1 c 1 _ hc hone⟩

end OidcExchange
