import OidcExchange.Interleaving.Assumption
import OidcExchange.Program.Assertion
import OidcExchange.Program.Refresh

/-!
# Where a lifetime panics a call

The circumstances under which nothing but a lifetime can panic a call: the ports answer without
a panic and with records as the service writes them. In these circumstances a call whose
lifetimes fit the clock does not panic, whatever it is answered.
-/

set_option autoImplicit false

namespace OidcExchange

open Storage Interleaving Service

/-! ## Deadlines -/

/-- The seconds of a configured lifetime, as the source casts them. -/
def signedSecs (secs : UInt64) : ℤ := secs.toInt64.toInt

/-- The years 1970 to 2100. -/
def WithinYears (t : ℤ) : Prop := 0 ≤ t ∧ t < 4133980800 * nanosPerSec

instance (t : ℤ) : Decidable (WithinYears t) := inferInstanceAs (Decidable (_ ∧ _))

/-- The instant a lifetime after `t` can be represented. -/
def DeadlineFits (t : ℤ) (secs : UInt64) : Prop :=
  minInstantSecs * nanosPerSec ≤ t + signedSecs secs * nanosPerSec ∧
    t + signedSecs secs * nanosPerSec < endInstantSecs * nanosPerSec

instance (t : ℤ) (secs : UInt64) : Decidable (DeadlineFits t secs) :=
  inferInstanceAs (Decidable (_ ∧ _))

/-- The deadline that several flows compute. -/
def deadline (t : Instant) (secs : UInt64) : Option Instant := (spanOfSecs secs).bind t.add

/-- Within the years a lifetime whose deadline fits is one a span can be built from. -/
theorem deadline_eq {t : Instant} (secs : UInt64) (ht : WithinYears t) :
    deadline t secs = some (t + signedSecs secs * nanosPerSec) ∧ DeadlineFits t secs ∨
      deadline t secs = none ∧ ¬ DeadlineFits t secs := by
  unfold WithinYears nanosPerSec at ht
  unfold deadline spanOfSecs DeadlineFits
  simp only [show secs.toInt64.toInt = signedSecs secs from rfl]
  by_cases hspan : -maxSpanSecs ≤ signedSecs secs ∧ signedSecs secs ≤ maxSpanSecs
  · rw [if_pos hspan, Option.bind_some, Instant.add]
    by_cases hfits : minInstantSecs * nanosPerSec ≤ t + signedSecs secs * nanosPerSec ∧
        t + signedSecs secs * nanosPerSec < endInstantSecs * nanosPerSec
    · exact Or.inl ⟨if_pos hfits, hfits⟩
    · exact Or.inr ⟨if_neg hfits, hfits⟩
  · right
    refine ⟨by rw [if_neg hspan]; rfl, ?_⟩
    rintro ⟨hlow, hhigh⟩
    apply hspan
    unfold minInstantSecs nanosPerSec at hlow
    unfold endInstantSecs nanosPerSec at hhigh
    unfold maxSpanSecs
    constructor <;> omega

theorem deadline_isSome {t : Instant} {secs : UInt64} (ht : WithinYears t)
    (hfits : DeadlineFits t secs) : ∃ e, deadline t secs = some e := by
  rcases deadline_eq secs ht with ⟨h, -⟩ | ⟨-, h⟩
  · exact ⟨_, h⟩
  · exact absurd hfits h

theorem deadline_eq_none {t : Instant} {secs : UInt64} (ht : WithinYears t)
    (hfits : ¬ DeadlineFits t secs) : deadline t secs = none := by
  rcases deadline_eq secs ht with ⟨-, h⟩ | ⟨h, -⟩
  · exact absurd h hfits
  · exact h

/-- The retention deadline has a value where its two parts have. -/
theorem retentionDeadline_eq_none_iff {t : Instant} {secs : UInt64} (hpos : 0 < secs.toNat)
    (familyExpiresAt : Instant) :
    World.retentionDeadline t secs familyExpiresAt = none ↔ deadline t secs = none := by
  have hne : secs ≠ 0 := by
    rintro rfl
    exact absurd hpos (by decide)
  unfold World.retentionDeadline deadline
  rw [if_neg hne]
  cases hspan : spanOfSecs secs with
  | none => simp
  | some d => cases hadd : t.add d <;> simp [hadd]

/-! ## Circumstances -/

/-- The answer is an error or a value as described; it is no panic. -/
def Sound {ε α : Type} (P : α → Prop) : Except (Fault ε) α → Prop
  | .ok a => P a
  | .error (.error _) => True
  | .error .panic => False

/-- A result that is no panic. -/
abbrev Unbroken {ε α : Type} : Except (Fault ε) α → Prop := Sound fun _ => True

section Sound

variable {ε α β : Type} {P : α → Prop} {Q : β → Prop}

@[simp] theorem sound_ok (a : α) : Sound P (.ok a : Except (Fault ε) α) ↔ P a := Iff.rfl

@[simp] theorem sound_error (e : ε) : Sound P (.error (.error e) : Except (Fault ε) α) := trivial

@[simp] theorem not_sound_panic : ¬ Sound P (.error .panic : Except (Fault ε) α) := id

/-- A sequence of sound steps is sound. -/
theorem Sound.bind {r : Except (Fault ε) α} {f : α → Except (Fault ε) β} (h : Sound P r)
    (hf : ∀ a, P a → Sound Q (f a)) : Sound Q (r >>= f) := by
  cases r with
  | ok a => exact hf a h
  | error e =>
    cases e with
    | error e => exact sound_error e
    | panic => exact h.elim

theorem unbroken_iff {r : Except (Fault ε) α} : Unbroken r ↔ r ≠ .error .panic := by
  rcases r with (e | _) | a <;> simp

end Sound

/-- A session as the service writes it, with a generation that has a successor. -/
structure GenuineSession (stored : String → Prop) (s : Session) : Prop where
  stored : stored s.refreshTokenHash
  hash : s.refreshTokenHash ≠ ""
  user : s.userId ≠ ""
  family : s.familyId = "" ∨ isValidFamilyId s.familyId = true
  generation : s.generation.toNat + 1 < 2 ^ 32

/-- A classification of records as the service writes them. -/
def GenuineResolution (stored : String → Prop) : RefreshResolution → Prop
  | .live s => GenuineSession stored s
  | .superseded s _ => GenuineSession stored s ∧ isValidFamilyId s.familyId = true
  | .retired familyId userId _ => isValidFamilyId familyId = true ∧ userId ≠ ""
  | .unknown => True

/-- A validated assertion does not expire before the epoch. -/
def ExpiryClaimed (claims : IdentityClaims) : Prop :=
  ∀ n, (claims.rawClaims.lookup "exp").bind Value.numericDate = some n → 0 ≤ n

variable (d : Deployment)

/-- The answers under which nothing but a lifetime can panic a call. `clock` holds the readings
of the clock and `stored` the hashes of stored sessions; a drawn token has none of these. A
rotation panics only where the retention deadline of the retired token has no value, and an
assertion is bound only under a ceiling above zero. -/
def Admits (clock : Instant → Prop) (stored : String → Prop) : (o : Op) → Ans o → Prop
  | .now, t => clock t
  | .randomToken, raw => raw.utf8ByteSize = nonceB64urlLen ∧ ¬ stored (d.digest raw)
  | .newFamilyId, familyId => isValidFamilyId familyId = true
  | .resolveRefreshToken _, r => Sound (GenuineResolution stored) r
  | .rotateRefreshToken _ replacement, r => Unbroken r ∨ ∃ t, clock t ∧
      World.retentionDeadline t d.refreshReuseRetention replacement.expiresAt = none
  | .storeRefreshToken _, r => Unbroken r
  | .revokeSession _, r => Unbroken r
  | .revokeFamily _, r => Unbroken r
  | .revokeAllUserSessions _, r => Unbroken r
  | .getUserById _, r => Sound (fun user => ∀ u, user = some u → u.id ≠ "") r
  | .getUserByExternalId _ _, r => Sound (fun user => ∀ u, user = some u → u.id ≠ "") r
  | .createUser _, r => Sound (fun user => user.id ≠ "") r
  | .writeUser _ _ _, r => Unbroken r
  | .sign _ _ _ _, r => Unbroken r
  | .emit _, r => Unbroken r
  | .notify _, r => Unbroken r
  | .checkAndConsume _, r => Unbroken r
  | .exchangeCode _ _ _, r => Sound (fun tokens => tokens.idToken ≠ "") r
  | .validateIdToken _ _, r => Sound (fun claims => claims.subject ≠ "" ∧ ExpiryClaimed claims) r
  | .bindAssertion _ ctx, r =>
    Sound (fun rejection => rejection = none → 0 < signedSecs ctx.maxAssertionSecs) r

/-- The same for a call whose binding controls are written out. -/
def BindingAdmits (clock : Instant → Prop) (stored : String → Prop) :
    (o : BindingOp) → BindingAns o → Prop
  | .port o, r => Admits d clock stored o r
  | .putSingleUse _ _, r => Unbroken r
  | .takeSingleUse _, r => Unbroken r

/-- Some provider is configured under a name that the rate limiter takes. -/
def ProviderServed : Prop :=
  ∃ name provider, d.providers.lookup name = some provider ∧
    name.utf8ByteSize ≤ maxRateLimitProviderLen

/-- An assertion is bound after a provider of the configuration was asked and validated it. -/
def BoundValidated : Op → Prop
  | .bindAssertion claims _ => ExpiryClaimed claims ∧ ProviderServed d
  | _ => True

/-! ## Steps -/

section Steps

variable {d} {clock : Instant → Prop} {stored : String → Prop} {ε α β : Type}

/-- The call goes on soundly, whatever it is answered in the circumstances. -/
abbrev Service.Quiet (d : Deployment) (clock : Instant → Prop) (stored : String → Prop)
    (P : α → Prop) (p : Service ε α) : Prop :=
  p.Ensures (BoundValidated d) (Admits d clock stored) (Sound P)

theorem quiet_bind {P : α → Prop} {Q : β → Prop} {p : Service ε α} {f : α → Service ε β}
    (h : Service.Quiet d clock stored P p)
    (hf : ∀ a, P a → Service.Quiet d clock stored Q (f a)) :
    Service.Quiet d clock stored Q (p >>= f) := by
  apply Program.Ensures.bind h hf
  intro e he
  cases e with
  | error e => exact sound_error e
  | panic => exact he.elim

theorem quiet_assert_bind {Q : β → Prop} {condition : Bool} {f : Unit → Service ε β}
    (h : condition = true) (hf : Service.Quiet d clock stored Q (f ())) :
    Service.Quiet d clock stored Q (assert condition >>= f) := by
  subst h
  exact hf

/-- A port whose answer is passed on. -/
theorem quiet_port {o : Op} {P : α → Prop} {g : Ans o → Answer α} (hready : BoundValidated d o)
    (h : ∀ ans, Admits d clock stored o ans → Sound P (g ans)) :
    Service.Quiet d clock stored P (Program.perform o fun ans => Program.ofExcept (g ans)) :=
  ⟨hready, fun ans hans => (Program.ensures_ofExcept (g ans)).mpr (h ans hans)⟩

/-- A port whose answer is taken as it is. -/
theorem quiet_ask {o : Op} (hready : BoundValidated d o) :
    Service.Quiet d clock stored (Admits d clock stored o)
      (Program.ask o : Service ε (Ans o)) :=
  ⟨hready, fun _ hans => hans⟩

theorem quiet_fail {P : α → Prop} (e : ε) :
    Service.Quiet d clock stored P (fail e : Service ε α) := trivial

/-- Emitting an event never panics by itself. -/
theorem quiet_emitMandatory (event : AuditEvent) :
    Service.Quiet d clock stored (fun _ => True) (emitMandatoryAuditEvent d event) := by
  refine ⟨trivial, fun ans hans => ?_⟩
  rcases ans with (e | _) | a
  · show Program.Ensures _ _ _ (if d.durability.isEnforce then _ else _ : Service Error Unit)
    split <;> trivial
  · exact hans.elim
  · trivial

theorem quiet_emitAudit (event : AuditEvent) :
    Service.Quiet d clock stored (fun _ => True) (emitAudit d event) := by
  unfold emitAudit
  split
  · trivial
  · refine ⟨trivial, fun ans hans => ?_⟩
    rcases ans with (e | _) | a
    · show Program.Ensures _ _ _ (if _ then fail e else .done () : Service Error Unit)
      split <;> trivial
    · exact hans.elim
    · trivial

theorem quiet_refuse {P : α → Prop} {reason : String} (hreason : reason ≠ "")
    (actor : Option String) (request : RefreshRequest) :
    Service.Quiet d clock stored P (refuseWithValidationFailed (α := α) d reason actor request) :=
  quiet_assert_bind (by simpa using hreason)
    (quiet_bind (quiet_emitAudit _) fun _ _ => quiet_fail _)

/-- The expiry of an access token overflows only in a checked build, past 64 bits. -/
theorem quiet_addU64 {a b : UInt64} (h : d.overflowChecks = true → a.toNat + b.toNat < 2 ^ 64) :
    Service.Quiet d clock stored (fun _ => True) (addU64 d a b : Service ε UInt64) := by
  unfold addU64
  rw [if_neg (fun hover => Nat.not_lt.mpr hover.2 (h hover.1))]
  trivial

/-- A reading of the clock as a 64-bit number of seconds. -/
theorem toNat_timestamp {t : Instant} (ht : WithinYears t) :
    ((UInt64.ofInt t.timestamp).toNat : ℤ) = t.timestamp := by
  unfold WithinYears nanosPerSec at ht
  have hsecs : 0 ≤ t.timestamp ∧ t.timestamp < 2 ^ 64 := by
    unfold Instant.timestamp nanosPerSec
    omega
  rw [UInt64.ofInt, UInt64.toNat_ofNat']
  omega

end Steps

/-! ## Refresh -/

/-- The expiry of an access token fits its 64 bits where the build checks that. -/
def ExpFits (t : Instant) : Prop :=
  d.overflowChecks = true → t.timestamp + d.accessTokenTtl.toNat < 2 ^ 64

/-- What refreshing a token needs of the lifetimes at a reading of the clock. -/
structure RefreshFits (t : Instant) : Prop where
  exp : ExpFits d t
  retention : d.refreshRotation = true → DeadlineFits t d.refreshReuseRetention

section Refresh

variable {d} {clock : Instant → Prop} {stored : String → Prop}

theorem quiet_buildAccessToken (hyears : ∀ t, clock t → WithinYears t)
    (hexp : ∀ t, clock t → ExpFits d t) {user : User} (huser : user.id ≠ "")
    {familyId : String} (hfamily : familyId = "" ∨ isValidFamilyId familyId = true) :
    Service.Quiet d clock stored (fun r => r.2 = d.accessTokenTtl ∧ ∃ t, clock t)
      (buildAccessToken d user familyId) := by
  unfold buildAccessToken
  refine quiet_assert_bind (by rcases hfamily with rfl | h <;> simp [*]) ?_
  refine quiet_assert_bind (by simpa using huser) ?_
  refine quiet_bind (quiet_ask (o := .now) trivial) fun t ht => ?_
  refine quiet_bind (quiet_addU64 fun hchecks => ?_) fun exp _ => ?_
  · have hbound := hexp t ht hchecks
    have hiat := toNat_timestamp (hyears t ht)
    omega
  · refine quiet_bind (quiet_port (o := .sign ..) (g := fun r => r) trivial fun _ h => h) ?_
    exact fun _ _ => ⟨rfl, t, ht⟩

theorem quiet_mintReplacement {live : Session} (hlive : GenuineSession stored live) :
    Service.Quiet d clock stored (fun r => isValidFamilyId r.2.familyId = true)
      (mintReplacement d live) := by
  unfold mintReplacement
  refine quiet_assert_bind (by simpa using hlive.hash) ?_
  refine quiet_bind (quiet_ask (o := .randomToken) trivial) fun raw hraw => ?_
  refine quiet_assert_bind (by simpa using d.digest_length raw) ?_
  refine quiet_assert_bind ?_ ?_
  · have hne : d.digest raw ≠ live.refreshTokenHash := by
      intro heq
      exact hraw.2 (heq ▸ hlive.stored)
    simpa using hne
  have hfamily : Service.Quiet d clock stored (fun f => isValidFamilyId f = true)
      (replacementFamily live) := by
    unfold replacementFamily
    rcases hlive.family with hempty | hvalid
    · rw [if_pos (by simp [hempty])]
      exact quiet_ask (o := .newFamilyId) trivial
    · rw [if_neg (by simpa using ne_empty_of_isValidFamilyId hvalid)]
      exact hvalid
  refine quiet_bind hfamily fun familyId hvalid => ?_
  refine quiet_assert_bind hvalid ?_
  have hsucc : succU32 d live.generation =
      (.done (live.generation + 1) : Service Error UInt32) := by
    unfold succU32
    rw [if_neg]
    exact fun hover => Nat.not_lt.mpr hover.2 hlive.generation
  rw [hsucc, Program.done_bind]
  refine quiet_bind (quiet_ask (o := .now) trivial) fun rotatedAt _ => ?_
  refine quiet_assert_bind (by simp [replacementOf]) ?_
  refine quiet_assert_bind (by simp [replacementOf]) ?_
  exact hvalid

theorem quiet_auditSuccessfulRefresh {userId familyId : String} (huser : userId ≠ "")
    (hfamily : familyId = "" ∨ isValidFamilyId familyId = true) (generation : UInt32)
    (viaGrace : Bool) (request : RefreshRequest) :
    Service.Quiet d clock stored (fun _ => True)
      (auditSuccessfulRefresh d userId familyId generation viaGrace request) := by
  unfold auditSuccessfulRefresh
  refine quiet_assert_bind (by simpa using huser) ?_
  refine quiet_assert_bind (by rcases hfamily with rfl | h <;> simp [*]) ?_
  exact quiet_emitMandatory _

section Fits

variable (hyears : ∀ t, clock t → WithinYears t) (hfits : ∀ t, clock t → RefreshFits d t)

include hyears hfits

theorem quiet_respondToRotation {user : User} (huser : user.id ≠ "") {replacement : Session}
    (hfamily : isValidFamilyId replacement.familyId = true) (rawToken : String)
    (viaGrace won : Bool) (request : RefreshRequest) :
    Service.Quiet d clock stored (fun _ => True)
      (respondToRotation d user rawToken replacement viaGrace won request) := by
  unfold respondToRotation
  split
  · refine quiet_bind (quiet_buildAccessToken hyears (fun t ht => (hfits t ht).exp) huser (.inr hfamily)) fun _ _ => ?_
    refine quiet_bind (quiet_auditSuccessfulRefresh huser (.inr hfamily) _ _ _) fun _ _ => ?_
    trivial
  · exact quiet_refuse (by decide) _ _

theorem quiet_rotateAndRespond (hpos : 0 < d.refreshReuseRetention.toNat)
    (hrotation : d.refreshRotation = true) {live : Session}
    (hlive : GenuineSession stored live) (viaGrace : Bool) (request : RefreshRequest) :
    Service.Quiet d clock stored (fun _ => True)
      (rotateAndRespond d live viaGrace request) := by
  unfold rotateAndRespond
  refine quiet_assert_bind (by simpa using hlive.hash) ?_
  refine quiet_bind (quiet_ask (o := .now) trivial) fun now _ => ?_
  split
  · exact quiet_refuse (by decide) _ _
  · refine quiet_bind (quiet_port (o := .getUserById _) (g := fun r => r) trivial
      fun _ h => h) fun found hfound => ?_
    cases found with
    | none => exact quiet_refuse (by decide) _ _
    | some user =>
      have huser := hfound user rfl
      show Program.Ensures _ _ _ (if _ then _ else _ : Service Error TokenResponse)
      split
      · exact quiet_bind (quiet_emitMandatory _) fun _ _ => quiet_fail _
      · refine quiet_bind (quiet_mintReplacement hlive) fun minted hminted => ?_
        refine quiet_bind (P := fun _ => True) (quiet_port (o := .rotateRefreshToken _ _)
          (g := fun r => r) trivial ?_) fun won _ => ?_
        · rintro r (hr | ⟨t, ht, hnone⟩)
          · exact hr
          · obtain ⟨e, he⟩ := deadline_isSome (hyears t ht) ((hfits t ht).retention hrotation)
            exact absurd ((retentionDeadline_eq_none_iff hpos _).mp hnone) (by simp [he])
        · exact quiet_respondToRotation hyears hfits huser hminted _ _ _ _

theorem quiet_refreshWithoutRotation {resolution : RefreshResolution}
    (hresolution : GenuineResolution stored resolution) (request : RefreshRequest) :
    Service.Quiet d clock stored (fun _ => True)
      (refreshWithoutRotation d resolution request) := by
  cases resolution with
  | live session =>
    have hlive : GenuineSession stored session := hresolution
    refine quiet_assert_bind (by simpa using hlive.hash) ?_
    refine quiet_bind (quiet_ask (o := .now) trivial) fun now _ => ?_
    split
    · exact quiet_refuse (by decide) _ _
    · refine quiet_bind (quiet_port (o := .getUserById _) (g := fun r => r) trivial
        fun _ h => h) fun found hfound => ?_
      cases found with
      | none => exact quiet_refuse (by decide) _ _
      | some user =>
        have huser := hfound user rfl
        show Program.Ensures _ _ _ (if _ then _ else _ : Service Error TokenResponse)
        split
        · exact quiet_bind (quiet_emitMandatory _) fun _ _ => quiet_fail _
        · refine quiet_bind (quiet_buildAccessToken hyears (fun t ht => (hfits t ht).exp) huser hlive.family) fun _ _ => ?_
          refine quiet_bind (quiet_auditSuccessfulRefresh huser hlive.family _ _ _) fun _ _ => ?_
          trivial
  | superseded live retiredAt => exact quiet_refuse (by decide) _ _
  | retired familyId userId retiredAt => exact quiet_refuse (by decide) _ _
  | unknown => exact quiet_refuse (by decide) _ _

omit hyears hfits in
theorem quiet_revokeFamilyForReuse {familyId userId : String}
    (hfamily : isValidFamilyId familyId = true) (huser : userId ≠ "") (request : RefreshRequest) :
    Service.Quiet d clock stored (fun _ => True)
      (revokeFamilyForReuse (α := TokenResponse) d familyId userId request) := by
  unfold revokeFamilyForReuse
  refine quiet_assert_bind hfamily ?_
  refine quiet_assert_bind (by simpa using huser) ?_
  refine quiet_bind (quiet_port (o := .revokeFamily _) (g := fun r => r) trivial
    fun _ h => h) fun n _ => ?_
  refine quiet_assert_bind (by rw [not_carriesHashShape hfamily]; rfl) ?_
  exact quiet_bind (quiet_emitMandatory _) fun _ _ => quiet_fail _

theorem quiet_redeem (hpos : 0 < d.refreshReuseRetention.toNat)
    (hrotation : d.refreshRotation = true) {resolution : RefreshResolution}
    (hresolution : GenuineResolution stored resolution) (request : RefreshRequest) :
    Service.Quiet d clock stored (fun _ => True) (redeem d resolution request) := by
  cases resolution with
  | live session => exact quiet_rotateAndRespond hyears hfits hpos hrotation hresolution _ _
  | superseded live retiredAt =>
    obtain ⟨hlive, hfamily⟩ := hresolution
    refine quiet_assert_bind (by simpa using d.grace_bounded) ?_
    refine quiet_bind (quiet_ask (o := .now) trivial) fun now _ => ?_
    split
    · exact quiet_rotateAndRespond hyears hfits hpos hrotation hlive _ _
    · exact quiet_revokeFamilyForReuse hfamily hlive.user _
  | retired familyId userId retiredAt =>
    exact quiet_revokeFamilyForReuse hresolution.1 hresolution.2 _
  | unknown => exact quiet_refuse (by decide) _ _

/-- Refreshing a token does not panic when the lifetimes it uses fit the clock. -/
theorem quiet_refresh (hpos : 0 < d.refreshReuseRetention.toNat) {request : RefreshRequest}
    (hrequest : request.refreshToken ≠ "") :
    Service.Quiet d clock stored (fun _ => True) (refresh d request) := by
  unfold refresh
  refine quiet_assert_bind (by simpa using hrequest) ?_
  refine quiet_assert_bind (by simpa using d.digest_length request.refreshToken) ?_
  refine quiet_bind (quiet_port (o := .resolveRefreshToken _) (g := fun r => r) trivial
    fun _ h => h) fun resolution hresolution => ?_
  split
  case isTrue hrotation => exact quiet_redeem hyears hfits hpos hrotation hresolution _
  case isFalse => exact quiet_refreshWithoutRotation hyears hfits hresolution _

end Fits

end Refresh

/-! ## Exchange -/

/-- What an exchange needs of the lifetimes once it comes to its tokens. -/
structure ExchangeFits (t : Instant) : Prop where
  exp : ExpFits d t
  access : 0 < d.accessTokenTtl.toNat
  refresh : DeadlineFits t d.refreshTokenTtl

/-- The allow-list, if there is one, admits some address. -/
def AllowlistAdmits : Prop :=
  ∀ allows, d.domainAllowlist = some allows → ∃ email, allows email = true

/-- The configuration lets some exchange come to its tokens. -/
structure Exchanges : Prop where
  provider : ProviderServed d
  ceiling : 0 < signedSecs d.maxAssertionLifetime
  allowlist : AllowlistAdmits d

section Exchange

variable {d} {clock : Instant → Prop} {stored : String → Prop}

theorem quiet_inFlow {α : Type} {P : α → Prop} {p : Service Error α}
    (h : Service.Quiet d clock stored P p) : Service.Quiet d clock stored P (inFlow p) := by
  refine Program.Ensures.mapError (f := Fault.intoFlow) h (fun _ ha => ha) ?_
  intro e he
  cases e with
  | error e => trivial
  | panic => exact he

theorem quiet_consumeLimit (key : Option RateLimitKey) :
    Service.Quiet d clock stored (fun _ => key ≠ none) (consumeLimit key) := by
  cases key with
  | none => trivial
  | some key =>
    refine ⟨trivial, fun ans hans => ?_⟩
    rcases ans with (e | _) | (_ | _)
    · exact Option.some_ne_none key
    · exact hans.elim
    · exact Option.some_ne_none key
    · trivial

theorem quiet_authenticateCredential (request : ExchangeRequest) :
    Service.Quiet d clock stored (fun r => r.1.subject ≠ "" ∧ ExpiryClaimed r.1)
      (authenticateCredential request) := by
  unfold authenticateCredential
  split
  · refine quiet_bind (quiet_port (o := .exchangeCode ..) (g := fun r => r) trivial
      fun _ h => h) fun tokens htokens => ?_
    refine quiet_assert_bind (by simpa using htokens) ?_
    refine quiet_bind (quiet_port (o := .validateIdToken ..) (g := fun r => r) trivial
      fun _ h => h) fun claims hclaims => ?_
    exact hclaims
  · refine quiet_bind (quiet_port (o := .validateIdToken ..) (g := fun r => r) trivial
      fun _ h => h) fun claims hclaims => ?_
    exact hclaims

theorem quiet_authenticate (request : ExchangeRequest) :
    Service.Quiet d clock stored
      (fun _ => ProviderServed d ∧ 0 < signedSecs d.maxAssertionLifetime)
      (authenticate d request) := by
  unfold authenticate
  split
  case h_1 => trivial
  case h_2 provider hprovider =>
    refine quiet_bind (quiet_inFlow (quiet_consumeLimit _)) fun _ hkey => ?_
    have hserved : ProviderServed d := by
      refine ⟨request.provider, provider, hprovider, ?_⟩
      by_contra hlong
      exact hkey (if_neg hlong)
    refine quiet_bind (quiet_inFlow (quiet_authenticateCredential request)) fun r hr => ?_
    refine quiet_assert_bind (by simpa using hr.1) ?_
    refine quiet_bind (quiet_inFlow (quiet_consumeLimit _)) fun _ _ => ?_
    refine quiet_bind (P := fun _ => 0 < signedSecs d.maxAssertionLifetime) ?_
      fun _ hceiling => ⟨hserved, hceiling⟩
    refine quiet_bind (quiet_inFlow (quiet_port (o := .bindAssertion ..) (g := fun r => r)
      ⟨hr.2, hserved⟩ fun _ h => h)) fun rejection hbound => ?_
    cases rejection with
    | none => exact hbound rfl
    | some rejection => trivial

/-- A policy without complaint admits some address. -/
theorem allowlistAdmits_of_policy {email : Option String} {verified : Option Bool}
    (h : registrationPolicyReason email verified d.domainAllowlist = none) :
    AllowlistAdmits d := by
  intro allows hallows
  unfold registrationPolicyReason at h
  rw [hallows] at h
  cases email with
  | none => exact nomatch h
  | some email =>
    refine ⟨email, ?_⟩
    by_contra hdenied
    by_cases hverified : verified = some true <;> simp [hverified, hdenied] at h

theorem quiet_admitExisting (claims : IdentityClaims) {user : User} (huser : user.id ≠ "") :
    Service.Quiet d clock stored (fun u => u.id ≠ "" ∧ AllowlistAdmits d)
      (admitExisting d claims user) := by
  unfold admitExisting
  split
  · trivial
  · split
    case h_1 => trivial
    case h_2 hpolicy => exact ⟨huser, allowlistAdmits_of_policy hpolicy⟩

theorem quiet_registerUser (request : ExchangeRequest) (claims : IdentityClaims) :
    Service.Quiet d clock stored (fun u => u.id ≠ "" ∧ AllowlistAdmits d)
      (registerUser d request claims) := by
  unfold registerUser
  split
  case h_1 => trivial
  case h_2 hpolicy =>
    have hadmits := allowlistAdmits_of_policy hpolicy
    split
    · trivial
    · refine quiet_bind (quiet_ask (o := .createUser _) trivial) fun ans hans => ?_
      rcases ans with (e | _) | created
      · cases e with
        | conflict detail =>
          refine quiet_bind (quiet_inFlow (quiet_port (o := .getUserByExternalId ..)
            (g := fun r => r) trivial fun _ h => h)) fun found hfound => ?_
          cases found with
          | none => trivial
          | some user => exact quiet_admitExisting claims (hfound user rfl)
        | _ => trivial
      · exact hans.elim
      · refine quiet_bind (quiet_inFlow (quiet_emitMandatory _)) fun _ _ => ?_
        refine quiet_bind (quiet_ask (o := .notify _) trivial) fun ans hnotice => ?_
        rcases ans with (e | _) | _
        · exact ⟨hans, hadmits⟩
        · exact hnotice.elim
        · exact ⟨hans, hadmits⟩

theorem quiet_resolveUser (request : ExchangeRequest) (claims : IdentityClaims) :
    Service.Quiet d clock stored (fun u => u.id ≠ "" ∧ AllowlistAdmits d)
      (resolveUser d request claims) := by
  unfold resolveUser
  refine quiet_bind (quiet_inFlow (quiet_port (o := .getUserByExternalId ..) (g := fun r => r)
    trivial fun _ h => h)) fun found hfound => ?_
  cases found with
  | none => exact quiet_registerUser request claims
  | some user => exact quiet_admitExisting claims (hfound user rfl)

section Fits

variable (hyears : ∀ t, clock t → WithinYears t) (hfits : ∀ t, clock t → ExchangeFits d t)

include hyears hfits

theorem quiet_sessionExpiry : Service.Quiet d clock stored (fun _ => True) (sessionExpiry d) := by
  refine quiet_bind (quiet_ask (o := .now) trivial) fun t ht => ?_
  obtain ⟨e, he⟩ := deadline_isSome (hyears t ht) (hfits t ht).refresh
  obtain ⟨ttl, hspan, hadd⟩ := Option.bind_eq_some_iff.mp he
  rw [hspan]
  show Service.Quiet d clock stored _ (expect (t.add ttl))
  rw [hadd]
  trivial

theorem quiet_storeNewSession (request : ExchangeRequest) (user : User) :
    Service.Quiet d clock stored (fun r => isValidFamilyId r.2.familyId = true)
      (storeNewSession d request user) := by
  unfold storeNewSession
  refine quiet_bind (quiet_ask (o := .randomToken) trivial) fun raw _ => ?_
  refine quiet_bind (quiet_sessionExpiry hyears hfits) fun expiresAt _ => ?_
  refine quiet_bind (quiet_ask (o := .newFamilyId) trivial) fun familyId hfamily => ?_
  refine quiet_assert_bind hfamily ?_
  refine quiet_bind (quiet_ask (o := .now) trivial) fun createdAt _ => ?_
  refine quiet_bind (quiet_port (o := .storeRefreshToken _) (g := fun r => r) trivial
    fun _ h => h) fun _ _ => ?_
  exact hfamily

theorem quiet_respondToExchange {user : User} (huser : user.id ≠ "") (refreshToken : String)
    {session : Session} (hfamily : isValidFamilyId session.familyId = true) :
    Service.Quiet d clock stored (fun _ => True)
      (respondToExchange d user refreshToken session) := by
  unfold respondToExchange
  refine quiet_bind (quiet_buildAccessToken hyears (fun t ht => (hfits t ht).exp) huser
    (.inr hfamily)) ?_
  rintro ⟨accessToken, accessTtlSecs⟩ ⟨httl, t, ht⟩
  refine quiet_assert_bind ?_ trivial
  have hpos := (hfits t ht).access
  simpa [show accessTtlSecs = d.accessTokenTtl from httl] using hpos

end Fits

theorem quiet_exchangeInner (hyears : ∀ t, clock t → WithinYears t)
    (hfits : Exchanges d → ∀ t, clock t → ExchangeFits d t) (request : ExchangeRequest) :
    Service.Quiet d clock stored (fun _ => True) (exchangeInner d request) := by
  unfold exchangeInner
  refine quiet_bind (quiet_authenticate request) fun claims hserved => ?_
  refine quiet_bind (quiet_resolveUser request claims) fun user huser => ?_
  have hfits := hfits ⟨hserved.1, hserved.2, huser.2⟩
  refine quiet_bind (quiet_inFlow (quiet_storeNewSession hyears hfits request user)) ?_
  intro minted hfamily
  exact quiet_inFlow (quiet_respondToExchange hyears hfits huser.1 _ hfamily)

theorem quiet_concludeFailure (request : ExchangeRequest) (failure : ExchangeFlowError) :
    Service.Quiet d clock stored (fun _ => True) (concludeFailure d request failure) := by
  unfold concludeFailure
  split
  · exact quiet_bind (quiet_emitMandatory _) fun _ _ => quiet_fail _
  · refine Program.Ensures.attempt_bind (quiet_emitAudit _) ?_
    rintro ((e | _) | _) hr
    · trivial
    · exact hr.elim
    · trivial
  · exact quiet_bind (quiet_emitMandatory _) fun _ _ => quiet_fail _
  · exact quiet_bind (quiet_emitMandatory _) fun _ _ => quiet_fail _

theorem quiet_concludeSuccess (request : ExchangeRequest) (success : ExchangeSuccess) :
    Service.Quiet d clock stored (fun _ => True) (concludeSuccess d request success) := by
  unfold concludeSuccess
  refine Program.Ensures.attempt_bind (quiet_emitMandatory _) ?_
  rintro ((e | _) | _) hr
  · show Program.Ensures _ _ _ (if _ then _ else _ : Service Error TokenResponse)
    split
    · exact quiet_bind (quiet_port (o := .revokeSession _) (g := fun r => r) trivial
        fun _ h => h) fun _ _ => quiet_fail _
    · exact quiet_fail _
  · exact hr.elim
  · trivial

/-- An exchange does not panic when the lifetimes it uses fit the clock. -/
theorem quiet_exchange (hyears : ∀ t, clock t → WithinYears t)
    (hfits : Exchanges d → ∀ t, clock t → ExchangeFits d t) (request : ExchangeRequest) :
    Service.Quiet d clock stored (fun _ => True) (exchange d request) := by
  unfold exchange
  refine Program.Ensures.attempt_bind (quiet_exchangeInner hyears hfits request) ?_
  rintro ((e | _) | success) hr
  · exact quiet_concludeFailure _ _
  · exact hr.elim
  · exact quiet_concludeSuccess _ _

end Exchange

end OidcExchange
