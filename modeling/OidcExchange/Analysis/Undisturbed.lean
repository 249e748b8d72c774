import OidcExchange.Analysis.PortFacts
import OidcExchange.Program.Requests

/-!
# A call that is left alone

When nothing stands in the way, a refresh that presents the live generation of a family
swaps it, and the world it leaves is known exactly. A small deployment follows, on which
whole runs can be evaluated.
-/

set_option autoImplicit false

namespace OidcExchange

open Storage Interleaving Service

/-! ## An undisturbed refresh -/

/-- The generation an undisturbed refresh installs. -/
def successorOf (d : Deployment) (w : World) (live : Session) (raw : String) : Session :=
  replacementOf live (d.digest raw) live.familyId (live.generation + 1) w.clock

section Successor

variable (d : Deployment) (w : World) (live : Session) (raw : String)

@[simp] theorem successorOf_userId : (successorOf d w live raw).userId = live.userId := rfl

@[simp] theorem successorOf_familyId : (successorOf d w live raw).familyId = live.familyId := rfl

@[simp] theorem successorOf_expiresAt : (successorOf d w live raw).expiresAt = live.expiresAt := rfl

@[simp] theorem successorOf_generation :
    (successorOf d w live raw).generation = live.generation + 1 := rfl

end Successor

/-- The record an undisturbed refresh leaves of the generation it replaced. -/
def recordOf (d : Deployment) (w : World) (live : Session) (raw : String) (deadline : Instant) :
    RetiredRefreshToken where
  refreshTokenHash := live.refreshTokenHash
  familyId := live.familyId
  userId := live.userId
  successorHash := d.digest raw
  retiredAt := w.clock
  expiresAt := deadline

/-- The world after an undisturbed refresh has swapped `live`. -/
def World.swapped (d : Deployment) (w : World) (live : Session) (raw : String)
    (deadline : Instant) : World :=
  { w with
    tokens := raw :: w.tokens
    sessions := (w.sessions.erase live.refreshTokenHash).insert (d.digest raw)
      (successorOf d w live raw)
    retired := w.retired.insert live.refreshTokenHash (recordOf d w live raw deadline) }

/-- What the environment decides while a refresh swaps the generation it presents. -/
def swapChoices (raw : String) : List Choice :=
  [.proceed, .proceed, .proceed, .draw raw, .proceed, .proceed]

/-- Nothing stands in the way of a refresh that presents `live` and draws `raw`. -/
structure Swappable (d : Deployment) (w : World) (req : RefreshRequest) (live : Session)
    (user : User) (raw : String) (deadline : Instant) : Prop where
  rotation : d.refreshRotation = true
  presented : req.refreshToken ≠ ""
  here : w.sessions.lookup (d.digest req.refreshToken) = some live
  hash : live.refreshTokenHash = d.digest req.refreshToken
  family : isValidFamilyId live.familyId = true
  fits : d.overflowChecks = true → live.generation.toNat + 1 < 2 ^ 32
  unexpired : w.clock ≤ live.expiresAt
  account : w.users.lookup live.userId = some user
  active : user.status = .active
  fresh : d.digest raw ∉ w.tokens.map d.digest
  other : d.digest raw ≠ live.refreshTokenHash
  notLive : w.sessions.lookup (d.digest raw) = none
  notRetired : w.retired.lookup (d.digest raw) = none
  deadline : World.retentionDeadline w.clock d.refreshReuseRetention live.expiresAt = some deadline

section Refresh

variable {d : Deployment} {w : World} {req : RefreshRequest} {live : Session} {user : User}
  {raw : String} {deadline : Instant}

/-- The swap of an undisturbed refresh is won. -/
theorem rotate_of_swappable (h : Swappable d w req live user raw deadline) :
    World.rotateRefreshToken { w with tokens := raw :: w.tokens } d live.refreshTokenHash
      (successorOf d w live raw) = (.ok true, w.swapped d live raw deadline) := by
  have hne : live.familyId ≠ "" := ne_empty_of_isValidFamilyId h.family
  have hlive : w.sessions.lookup live.refreshTokenHash = some live := h.hash ▸ h.here
  have hrecord : World.retirementRecord live.refreshTokenHash live (successorOf d w live raw)
      d.refreshReuseRetention w.clock = some (recordOf d w live raw deadline) := by
    simp [World.retirementRecord, h.family, successorOf, recordOf, replacementOf, h.deadline]
  have hhash : (successorOf d w live raw).refreshTokenHash = d.digest raw := rfl
  have hfamily : (successorOf d w live raw).familyId = live.familyId := rfl
  have huser : (successorOf d w live raw).userId = live.userId := rfl
  have hnotLive : w.sessions.lookup (successorOf d w live raw).refreshTokenHash = none := h.notLive
  have hnotRetired : w.retired.lookup (successorOf d w live raw).refreshTokenHash = none :=
    h.notRetired
  simp only [World.rotateRefreshToken, hhash, hfamily, huser]
  simp [h.family, Ne.symm h.other, hlive, hne, hnotLive, hnotRetired, hrecord, World.swapped]

/-- **A refresh that nothing disturbs swaps the generation it presents.** -/
theorem refresh_alone (h : Swappable d w req live user raw deadline) (c : ℕ) :
    Pool.solo (portSemantics d) c (swapChoices raw) (serve d (.refresh req)) [] w =
      some (.tokens <$> respondToRotation d user raw (successorOf d w live raw) false true req,
        [⟨.rotateRefreshToken live.refreshTokenHash (successorOf d w live raw), .ok true⟩,
          ⟨.now, w.clock⟩, ⟨.randomToken, raw⟩, ⟨.getUserById live.userId, .ok (some user)⟩,
          ⟨.now, w.clock⟩,
          ⟨.resolveRefreshToken (d.digest req.refreshToken), .ok (.live live)⟩],
        w.swapped d live raw deadline) := by
  have hne : live.familyId ≠ "" := ne_empty_of_isValidFamilyId h.family
  have hlen := d.digest_length req.refreshToken
  have hlen' := d.digest_length raw
  have hpos : d.digest req.refreshToken ≠ "" := by
    intro h0
    rw [h0] at hlen
    exact absurd hlen (by decide)
  have hnow : ¬ live.expiresAt < w.clock := Int.not_lt.mpr h.unexpired
  have hresolve : w.resolveRefreshToken (d.digest req.refreshToken) = .ok (.live live) := by
    simp [World.resolveRefreshToken, hpos, h.here]
  have hgeneration : (succU32 d live.generation : Service Error UInt32) =
      .done (live.generation + 1) := by
    unfold succU32
    rw [if_neg]
    exact fun hw => absurd (h.fits hw.1) (by omega)
  have hother : d.digest raw ≠ d.digest req.refreshToken := h.hash ▸ h.other
  have hfresh := h.fresh
  have hrotate := rotate_of_swappable h
  rw [h.hash] at hrotate
  have hexpires : (successorOf d w live raw).expiresAt = live.expiresAt := rfl
  have hcreated : (successorOf d w live raw).createdAt = live.createdAt := rfl
  simp only [successorOf] at hrotate hexpires hcreated ⊢
  simp [swapChoices, Pool.solo, portSemantics, exec, fallible, serve, refresh, redeem,
    rotateAndRespond, mintReplacement, replacementFamily, Service.assert, Service.await,
    h.rotation, h.presented, h.hash, h.account, h.active, h.family, hlen, hlen', hpos, hnow, hne,
    hresolve, hother, hfresh, hgeneration, hexpires, hcreated, hrotate]

end Refresh

/-! ## A small deployment -/

namespace Sample

/-- A digest that pads a short text, so that different tokens have different digests. -/
def digest (raw : String) : String :=
  String.ofList ((raw.toList ++ List.replicate refreshHashHexLen '0').take refreshHashHexLen)

theorem digest_length (raw : String) : (digest raw).length = refreshHashHexLen := by
  simp [digest]

/-- One provider, rotation on, ten seconds of grace; `checks` tells whether the build
checks for overflow. -/
def deployment (checks : Bool) : Deployment where
  digest := digest
  digest_length := digest_length
  overflowChecks := checks
  issuer := "https://auth.example"
  audience := "api"
  algorithm := "ES256"
  keyId := "key"
  accessTokenTtl := 900
  refreshTokenTtl := 2592000
  refreshRotation := true
  refreshRotationGrace := 10
  grace_bounded := by decide
  refreshReuseRetention := 86400
  maxAssertionLifetime := 600
  emitThreshold := .info
  blockingThreshold := .error
  durability := .observe
  registrationMode := .open
  domainAllowlist := none
  resolveCustomClaims := fun _ => ∅
  providers := (∅ : Table String Provider).insert "idp" { providerId := "idp", clientId := "app" }

/-- The claims of one user. -/
def claims : IdentityClaims where
  subject := "alice"
  email := some "alice@example.org"
  emailVerified := some true
  name := none
  isPrivateEmail := none
  signingAlg := "RS256"
  rawClaims := ∅

/-- That user signs in. -/
def login : ExchangeRequest where
  credential := .idTokenAssertion "jwt"
  provider := "idp"
  providerAccessToken := none
  clientAddr := .unknown
  userAgent := none
  deviceId := none
  location := none

/-- A client presents a refresh token. -/
def present (raw : String) : RefreshRequest where
  refreshToken := raw
  clientAddr := .unknown
  userAgent := none
  deviceId := none

/-- The identifier the store gives the user. -/
def theUser : String := "usr"

/-- The family of the first session. -/
def theFamily : String := "fam_00000000000000000000000000"

/-- What the environment decides up to the point where a first sign-in has found its user. -/
def registerChoices : List Choice :=
  [.decide .allow, .identify claims, .decide .allow, .bind none, .proceed, .draw theUser,
    .proceed, .proceed]

/-- What the environment decides while the session is minted and stored. -/
def storeChoices (raw family : String) : List Choice :=
  [.draw raw, .proceed, .draw family, .proceed, .proceed]

/-- What the environment decides while the response is built and audited. -/
def respondChoices : List Choice := [.proceed, .draw "signature", .proceed]

/-- A call begins and goes on alone. -/
def call (c : ℕ) (request : Request) (choices : List Choice) : List ServiceAct :=
  .begin c request :: choices.map (.advance c)

/-- The first sign-in, as call 0, with the token `raw`. -/
def signIn (raw : String) : List ServiceAct :=
  call 0 (.exchange login) (registerChoices ++ storeChoices raw theFamily ++ respondChoices)

/-- An undisturbed refresh of `raw` that draws `next`. -/
def refreshing (c : ℕ) (raw next : String) : List ServiceAct :=
  call c (.refresh (present raw)) (swapChoices next ++ respondChoices)

/-- An undisturbed refresh of `raw` in grace, which reads the clock once more. -/
def refreshingInGrace (c : ℕ) (raw next : String) : List ServiceAct :=
  call c (.refresh (present raw)) (.proceed :: swapChoices next ++ respondChoices)

/-- An operator. -/
def operator : OperatorPrincipal where
  id := "ops"
  mechanism := .operatorToken

/-- A patch that sets the status and nothing else. -/
def statusPatch (status : UserStatus) : UserPatch :=
  { deletePatch with status := some status }

/-- The status of the user. -/
def statusIs (status : UserStatus) (p : ServicePool) : Bool :=
  (p.world.users.lookup theUser).any fun user => user.status == status

/-- What the environment decides while an update reads, validates, reads again and writes. -/
def updateChoices : List Choice := [.proceed, .proceed, .proceed, .proceed]

end Sample

end OidcExchange
