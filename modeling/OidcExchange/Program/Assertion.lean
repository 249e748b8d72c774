import OidcExchange.Interleaving.Handler
import OidcExchange.Model.SingleUse
import OidcExchange.Program.Exchange

/-!
# Binding an assertion

The controls over a verified assertion, in their fixed order: lifetime, `azp`, `at_hash`, the
nonce of the direct grant, the replay marker. Only the last two touch the store. The exchange
flow binds in one operation; here that operation is written out.
-/

set_option autoImplicit false

namespace OidcExchange

open Storage Interleaving

/-- Settings and digests that only the grants use: the lifetime of a nonce, and the left half of
a digest of the given size in base64url. -/
structure GrantSettings : Type where
  nonceTtl : UInt64
  leftHalf : ℕ → String → String

/-- SOURCE: core/src/service/assertion.rs:140-145 -/
inductive AssertionBindError : Type
  | rejected (rejection : AssertionRejection)
  | store (e : Error)

namespace BindingOp

variable {ε : Type}

/-- A port, as a step of a call. -/
abbrev ask (o : Op) : Program BindingAns ε (Ans o) := Program.ask (BindingOp.port o)

/-- SOURCE: core/src/ports/repository.rs:155-168 -/
abbrev askPut (key : String) (expiresAt : Instant) : Program BindingAns ε (Answer Bool) :=
  Program.ask (BindingOp.putSingleUse key expiresAt)

/-- SOURCE: core/src/ports/repository.rs:170-179 -/
abbrev askTake (key : String) : Program BindingAns ε (Answer Bool) :=
  Program.ask (BindingOp.takeSingleUse key)

end BindingOp

/-- The result of a control. -/
abbrev BindingResult (α : Type) : Type := Except (Fault AssertionBindError) α

/-- A step of binding. -/
abbrev Binding (α : Type) : Type := Program BindingAns (Fault AssertionBindError) α

/-- A control that fails. -/
def rejected {α : Type} (check reason : String) : BindingResult α :=
  .error (.error (.rejected ⟨check, reason⟩))

/-- SOURCE: core/src/service/assertion.rs:183-185 -/
def IdentityClaims.strClaim (claims : IdentityClaims) (name : String) : Option String :=
  (claims.rawClaims.lookup name).bind Value.asStr

/-! ## Controls that read -/

/-- The bounds of a signed 64-bit number. -/
def minI64 : ℤ := -(2 ^ 63)

def maxI64 : ℤ := 2 ^ 63 - 1

/-- A number of seconds: an integer, or a fraction cut off and kept within 64 bits.
SOURCE: core/src/service/assertion.rs:209-216 -/
def Value.numericDate : Value → Option ℤ
  | .number m e => some (max minI64 (min (m.tdiv (10 ^ e)) maxI64))
  | _ => none

/-- The difference of two signed 64-bit numbers: a build with overflow checks panics where the
other wraps. -/
def subI64 {ε : Type} (d : Deployment) (a b : ℤ) : Except (Fault ε) ℤ :=
  if minI64 ≤ a - b ∧ a - b ≤ maxI64 then .ok (a - b)
  else if d.overflowChecks then .error .panic
  else .ok ((a - b).bmod (2 ^ 64))

section Controls

variable (d : Deployment)

/-- SOURCE: core/src/service/assertion.rs:196-242 -/
def checkLifetime (claims : IdentityClaims) (now : Instant) (maxAssertionSecs : UInt64) :
    BindingResult Instant :=
  match (claims.rawClaims.lookup "exp").bind Value.numericDate with
  | none => rejected "lifetime_ceiling" "assertion has no usable exp claim"
  | some expSecs => do
    assertThat (decide (0 < now.timestamp))
    let remaining ← subI64 d expSecs now.timestamp
    if remaining ≤ 0 then rejected "lifetime_ceiling" "assertion is already expired"
    else if maxAssertionSecs.toInt64.toInt < remaining then
      rejected "lifetime_ceiling" "assertion lifetime exceeds the configured maximum"
    else
      match Instant.ofTimestamp expSecs with
      | none => rejected "lifetime_ceiling" "assertion has no usable exp claim"
      | some expiresAt => .ok expiresAt

/-- Whether the audience is an array of several. SOURCE: core/src/service/assertion.rs:262-263 -/
def IdentityClaims.audIsMulti (claims : IdentityClaims) : Bool :=
  match claims.rawClaims.lookup "aud" with
  | some (.array items) => decide (1 < items.length)
  | _ => false

/-- SOURCE: core/src/service/assertion.rs:248-272 -/
def checkAzp (claims : IdentityClaims) (ctx : AssertionContext) : BindingResult Unit :=
  match claims.strClaim "azp" with
  | some azp =>
    if azp ≠ ctx.clientId then rejected "azp" "azp does not match this client" else .ok ()
  | none =>
    if claims.audIsMulti then rejected "azp" "multi-audience assertion requires azp" else .ok ()

/-- SOURCE: core/src/service/assertion.rs:326-337 -/
def atHashValue (g : GrantSettings) (signingAlg accessToken : String) : Option String :=
  if "256".toList.isSuffixOf signingAlg.toList then some (g.leftHalf 256 accessToken)
  else if "384".toList.isSuffixOf signingAlg.toList then some (g.leftHalf 384 accessToken)
  else if "512".toList.isSuffixOf signingAlg.toList then some (g.leftHalf 512 accessToken)
  else none

/-- The algorithms that a validator admits. SOURCE: adapters/src/shared/jwks.rs:330-350 -/
inductive JwsAlgorithm : Type
  | hs256
  | hs384
  | hs512
  | es256
  | es384
  | rs256
  | rs384
  | rs512
  | ps256
  | ps384
  | ps512
  | edDsa
  deriving DecidableEq

/-- The name that a validator reports. SOURCE: adapters/src/shared/jwks.rs:330-350 -/
def jwsAlgName : JwsAlgorithm → String
  | .hs256 => "HS256"
  | .hs384 => "HS384"
  | .hs512 => "HS512"
  | .es256 => "ES256"
  | .es384 => "ES384"
  | .rs256 => "RS256"
  | .rs384 => "RS384"
  | .rs512 => "RS512"
  | .ps256 => "PS256"
  | .ps384 => "PS384"
  | .ps512 => "PS512"
  | .edDsa => "EdDSA"

/-- SOURCE: core/src/service/assertion.rs:286-320 -/
def checkAtHash (g : GrantSettings) (claims : IdentityClaims) (ctx : AssertionContext) : BindingResult Unit :=
  match claims.strClaim "at_hash" with
  | none => .ok ()
  | some claimedAtHash =>
    if claims.signingAlg = "EdDSA" then
      rejected "at_hash" "at_hash is unverifiable on an EdDSA-signed assertion"
    else
      match ctx.accessToken with
      | none => .ok ()
      | some accessToken =>
        match atHashValue g claims.signingAlg accessToken with
        | none => rejected "at_hash" "no verifiable at_hash digest for this signing algorithm"
        | some expected =>
          if expected = claimedAtHash then .ok ()
          else rejected "at_hash" "at_hash does not match the accompanying access token"

/-- The controls that only read: the expiry of the assertion where they all pass. -/
def readingControls (g : GrantSettings) (claims : IdentityClaims) (ctx : AssertionContext) (now : Instant) :
    BindingResult Instant := do
  let expiresAt ← checkLifetime d claims now ctx.maxAssertionSecs
  checkAzp claims ctx
  checkAtHash g claims ctx
  .ok expiresAt

/-! ## Controls that write -/

/-- SOURCE: core/src/service/assertion.rs:371-372 -/
def nonceKey (nonce : String) : String := "nonce:" ++ d.digest nonce

/-- SOURCE: core/src/service/assertion.rs:414-427 -/
def assertionMarkerKey (ctx : AssertionContext) (claims : IdentityClaims) : String :=
  match (claims.strClaim "jti").filter (· ≠ "") with
  | some jti => "assertion:" ++ ctx.providerId ++ ":" ++ d.digest jti
  | none => "assertion:" ++ ctx.providerId ++ ":" ++ "d:" ++ d.digest ctx.compactJwt

/-- A single-use operation that must report success. -/
def claimed (check reason : String) : Answer Bool → BindingResult Unit
  | .ok true => .ok ()
  | .ok false => rejected check reason
  | .error (.error e) => .error (.error (.store e))
  | .error .panic => .error .panic

/-- The nonce an assertion carries. SOURCE: core/src/service/assertion.rs:363-369 -/
def IdentityClaims.usableNonce (claims : IdentityClaims) : Option String :=
  (claims.strClaim "nonce").filter (· ≠ "")

/-- SOURCE: core/src/service/assertion.rs:359-385 -/
def consumeNonce (claims : IdentityClaims) : Binding Unit :=
  match claims.usableNonce with
  | none => Program.ofExcept (rejected "nonce" "assertion carries no usable nonce")
  | some nonce => do
    let burned ← BindingOp.askTake (nonceKey d nonce)
    Program.ofExcept (claimed "nonce" "nonce is missing, expired, or already used" burned)

/-- SOURCE: core/src/service/assertion.rs:391-410 -/
def claimAssertionMarker (claims : IdentityClaims) (ctx : AssertionContext)
    (expiresAt : Instant) : Binding Unit := do
  let answer ← BindingOp.askPut (assertionMarkerKey d ctx claims) expiresAt
  Program.ofExcept (claimed "single_use" "assertion has already been used" answer)

/-- SOURCE: core/src/service/assertion.rs:166-180 -/
def Assertion.bind (g : GrantSettings) (claims : IdentityClaims) (ctx : AssertionContext) :
    Binding Unit := do
  let now ← BindingOp.ask .now
  let expiresAt ← Program.ofExcept (readingControls d g claims ctx now)
  if ctx.requireNonce then consumeNonce d claims else .done ()
  claimAssertionMarker d claims ctx expiresAt

/-! ## The exchange flow and the minting of nonces -/

/-- What the exchange flow is told. SOURCE: core/src/service/exchange.rs:602-614 -/
def bindAnswer : BindingResult Unit → Answer (Option AssertionRejection)
  | .ok () => .ok none
  | .error (.error (.rejected rejection)) => .ok (some rejection)
  | .error (.error (.store e)) => .error (.error e)
  | .error .panic => .error .panic

/-- Binding is written out; every other operation stands for itself. -/
def bindingHandler (g : GrantSettings) : Handler Ans BindingAns
  | .bindAssertion claims ctx =>
    Program.attempt (Assertion.bind d g claims ctx) >>= fun r => .done (bindAnswer r)
  | o => BindingOp.ask o

/-- The exchange flow over the ports and the single-use records. -/
def exchangeBinding (g : GrantSettings) (request : ExchangeRequest) :
    Program BindingAns (Fault Error) TokenResponse :=
  (exchange d request).interp (bindingHandler d g)

/-- SOURCE: core/src/service/assertion.rs:75-82 -/
structure MintedNonce : Type where
  nonce : String
  expiresIn : UInt64

/-- SOURCE: core/src/service/assertion.rs:51 -/
def nonceB64urlLen : ℕ := 43

/-- The value of a partial computation that panics where it has none. -/
def expectSome {α ε : Type} : Option α → Except (Fault ε) α
  | some a => .ok a
  | none => .error .panic

/-- SOURCE: core/src/service/assertion.rs:437-485 -/
def mintNonce (g : GrantSettings) : Program BindingAns (Fault Error) MintedNonce := do
  Program.ofExcept (assertThat (decide (g.nonceTtl.toNat ≤ (2 ^ 64 - 1) / 2)))
  let nonce ← BindingOp.ask .randomToken
  Program.ofExcept (assertThat (nonce.utf8ByteSize == nonceB64urlLen))
  Program.ofExcept (assertThat ((d.digest nonce).length == refreshHashHexLen))
  let now ← BindingOp.ask .now
  let ttl ← Program.ofExcept (expectSome (spanOfSecs g.nonceTtl))
  let expiresAt ← Program.ofExcept (expectSome (now.add ttl))
  match ← BindingOp.askPut (nonceKey d nonce) expiresAt with
  | .ok true => .done { nonce := nonce, expiresIn := g.nonceTtl }
  | .ok false => .raise (.error (.storeError "single-use nonce key collision"))
  | .error e => .raise e

/-! ## Calls -/

/-- What a client asks for. -/
inductive GrantRequest : Type
  | exchange (request : ExchangeRequest)
  | mintNonce

/-- What a client is given. -/
inductive GrantResponse : Type
  | tokens (response : TokenResponse)
  | nonce (minted : MintedNonce)

/-- The call a request starts. -/
def grantBody (g : GrantSettings) : GrantRequest → Program BindingAns (Fault Error) GrantResponse
  | .exchange request => exchangeBinding d g request >>= fun r => .done (.tokens r)
  | .mintNonce => mintNonce d g >>= fun n => .done (.nonce n)

end Controls

end OidcExchange
