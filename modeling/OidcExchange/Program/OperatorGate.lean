import OidcExchange.Program.AuditContext
import OidcExchange.Program.OperatorToken

/-!
# The gate of the operators

A chain of mechanisms in front of the internal API: a shared secret, a token that this service's
keys verify, and the subject of a client certificate that a proxy names in a header. They are tried
in their order, and the first that accepts decides.

The readers of JSON and base64url and the signature libraries are parameters. What a mechanism reads
besides the request is read when it is its turn. Left out: log lines.
-/

set_option autoImplicit false

namespace OidcExchange

open Storage

/-! ## Keys -/

/-- What the key managers use of their libraries: the check of a payload and a signature under the
local key, and the reader of a public key. A key that has been read reads signatures, and a
signature that has been read checks payloads.
SOURCE: `ed25519_dalek`, `rsa`, `p256`, `p384`, `p521` -/
structure SignatureLibrary (Bytes : Type) : Type where
  length : Bytes → ℕ
  ed25519 : Bytes → Bytes → Bool
  readKey : String → Bytes → Except String (Bytes → Option (Bytes → Bool))

/-- A failure of a key manager. -/
def keyFailure {α : Type} (detail : String) : Answer α := .error (.error (.keyError detail))

section Keys

variable {Bytes : Type} (S : SignatureLibrary Bytes)

/-- SOURCE: adapters/src/local_keys/mod.rs:61-76 -/
def localVerify (payload signature : Bytes) : Answer Bool :=
  if S.length signature = 64 then .ok (S.ed25519 payload signature)
  else keyFailure
    ("invalid Ed25519 signature length: expected 64, got " ++ (S.length signature).repr)

/-- SOURCE: adapters/src/kms/mod.rs:363-383 -/
def kmsAlgorithms : List String :=
  ["RS256", "RS384", "RS512", "PS256", "PS384", "PS512", "ES256", "ES384", "ES512"]

/-- How a complaint names the key of an algorithm. SOURCE: adapters/src/kms/mod.rs:272-348 -/
def keyLabel (algorithm : String) : String :=
  if ["ES256", "ES384", "ES512"].contains algorithm then algorithm else "RSA"

/-- A key that cannot be read is an error, and a signature that cannot be read is none.
SOURCE: adapters/src/kms/mod.rs:264-383 -/
def verifyLocally (spki : Bytes) (algorithm : String) (payload signature : Bytes) : Answer Bool :=
  if kmsAlgorithms.contains algorithm then
    match S.readKey algorithm spki with
    | .error e => keyFailure
        ("failed to parse " ++ keyLabel algorithm ++ " public key DER for local verify: " ++ e)
    | .ok readSignature =>
      match readSignature signature with
      | none => .ok false
      | some verifies => .ok (verifies payload)
  else keyFailure ("unsupported algorithm for local verify: " ++ algorithm)

/-- What a mechanism reads when it is its turn: the clock, and the public key that the key service
has or fails to give. -/
structure Reading (Bytes : Type) : Type where
  nowSecs : ℕ
  publicKey : Except Error Bytes

/-- The key managers that the gate can have. SOURCE: server/src/bootstrap.rs:1405-1460 -/
inductive OperatorKeys : Type
  | local
  | kms (algorithm : String)

/-- SOURCE: adapters/src/local_keys/mod.rs:92-94 and adapters/src/kms/mod.rs:449-451 -/
def OperatorKeys.algorithm : OperatorKeys → String
  | .local => "EdDSA"
  | .kms algorithm => algorithm

/-- SOURCE: adapters/src/local_keys/mod.rs:61-76 and adapters/src/kms/mod.rs:429-440 -/
def OperatorKeys.verify (reading : Reading Bytes) (payload signature : Bytes) :
    OperatorKeys → Answer Bool
  | .local => localVerify S payload signature
  | .kms algorithm =>
    match reading.publicKey with
    | .error e => .error (.error e)
    | .ok spki => verifyLocally S spki algorithm payload signature

/-- The key manager of the gate, which does not sign. -/
def OperatorKeys.manager (reading : Reading Bytes) (keys : OperatorKeys) : KeyManager Bytes where
  sign _ := keyFailure ""
  verify payload signature := keys.verify S reading payload signature

end Keys

/-! ## Mechanisms -/

/-- SOURCE: server/src/middleware/operator_auth.rs:36 -/
def maxMtlsSubjectBytes : ℕ := 4096

/-- What a mechanism may look at. SOURCE: server/src/middleware/operator_auth.rs:55-58 -/
structure AuthInput : Type where
  bearer : Option String
  headers : List (String × List UInt8)

/-- The first value under a name; names are kept in lower case. SOURCE: `HeaderMap::get` -/
def AuthInput.header (input : AuthInput) (name : String) : Option (List UInt8) :=
  input.headers.lookup name.toLower

/-- A configured mechanism. SOURCE: server/src/middleware/operator_auth.rs:95-97, 144-150 and
350-352 -/
inductive OperatorAuthenticator : Type
  | sharedSecret (expected : String)
  | operatorToken (keys : OperatorKeys)
      (issuer audience requiredClaim requiredValue : String)
  | mtls (subjectHeader : String)

/-- SOURCE: server/src/middleware/operator_auth.rs:117-119, 233-235 and 378-380 -/
def OperatorAuthenticator.mechanism : OperatorAuthenticator → OperatorAuthMechanism
  | .sharedSecret _ => .sharedSecret
  | .operatorToken _ _ _ _ _ => .operatorToken
  | .mtls _ => .mutualTls

/-- SOURCE: core/src/domain/operator.rs:49-57 -/
def OperatorPrincipal.unattributed : OperatorPrincipal := ⟨unattributedOperatorId, .sharedSecret⟩

/-- The bytes of two texts are the same. SOURCE: server/src/middleware/operator_auth.rs:415-426 -/
def constantTimeEq (a b : String) : Bool := a == b

/-- SOURCE: server/src/middleware/operator_auth.rs:121-135 -/
def authenticateSharedSecret (expected : String) (input : AuthInput) :
    Authenticating OperatorPrincipal :=
  match input.bearer with
  | none => .error (.error .missingCredential)
  | some presented =>
    if constantTimeEq presented expected then .ok .unattributed
    else .error (.error .invalidCredential)

/-- The subject that a header names. SOURCE: server/src/middleware/operator_auth.rs:386-404 -/
def mtlsSubject (subjectHeader : String) (input : AuthInput) : Authenticating String := do
  match input.header subjectHeader with
  | none => .error (.error .missingCredential)
  | some value => do
    let text ← orInvalid (headerText value)
    let subject := trimChars text
    refuseUnless !subject.isEmpty
    refuseUnless (decide (utf8Length subject ≤ maxMtlsSubjectBytes))
    .ok (String.ofList subject)

/-- A principal whose invariants are asserted. SOURCE: core/src/domain/operator.rs:68-79 -/
def asserted (principal : OperatorPrincipal) : Authenticating OperatorPrincipal := do
  assertThat principal.invariants
  .ok principal

/-- SOURCE: server/src/middleware/operator_auth.rs:382-412 -/
def authenticateMtls (subjectHeader : String) (input : AuthInput) :
    Authenticating OperatorPrincipal := do
  asserted { id := ← mtlsSubject subjectHeader input, mechanism := .mutualTls }

section Gate

variable {Bytes : Type} (W : Wire Bytes) (S : SignatureLibrary Bytes)

/-- The authenticator of tokens when it is its turn. SOURCE: server/src/bootstrap.rs:939-947 -/
def OperatorKeys.authenticator (reading : Reading Bytes) (keys : OperatorKeys)
    (issuer audience requiredClaim requiredValue : String) : OperatorTokenAuthenticator Bytes where
  keys := keys.manager S reading
  algorithm := keys.algorithm
  issuer := issuer
  audience := audience
  requiredClaim := requiredClaim
  requiredValue := requiredValue

/-- SOURCE: server/src/middleware/operator_auth.rs:84-87 -/
def OperatorAuthenticator.authenticate (reading : Reading Bytes) (input : AuthInput) :
    OperatorAuthenticator → Authenticating OperatorPrincipal
  | .sharedSecret expected => authenticateSharedSecret expected input
  | .operatorToken keys issuer audience requiredClaim requiredValue =>
    (keys.authenticator S reading issuer audience requiredClaim requiredValue).authenticate W
      reading.nowSecs input.bearer
  | .mtls subjectHeader => authenticateMtls subjectHeader input

/-! ## The chain -/

/-- What the mechanisms so far have said. -/
structure Seen : Type where
  presentedCredential : Bool
  missingCredential : Bool

/-- The reason when every mechanism has refused.
SOURCE: server/src/middleware/operator_auth.rs:473-479 -/
def Seen.reason (seen : Seen) : OperatorAuthFailureReason :=
  if seen.presentedCredential then .invalidCredential
  else if seen.missingCredential then .missingCredential
  else .notConfigured

/-- SOURCE: server/src/middleware/operator_auth.rs:463-469 -/
def Seen.note (seen : Seen) : OperatorAuthFailureReason → Seen
  | .missingCredential => { seen with missingCredential := true }
  | .invalidCredential => { seen with presentedCredential := true }
  | .notConfigured => seen

/-- A mechanism whose turn it is, with what it reads. -/
abbrev Turn (Bytes : Type) : Type := OperatorAuthenticator × Reading Bytes

def Turn.authenticate (turn : Turn Bytes) (input : AuthInput) : Authenticating OperatorPrincipal :=
  turn.1.authenticate W S turn.2 input

/-- The loop. SOURCE: server/src/middleware/operator_auth.rs:455-480 -/
def tryInOrder (input : AuthInput) : Seen → List (Turn Bytes) → Authenticating OperatorPrincipal
  | seen, [] => .error (.error seen.reason)
  | seen, turn :: rest =>
    match turn.authenticate W S input with
    | .ok principal => asserted principal
    | .error .panic => .error .panic
    | .error (.error reason) => tryInOrder input (seen.note reason) rest

/-- SOURCE: server/src/middleware/operator_auth.rs:429-441 -/
structure OperatorAuthGate : Type where
  authenticators : List OperatorAuthenticator
  nonempty : authenticators ≠ []

/-- The chain with what each mechanism reads when it is its turn. -/
def OperatorAuthGate.turns (gate : OperatorAuthGate) (readings : ℕ → Reading Bytes) :
    List (Turn Bytes) :=
  gate.authenticators.mapIdx fun i a => (a, readings i)

/-- SOURCE: server/src/middleware/operator_auth.rs:443-480 -/
def OperatorAuthGate.authenticate (gate : OperatorAuthGate) (readings : ℕ → Reading Bytes)
    (input : AuthInput) : Authenticating OperatorPrincipal :=
  tryInOrder W S input ⟨false, false⟩ (gate.turns readings)

end Gate

end OidcExchange
