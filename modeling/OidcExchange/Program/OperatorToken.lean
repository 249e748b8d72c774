import OidcExchange.Program.AccessToken
import OidcExchange.Program.Configuration

/-!
# Operator tokens

An operator presents a token that this service's keys verify. Its claims are read as a map, in
which the last member of a name stands; its audience is a string or a list of them; and it has to
carry the configured claim.

The readers of JSON and base64url are the ones of the access tokens, and parameters. Left out: log
lines.
-/

set_option autoImplicit false

namespace OidcExchange

open Storage

/-- The members of a parsed object as a map. SOURCE: `serde_json::Map` -/
def objectMembers (fields : List (String × Value)) : Table String Value :=
  fields.foldl (fun t f => t.insert f.1 f.2) ∅

/-- SOURCE: `Value::as_object` -/
def Value.asObject : Value → Option (Table String Value)
  | .object fields => some (objectMembers fields)
  | _ => none

/-- The claims are for the audience, which is the only one or among several.
SOURCE: server/src/middleware/operator_auth.rs:282-294 -/
def audMatches (claims : Table String Value) (audience : String) : Bool :=
  match claims.lookup "aud" with
  | some (.string aud) => aud == audience
  | some (.array auds) => (auds.filterMap Value.asStr).any fun aud => aud == audience
  | _ => false

/-- SOURCE: server/src/middleware/operator_auth.rs:45 -/
def operatorTokenClockSkewLeewaySecs : ℕ := 30

/-- SOURCE: server/src/middleware/operator_auth.rs:51 -/
def maxOperatorTokenTtlSecs : ℕ := 24 * 60 * 60

/-- SOURCE: server/src/middleware/operator_auth.rs:144-150 -/
structure OperatorTokenAuthenticator (Bytes : Type) : Type where
  keys : KeyManager Bytes
  algorithm : String
  issuer : String
  audience : String
  requiredClaim : String
  requiredValue : String

/-- A step of the authenticator that refuses with a reason. -/
abbrev Authenticating (α : Type) : Type := Except (Fault OperatorAuthFailureReason) α

/-- What is missing is an invalid credential. -/
def orInvalid {α : Type} : Option α → Authenticating α
  | some a => .ok a
  | none => .error (.error .invalidCredential)

/-- What does not hold is an invalid credential. -/
def refuseUnless (condition : Bool) : Authenticating Unit :=
  if condition then .ok () else .error (.error .invalidCredential)

namespace OperatorTokenAuthenticator

variable {Bytes : Type}

/-- SOURCE: server/src/middleware/operator_auth.rs:153-179 -/
def new (keys : KeyManager Bytes) (algorithm issuer audience requiredClaim requiredValue : String) :
    Except (Fault Error) (OperatorTokenAuthenticator Bytes) := do
  assertThat (nonBlank issuer)
  assertThat (nonBlank audience)
  assertThat (nonBlank requiredClaim)
  .ok { keys := keys, algorithm := algorithm, issuer := issuer, audience := audience,
        requiredClaim := requiredClaim, requiredValue := requiredValue }

/-- The three parts of a token. SOURCE: server/src/middleware/operator_auth.rs:184-187 -/
def parts (token : String) : Option (String × String × String) :=
  match (token.toList.splitOn '.').map String.ofList with
  | [header, payload, signature] => some (header, payload, signature)
  | _ => none

variable (W : Wire Bytes)

/-- The algorithm a token names and its claims.
SOURCE: server/src/middleware/operator_auth.rs:181-200 -/
def decode (token : String) : Option (String × Table String Value) := do
  let (headerSeg, payloadSeg, signatureSeg) ← parts token
  let header ← W.fromSlice (← W.decode headerSeg)
  let alg ← (← (← header.asObject).lookup "alg").asStr
  let payload ← W.fromSlice (← W.decode payloadSeg)
  let claims ← payload.asObject
  let _ ← W.decode signatureSeg
  some (alg, claims)

variable (a : OperatorTokenAuthenticator Bytes)

/-- SOURCE: server/src/middleware/operator_auth.rs:202-215 -/
def verifySignature (signingInput : String) (signature : Bytes) : Authenticating Unit :=
  match a.keys.verify (W.asBytes signingInput) signature with
  | .ok verified => refuseUnless verified
  | .error .panic => .error .panic
  | .error (.error _) => .error (.error .invalidCredential)

/-- The window of a token, with some leeway, and a bound on what is left of it.
SOURCE: server/src/middleware/operator_auth.rs:296-309 -/
def checkWindow (nowSecs : ℕ) (claims : Table String Value) : Authenticating Unit := do
  let exp ← orInvalid ((claims.lookup "exp").bind Value.asU64)
  refuseUnless (decide (nowSecs < saturatingAdd exp.toNat operatorTokenClockSkewLeewaySecs))
  refuseUnless (decide (exp.toNat ≤
    nowSecs + maxOperatorTokenTtlSecs + operatorTokenClockSkewLeewaySecs))

/-- SOURCE: server/src/middleware/operator_auth.rs:311-323 -/
def subjectOf (claims : Table String Value) : Authenticating String := do
  refuseUnless ((claims.lookup a.requiredClaim).bind Value.asStr == some a.requiredValue)
  orInvalid (((claims.lookup "sub").bind Value.asStr).filter fun s => !s.isEmpty)

/-- SOURCE: server/src/middleware/operator_auth.rs:237-332 -/
def authenticate (nowSecs : ℕ) (bearer : Option String) : Authenticating OperatorPrincipal := do
  match bearer with
  | none => .error (.error .missingCredential)
  | some token => do
    let (alg, claims) ← orInvalid (decode W token)
    refuseUnless (alg == a.algorithm)
    let (headerSeg, payloadSeg, signatureSeg) ← orInvalid (parts token)
    let signature ← orInvalid (W.decode signatureSeg)
    a.verifySignature W (headerSeg ++ "." ++ payloadSeg) signature
    refuseUnless ((claims.lookup "iss").bind Value.asStr == some a.issuer)
    refuseUnless (audMatches claims a.audience)
    checkWindow nowSecs claims
    let subject ← a.subjectOf claims
    let principal : OperatorPrincipal := { id := subject, mechanism := .operatorToken }
    assertThat principal.invariants
    .ok principal

end OperatorTokenAuthenticator

/-- The authenticator a configuration builds. SOURCE: server/src/bootstrap.rs:939-947 -/
def Config.operatorTokenAuthenticator {Bytes : Type} (c : Config) (keys : KeyManager Bytes)
    (algorithm : String) : Except (Fault Error) (OperatorTokenAuthenticator Bytes) :=
  OperatorTokenAuthenticator.new keys algorithm c.server.issuer.text c.internalApi.tokenAudience
    c.internalApi.requiredClaim c.internalApi.requiredValue

end OidcExchange
