import OidcExchange.Program.Claims
import OidcExchange.Program.Service

/-!
# Access tokens as text

An access token is written as three segments: the header and the claims as JSON, each in
base64url, and the signature over both. Reading one back checks the shape, the pinned
header, the signature and, only then, the claims.

The JSON and base64url writers and readers are parameters.
-/

set_option autoImplicit false

namespace OidcExchange

open Storage Interleaving

/-! ## Writers and readers -/

/-- JSON and base64url. SOURCE: `serde_json::to_vec`, `serde_json::from_slice`,
`URL_SAFE_NO_PAD` -/
structure Wire (Bytes : Type) : Type where
  asBytes : String → Bytes
  toVec : Value → Bytes
  fromSlice : Bytes → Option Value
  encode : Bytes → String
  decode : String → Option Bytes

/-- The key manager. SOURCE: core/src/ports/key_manager.rs -/
structure KeyManager (Bytes : Type) : Type where
  sign : Bytes → Answer Bytes
  verify : Bytes → Bytes → Answer Bool

/-- A segment can be read back, has no dot in it and is not empty. -/
structure Wire.Carries {Bytes : Type} (W : Wire Bytes) (bytes : Bytes) : Prop where
  decode : W.decode (W.encode bytes) = some bytes
  noDot : '.' ∉ (W.encode bytes).toList
  nonempty : W.encode bytes ≠ ""

/-- JSON read back with its numbers as the reader gives them; an integer is read as it is
written. -/
def Value.reread (number : ℤ → ℕ → ℤ × ℕ) : Value → Value
  | .null => .null
  | .bool b => .bool b
  | .number m 0 => .number m 0
  | .number m (e + 1) => .number (number m (e + 1)).1 (number m (e + 1)).2
  | .string s => .string s
  | .array items => .array (items.attach.map fun v => v.1.reread number)
  | .object fields => .object (fields.attach.map fun f => (f.1.1, f.1.2.reread number))
termination_by v => sizeOf v
decreasing_by
  · have := List.sizeOf_lt_of_mem v.2
    simp
    omega
  · have := List.sizeOf_lt_of_mem f.2
    obtain ⟨⟨name, v⟩, hf⟩ := f
    simp at this ⊢
    omega

/-! ## Writing a token -/

/-- SOURCE: core/src/service/mod.rs:165-172 -/
def AccessToken.header (token : AccessToken) : Value :=
  .object [("alg", .string token.alg), ("kid", .string token.kid), ("typ", .string token.typ)]

/-- The registered members of the payload. SOURCE: core/src/domain/token.rs:41-56 -/
def AccessTokenClaims.registered (claims : AccessTokenClaims) : List (String × Value) :=
  [("sub", .string claims.sub), ("iss", .string claims.iss), ("aud", .string claims.aud),
    ("sid", .string claims.sid), ("iat", .number claims.iat.toNat 0),
    ("exp", .number claims.exp.toNat 0)]

/-- The members of the payload; the custom claims stand beside the registered ones.
SOURCE: core/src/domain/token.rs:41-59 -/
def AccessTokenClaims.members (claims : AccessTokenClaims) : List (String × Value) :=
  claims.registered ++ claims.custom.entries.map fun e => (e.1, e.2)

def AccessTokenClaims.payload (claims : AccessTokenClaims) : Value := .object claims.members

section Text

variable {Bytes : Type} (W : Wire Bytes) (K : KeyManager Bytes) (d : Deployment)

/-- What is signed. SOURCE: core/src/service/mod.rs:173-181 -/
def signingInput (header payload : Value) : String :=
  W.encode (W.toVec header) ++ "." ++ W.encode (W.toVec payload)

/-- The text of a token. SOURCE: core/src/service/mod.rs:182-186 -/
def AccessToken.compact (token : AccessToken) : String :=
  signingInput W token.header token.claims.payload ++ "." ++ token.signature

/-- The signature segment of a token. SOURCE: core/src/service/mod.rs:182-183 -/
def signatureSegment (header payload : Value) : Answer String :=
  (K.sign (W.asBytes (signingInput W header payload))).map W.encode

/-- The ports as `build_access_token` finds them at an instant: the clock, and the key
manager behind the writers. -/
def mintPorts (now : Instant) : (o : Op) → Ans o
  | .now => now
  | .sign algorithm type keyId claims =>
    signatureSegment W K
      (AccessToken.header
        { alg := algorithm, typ := type, kid := keyId, claims := claims, signature := "" })
      claims.payload
  | .randomToken => ""
  | .newFamilyId => ""
  | .resolveRefreshToken _ => .error .panic
  | .rotateRefreshToken _ _ => .error .panic
  | .storeRefreshToken _ => .error .panic
  | .revokeSession _ => .error .panic
  | .revokeFamily _ => .error .panic
  | .revokeAllUserSessions _ => .error .panic
  | .getUserById _ => .error .panic
  | .getUserByExternalId _ _ => .error .panic
  | .createUser _ => .error .panic
  | .writeUser _ _ _ => .error .panic
  | .emit _ => .error .panic
  | .notify _ => .error .panic
  | .checkAndConsume _ => .error .panic
  | .exchangeCode _ _ _ => .error .panic
  | .validateIdToken _ _ => .error .panic
  | .bindAssertion _ _ => .error .panic

/-- `build_access_token` of a user at an instant, under configured claim templates.
SOURCE: core/src/service/mod.rs:131-188 -/
def mintAccessToken (customClaims : Option (Table String String)) (now : Instant) (user : User)
    (familyId : String) : Except (Fault Error) (AccessToken × UInt64) :=
  (buildAccessToken { d with resolveCustomClaims := resolveCustomClaims customClaims } user
    familyId).run (mintPorts W K now)

/-! ## Reading a token -/

/-- SOURCE: core/src/service/mod.rs:544 -/
def clockSkewSecs : ℕ := 60

/-- The largest 64-bit number. -/
def maxU64 : ℕ := 2 ^ 64 - 1

/-- SOURCE: `u64::saturating_add` -/
def saturatingAdd (a b : ℕ) : ℕ := min (a + b) maxU64

/-- Exactly three segments, none of them empty. SOURCE: core/src/service/mod.rs:427-438 -/
def splitJwsSegments (token : String) : Option (String × String × String) :=
  match (token.toList.splitOn '.').map String.ofList with
  | [header, payload, signature] =>
    if header ≠ "" ∧ payload ≠ "" ∧ signature ≠ "" then some (header, payload, signature)
    else none
  | _ => none

/-- The value of a member that occurs exactly once; a second occurrence is refused. -/
def uniqueMember (fields : List (String × Value)) (name : String) : Option Value :=
  match fields.filter fun f => f.1 == name with
  | [f] => some f.2
  | _ => none

/-- SOURCE: `u64::deserialize` -/
def Value.asU64 : Value → Option UInt64
  | .number m 0 => if 0 ≤ m ∧ m ≤ maxU64 then some (UInt64.ofNat m.toNat) else none
  | _ => none

/-- The names of the registered members. -/
def registeredNames : List String := ["sub", "iss", "aud", "sid", "iat", "exp"]

/-- The members that are not registered, the last one of a name first.
SOURCE: core/src/domain/token.rs:57-58 -/
def customMembers (fields : List (String × Value)) : Table String Value :=
  (fields.filter fun f => !registeredNames.contains f.1).foldl (fun t f => t.insert f.1 f.2) ∅

/-- The typed claims of a payload. SOURCE: core/src/domain/token.rs:41-59 -/
def AccessTokenClaims.ofValue : Value → Option AccessTokenClaims
  | .object fields => do
    let sub ← (← uniqueMember fields "sub").asStr
    let iss ← (← uniqueMember fields "iss").asStr
    let aud ← (← uniqueMember fields "aud").asStr
    let sid ← (← uniqueMember fields "sid").asStr
    let iat ← (← uniqueMember fields "iat").asU64
    let exp ← (← uniqueMember fields "exp").asU64
    some { sub := sub, iss := iss, aud := aud, sid := sid, iat := iat, exp := exp,
           custom := customMembers fields }
  | _ => none

/-- The optional not-before claim; a member that is no 64-bit number is refused.
SOURCE: core/src/service/mod.rs:417-420 -/
def notBefore : Value → Option (Option UInt64)
  | .object fields =>
    match fields.filter fun f => f.1 == "nbf" with
    | [] => some none
    | [(_, .null)] => some none
    | [f] => f.2.asU64.map some
    | _ => none
  | _ => none

/-- The typed header of a token; the reader also takes the three fields in a row, without
their names. SOURCE: core/src/service/mod.rs:405-410 -/
def headerPins : Value → Option (String × String × String)
  | .object fields => do
    let alg ← (← uniqueMember fields "alg").asStr
    let kid ← (← uniqueMember fields "kid").asStr
    let typ ← (← uniqueMember fields "typ").asStr
    some (alg, kid, typ)
  | .array [alg, kid, typ] => do
    some (← alg.asStr, ← kid.asStr, ← typ.asStr)
  | _ => none

/-- A text without anything but white space. SOURCE: `str::trim` -/
def isBlank (s : String) : Bool := (trimChars s.toList).isEmpty

/-- A check that refuses with its fixed reason. -/
def require (condition : Bool) (reason : String) : Except (Fault String) Unit :=
  if condition then .ok () else .error (.error reason)

/-- A part that cannot be read is refused with its fixed reason. -/
def readAs {α : Type} (part : Option α) (reason : String) : Except (Fault String) α :=
  match part with
  | some a => .ok a
  | none => .error (.error reason)

/-- SOURCE: core/src/service/mod.rs:443-465 -/
def pinAccessTokenHeader (headerBytes : Bytes) : Except (Fault String) Unit := do
  assertThat (d.algorithm != "")
  assertThat (d.keyId != "")
  let (alg, kid, typ) ← readAs ((W.fromSlice headerBytes).bind headerPins) "not an access token"
  require (alg == d.algorithm && kid == d.keyId) "access token pinned to the wrong key"
  require (typ == accessTokenTyp) "not an access token"

/-- SOURCE: core/src/service/mod.rs:476-524 -/
def checkClaims (claims : AccessTokenClaims) (payload : Value) (nowSecs : ℕ) :
    Except (Fault String) Unit := do
  assertThat (d.issuer != "")
  require (claims.iss == d.issuer) "invalid issuer"
  require (claims.aud == d.audience) "invalid audience"
  let nbf ← readAs (notBefore payload) "malformed access token claims"
  require (decide (nowSecs ≤ saturatingAdd claims.exp.toNat clockSkewSecs)) "token expired"
  require (decide (claims.iat.toNat ≤ saturatingAdd nowSecs clockSkewSecs))
    "token issued in the future"
  require (nbf.all fun t => decide (t.toNat ≤ saturatingAdd nowSecs clockSkewSecs))
    "token not yet valid"
  require (!isBlank claims.sub) "blank subject"
  require (!isBlank claims.sid) "blank session identifier"

/-- Verify over the segments as received. SOURCE: core/src/service/mod.rs:214-228 -/
def verifySegments (headerSeg payloadSeg signatureSeg : String) : Except (Fault String) Unit := do
  let signature ← readAs (W.decode signatureSeg) "malformed access token"
  match K.verify (W.asBytes (headerSeg ++ "." ++ payloadSeg)) signature with
  | .ok verified => require verified "invalid signature"
  | .error .panic => .error .panic
  | .error (.error _) => .error (.error "invalid signature")

/-- SOURCE: core/src/service/mod.rs:198-251 -/
def validateAccessToken (now : Instant) (token : String) :
    Except (Fault String) AccessTokenClaims := do
  let nowSecs := now.timestamp.toNat
  let (headerSeg, payloadSeg, signatureSeg) ←
    readAs (splitJwsSegments token) "malformed access token"
  let headerBytes ← readAs (W.decode headerSeg) "malformed access token"
  pinAccessTokenHeader W d headerBytes
  verifySegments W K headerSeg payloadSeg signatureSeg
  let payloadBytes ← readAs (W.decode payloadSeg) "malformed access token"
  let payload ← readAs (W.fromSlice payloadBytes) "malformed access token claims"
  let claims ← readAs (AccessTokenClaims.ofValue payload) "malformed access token claims"
  checkClaims d claims payload nowSecs
  .ok claims

end Text

end OidcExchange
