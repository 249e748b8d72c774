import OidcExchange.Program.Assertion
import OidcExchange.Program.OidcProvider
import OidcExchange.Storage.UniqueIndex

/-!
# Verification keys

A provider publishes its keys as a document. An entry of it becomes a verification key under the
rules on its purpose, its operations, its type, its algorithm, its id and its material; an entry
that breaks one is dropped, and two that keep them under one id make the document an error.

The package that decodes the material of an entry is a parameter.
-/

set_option autoImplicit false

namespace OidcExchange

open Storage

/-- SOURCE: `Value::as_array` -/
def Value.asArray : Value → Option (List Value)
  | .array items => some items
  | _ => none

/-- Every algorithm of a JWS. -/
def jwsAlgorithms : List JwsAlgorithm :=
  [.hs256, .hs384, .hs512, .es256, .es384, .rs256, .rs384, .rs512, .ps256, .ps384, .ps512, .edDsa]

/-- SOURCE: `jsonwebtoken::Algorithm::from_str` -/
def algorithmFromStr (declared : String) : Option JwsAlgorithm :=
  jwsAlgorithms.find? fun algorithm => jwsAlgName algorithm == declared

/-- A key with the id it was published under and the algorithm that its signatures verify under.
SOURCE: adapters/src/shared/keys.rs:26-30 -/
structure Jwks.VerificationKey (Key : Type) : Type where
  kid : String
  algorithm : JwsAlgorithm
  decodingKey : Key
  named : kid ≠ ""

/-- SOURCE: adapters/src/shared/keys.rs:57-59 -/
structure VerificationKeySet (Key : Type) : Type where
  byKid : Table String (Jwks.VerificationKey Key)
  keyed : Keyed Jwks.VerificationKey.kid byKid

/-- The material of an entry, if it decodes.
SOURCE: `serde_json::from_value::<Jwk>`, `DecodingKey::from_jwk` -/
abbrev JwkDecoder (Key : Type) : Type := Table String Value → Option Key

/-! ## One entry -/

/-- A member that is a text. -/
def strMember (jwk : Table String Value) (name : String) : Option String :=
  (jwk.lookup name).bind Value.asStr

/-- SOURCE: adapters/src/shared/keys.rs:160-164 -/
def useAdmits (jwk : Table String Value) : Bool :=
  match strMember jwk "use" with
  | some useValue => useValue == "sig"
  | none => true

/-- SOURCE: adapters/src/shared/keys.rs:168-173 -/
def keyOpsAdmit (jwk : Table String Value) : Bool :=
  match (jwk.lookup "key_ops").bind Value.asArray with
  | some ops => ops.any fun op => op.asStr == some "verify"
  | none => true

/-- SOURCE: adapters/src/shared/keys.rs:225-231 -/
def parseAlgorithm (declared : String) : Except (Fault Error) (Option JwsAlgorithm) := do
  assertThat (!declared.isEmpty)
  .ok (algorithmFromStr declared)

/-- SOURCE: adapters/src/shared/keys.rs:234-248 -/
def checkFamily (algorithm : JwsAlgorithm) (kty : String) (crv : Option String) : Bool :=
  match algorithm with
  | .rs256 | .rs384 | .rs512 => kty == "RSA"
  | .ps256 | .ps384 | .ps512 => kty == "RSA"
  | .es256 => kty == "EC" && crv == some "P-256"
  | .es384 => kty == "EC" && crv == some "P-384"
  | .edDsa => kty == "OKP" && crv == some "Ed25519"
  | .hs256 | .hs384 | .hs512 => false

/-- SOURCE: adapters/src/shared/keys.rs:256-264 -/
def inferAlgorithm (kty : String) (crv : Option String) : Option JwsAlgorithm :=
  if kty = "RSA" then some .rs256
  else if kty = "EC" ∧ crv = some "P-256" then some .es256
  else if kty = "EC" ∧ crv = some "P-384" then some .es384
  else if kty = "OKP" ∧ crv = some "Ed25519" then some .edDsa
  else none

/-- The declared algorithm, or the inferred one where none is declared.
SOURCE: adapters/src/shared/keys.rs:187-194 -/
def candidateAlgorithm (jwk : Table String Value) (kty : String) (crv : Option String) :
    Except (Fault Error) (Option JwsAlgorithm) :=
  match strMember jwk "alg" with
  | some declared => do
    let parsed ← parseAlgorithm declared
    .ok (parsed.filter fun algorithm => checkFamily algorithm kty crv)
  | none => .ok (inferAlgorithm kty crv)

section

variable {Key : Type} (decode : JwkDecoder Key) (admitted : List JwsAlgorithm)

/-- An entry that the rules have found this algorithm for.
SOURCE: adapters/src/shared/keys.rs:198-216 -/
def admitKey (jwk : Table String Value) (algorithm : JwsAlgorithm) :
    Option (Jwks.VerificationKey Key) :=
  if algorithm ∈ admitted then do
    let kid ← strMember jwk "kid"
    if named : kid ≠ "" then do
      let decodingKey ← decode jwk
      some ⟨kid, algorithm, decodingKey, named⟩
    else none
  else none

/-- SOURCE: adapters/src/shared/keys.rs:149-217 -/
def buildVerificationKey (jwk : Table String Value) :
    Except (Fault Error) (Option (Jwks.VerificationKey Key)) :=
  if !useAdmits jwk then .ok none
  else if !keyOpsAdmit jwk then .ok none
  else
    match strMember jwk "kty" with
    | none => .ok none
    | some kty =>
      if kty = "oct" then .ok none
      else do
        let candidate ← candidateAlgorithm jwk kty (strMember jwk "crv")
        .ok (candidate.bind (admitKey decode admitted jwk))

/-- What an entry of the document becomes; one that is not an object is dropped.
SOURCE: adapters/src/shared/keys.rs:94-100 -/
def readEntry (entry : Value) : Except (Fault Error) (Option (Jwks.VerificationKey Key)) :=
  match entry.asObject with
  | some jwk => buildVerificationKey decode admitted jwk
  | none => .ok none

end

/-! ## A document -/

namespace VerificationKeySet

variable (tables : UnicodeTables) {Key : Type} (decode : JwkDecoder Key)
  (admitted : List JwsAlgorithm) (provider : String)

def empty : VerificationKeySet Key := ⟨∅, .empty⟩

def insert (keys : VerificationKeySet Key) (key : Jwks.VerificationKey Key) :
    VerificationKeySet Key :=
  ⟨keys.byKid.insert key.kid key, keys.keyed.insert key⟩

/-- SOURCE: adapters/src/shared/keys.rs:102-109 -/
def addKey (keys : VerificationKeySet Key) (key : Jwks.VerificationKey Key) :
    Except (Fault Error) (VerificationKeySet Key) :=
  match keys.byKid.lookup key.kid with
  | some existing => do
    assertThat (existing.kid == key.kid)
    .error (.error (.providerError provider
      ("JWKS carries several eligible keys for kid " ++ tables.debug key.kid)))
  | none => .ok (keys.insert key)

/-- SOURCE: adapters/src/shared/keys.rs:90-110 -/
def addEntries : VerificationKeySet Key → List Value →
    Except (Fault Error) (VerificationKeySet Key)
  | keys, [] => .ok keys
  | keys, entry :: rest => do
    match ← readEntry decode admitted entry with
    | none => addEntries keys rest
    | some key => do
      let more ← addKey tables provider keys key
      addEntries more rest

/-- The entries of a document. SOURCE: adapters/src/shared/keys.rs:82-84 -/
def entriesOf (jwks : Value) : Option (List Value) := (jwks.field "keys").bind Value.asArray

/-- SOURCE: adapters/src/shared/keys.rs:72-113 -/
def fromJwks (jwks : Value) : Except (Fault Error) (VerificationKeySet Key) := do
  assertThat (!admitted.isEmpty)
  match entriesOf jwks with
  | none => .error (.error (.providerError provider "JWKS response missing 'keys' array"))
  | some entries => addEntries tables decode admitted provider empty entries

/-- SOURCE: adapters/src/shared/keys.rs:120-123 -/
def get (keys : VerificationKeySet Key) (kid : String) :
    Except (Fault Error) (Option (Jwks.VerificationKey Key)) := do
  assertThat (!kid.isEmpty)
  .ok (keys.byKid.lookup kid)

end VerificationKeySet

end OidcExchange
