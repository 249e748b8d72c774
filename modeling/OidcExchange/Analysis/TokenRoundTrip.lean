import OidcExchange.Analysis.Undisturbed
import OidcExchange.Program.AccessToken

/-!
# Access tokens there and back

A token that was built is accepted until it expires and gives back its claims; a token
that is accepted carries a valid signature over claims that pass every check; and no
custom claim stands in the place of a registered one.
-/

set_option autoImplicit false

namespace OidcExchange

open Storage Interleaving

/-! ## Members of a payload -/

@[simp] theorem Value.reread_object (number : ℤ → ℕ → ℤ × ℕ) (fields : List (String × Value)) :
    (Value.object fields).reread number =
      .object (fields.map fun f => (f.1, f.2.reread number)) := by
  rw [Value.reread]
  congr 1
  exact List.attach_map_val (f := fun f : String × Value => (f.1, f.2.reread number))

@[simp] theorem Value.reread_string (number : ℤ → ℕ → ℤ × ℕ) (s : String) :
    (Value.string s).reread number = .string s := by
  rw [Value.reread]

@[simp] theorem Value.reread_integer (number : ℤ → ℕ → ℤ × ℕ) (m : ℤ) :
    (Value.number m 0).reread number = .number m 0 := by
  rw [Value.reread]

/-- Every registered name is reserved. -/
theorem isReservedClaim_of_registered : ∀ name ∈ registeredNames, isReservedClaim name = true := by
  decide

section Members

variable {claims : AccessTokenClaims} {number : ℤ → ℕ → ℤ × ℕ} {name : String}

/-- The custom claims have no reserved name. -/
def Unreserved (custom : Table String Value) : Prop :=
  ∀ e ∈ custom.entries, isReservedClaim e.1 = false

theorem unreserved_resolveCustomClaims (configClaims : Option (Table String String))
    (user : User) : Unreserved (resolveCustomClaims configClaims user) := by
  intro e he
  cases hkey : isReservedClaim e.1 with
  | false => rfl
  | true =>
    have hlookup := AList.mem_lookup_iff.mpr he
    rw [lookup_resolveCustomClaims_of_reserved _ hkey] at hlookup
    exact absurd hlookup (by simp)

/-- A custom member as the payload has it. -/
def customMember (number : ℤ → ℕ → ℤ × ℕ) (e : (_ : String) × Value) : String × Value :=
  (e.1, e.2.reread number)

/-- No custom claim has a reserved name, as the payload is read back. -/
theorem filter_custom_of_reserved (hcustom : Unreserved claims.custom)
    (hname : isReservedClaim name = true) :
    (claims.custom.entries.map (customMember number)).filter (fun f => f.1 == name) = [] := by
  rw [List.filter_eq_nil_iff]
  intro f hf
  obtain ⟨e, he, rfl⟩ := List.mem_map.mp hf
  have hne : e.1 ≠ name := by
    rintro rfl
    simp [hcustom e he] at hname
  simpa [customMember] using hne

/-- The members as the payload is read back. -/
def AccessTokenClaims.membersRead (claims : AccessTokenClaims) (number : ℤ → ℕ → ℤ × ℕ) :
    List (String × Value) :=
  claims.registered ++ claims.custom.entries.map (customMember number)

theorem reread_payload :
    claims.payload.reread number = .object (claims.membersRead number) := by
  simp only [AccessTokenClaims.payload, AccessTokenClaims.members, Value.reread_object,
    AccessTokenClaims.membersRead, List.map_append, List.map_map]
  congr 2
  simp [AccessTokenClaims.registered]

theorem filter_membersRead (hcustom : Unreserved claims.custom)
    (hname : isReservedClaim name = true) :
    (claims.membersRead number).filter (fun f => f.1 == name) =
      claims.registered.filter fun f => f.1 == name := by
  rw [AccessTokenClaims.membersRead, List.filter_append, filter_custom_of_reserved hcustom hname,
    List.append_nil]

theorem uniqueMember_membersRead (hcustom : Unreserved claims.custom)
    (hname : isReservedClaim name = true) :
    uniqueMember (claims.membersRead number) name = uniqueMember claims.registered name := by
  unfold uniqueMember
  rw [filter_membersRead hcustom hname]

theorem asU64_toNat (n : UInt64) : (Value.number n.toNat 0).asU64 = some n := by
  have hlt : n.toNat ≤ maxU64 := by
    have := n.toNat_lt
    unfold maxU64
    omega
  simp [Value.asU64, hlt]

/-- The claims are read back from the payload. -/
theorem ofValue_payload (hcustom : Unreserved claims.custom) :
    AccessTokenClaims.ofValue (claims.payload.reread number) =
      some { claims with custom := customMembers (claims.membersRead number) } := by
  have hmember : ∀ name ∈ registeredNames, uniqueMember (claims.membersRead number) name =
      uniqueMember claims.registered name := fun name hname =>
    uniqueMember_membersRead hcustom (isReservedClaim_of_registered name hname)
  rw [reread_payload]
  simp only [AccessTokenClaims.ofValue]
  rw [hmember "sub" (by decide), hmember "iss" (by decide), hmember "aud" (by decide),
    hmember "sid" (by decide), hmember "iat" (by decide), hmember "exp" (by decide)]
  simp [uniqueMember, AccessTokenClaims.registered, Value.asStr, asU64_toNat]

theorem notBefore_payload (hcustom : Unreserved claims.custom) :
    notBefore (claims.payload.reread number) = some none := by
  rw [reread_payload]
  simp only [notBefore]
  rw [filter_membersRead hcustom (by decide)]
  simp [AccessTokenClaims.registered]

end Members

/-! ## Segments -/

theorem require_eq_ok {condition : Bool} {reason : String} :
    require condition reason = .ok () ↔ condition = true := by
  cases condition <;> simp [require]

theorem readAs_eq_ok {α : Type} {part : Option α} {reason : String} {a : α} :
    readAs part reason = .ok a ↔ part = some a := by
  cases part <;> simp [readAs]

section Segments

variable {header payload signature text : String}

theorem splitJwsSegments_join (hheader : '.' ∉ header.toList) (hpayload : '.' ∉ payload.toList)
    (hsignature : '.' ∉ signature.toList) (hh : header ≠ "") (hp : payload ≠ "")
    (hs : signature ≠ "") :
    splitJwsSegments (header ++ "." ++ payload ++ "." ++ signature) =
      some (header, payload, signature) := by
  have htext : (header ++ "." ++ payload ++ "." ++ signature).toList =
      header.toList ++ '.' :: (payload.toList ++ '.' :: signature.toList) := by
    simp
  have hsplit : (header ++ "." ++ payload ++ "." ++ signature).toList.splitOn '.' =
      [header.toList, payload.toList, signature.toList] := by
    rw [htext, List.splitOn_append_cons_self_of_not_mem hheader,
      List.splitOn_append_cons_self_of_not_mem hpayload, List.splitOn_eq_singleton hsignature]
  unfold splitJwsSegments
  rw [hsplit]
  simp [hh, hp, hs]

/-- A text that is split is its segments with dots between them. -/
theorem join_of_splitJwsSegments (h : splitJwsSegments text = some (header, payload, signature)) :
    text = header ++ "." ++ payload ++ "." ++ signature := by
  unfold splitJwsSegments at h
  split at h
  case h_2 => exact absurd h (by simp)
  case h_1 hparts =>
    split_ifs at h with hne
    obtain ⟨rfl, rfl, rfl⟩ := by simpa using h
    obtain ⟨a, b, c, hsplit⟩ : ∃ a b c, text.toList.splitOn '.' = [a, b, c] := by
      match hs : text.toList.splitOn '.', hparts with
      | [a, b, c], _ => exact ⟨a, b, c, rfl⟩
    rw [hsplit] at hparts
    obtain ⟨rfl, rfl, rfl⟩ := by simpa using hparts
    have hjoin := @List.intercalate_splitOn _ text.toList _ _ '.'
    rw [hsplit] at hjoin
    apply String.toList_injective
    rw [← hjoin]
    simp [List.intercalate]

end Segments

/-! ## Blank texts -/

section Tokens

variable {Bytes : Type} {W : Wire Bytes} {K : KeyManager Bytes} {d : Deployment}
variable {customClaims : Option (Table String String)} {user : User} {familyId : String}
variable {token : AccessToken} {ttl : UInt64} {t : Instant}

/-- The claims that `build_access_token` stamps. -/
def stampedClaims (d : Deployment) (customClaims : Option (Table String String)) (t : Instant)
    (user : User) (familyId : String) : AccessTokenClaims :=
  { sub := user.id, iss := d.issuer, aud := d.audience, sid := familyId,
    iat := UInt64.ofInt t.timestamp, exp := UInt64.ofInt t.timestamp + d.accessTokenTtl,
    custom := resolveCustomClaims customClaims user }

/-- What `build_access_token` puts into a token. -/
structure Stamped (W : Wire Bytes) (K : KeyManager Bytes) (d : Deployment) (t : Instant)
    (user : User) (familyId : String) (token : AccessToken) : Prop where
  alg : token.alg = d.algorithm
  typ : token.typ = accessTokenTyp
  kid : token.kid = d.keyId
  sub : token.claims.sub = user.id
  iss : token.claims.iss = d.issuer
  aud : token.claims.aud = d.audience
  sid : token.claims.sid = familyId
  iat : token.claims.iat = UInt64.ofInt t.timestamp
  exp : token.claims.exp = UInt64.ofInt t.timestamp + d.accessTokenTtl
  custom : token.claims.custom = d.resolveCustomClaims user
  signed : ∃ signature, K.sign (W.asBytes (signingInput W token.header token.claims.payload)) =
    .ok signature ∧ token.signature = W.encode signature

/-- The signature segment is a signature over what is signed. -/
theorem sign_of_port {algorithm type keyId segment : String} {claims : AccessTokenClaims}
    (h : (Port.sign algorithm type keyId claims).run (mintPorts W K t) = .ok segment) :
    ∃ signature, K.sign (W.asBytes (signingInput W (AccessToken.header
        { alg := algorithm, typ := type, kid := keyId, claims := claims, signature := segment })
        claims.payload)) = .ok signature ∧ segment = W.encode signature := by
  obtain ⟨answer, hanswer, hsegment⟩ := Program.ok_of_run_bind h
  obtain rfl := Except.ok.inj hanswer
  simp only [mintPorts, signatureSegment] at hsegment
  generalize hsign : K.sign _ = signed at hsegment
  cases signed with
  | error e => exact absurd hsegment (by simp [Except.map])
  | ok signature => exact ⟨signature, hsign, by simpa [Except.map] using hsegment.symm⟩

theorem stamped_of_buildAccessToken
    (h : (buildAccessToken d user familyId).run (mintPorts W K t) = .ok (token, ttl)) :
    Stamped W K d t user familyId token := by
  unfold buildAccessToken at h
  obtain ⟨_, -, h⟩ := Program.ok_of_run_bind h
  obtain ⟨_, -, h⟩ := Program.ok_of_run_bind h
  obtain ⟨now, hnow, h⟩ := Program.ok_of_run_bind h
  obtain ⟨exp, hexp, h⟩ := Program.ok_of_run_bind h
  obtain ⟨segment, hsegment, h⟩ := Program.ok_of_run_bind h
  obtain rfl : t = now := Except.ok.inj hnow
  have hsum : exp = UInt64.ofInt t.timestamp + d.accessTokenTtl := by
    unfold addU64 at hexp
    split_ifs at hexp with hoverflow
    · exact absurd hexp (by simp)
    · simpa using hexp.symm
  obtain ⟨rfl, -⟩ : _ ∧ d.accessTokenTtl = ttl := by simpa using h
  exact ⟨rfl, rfl, rfl, rfl, rfl, rfl, rfl, rfl, hsum, rfl, sign_of_port hsegment⟩

/-- A user with an identifier gets a token for a family unless the expiry overflows or the
key manager fails. -/
theorem mintAccessToken_eq_ok (customClaims : Option (Table String String)) {signature : Bytes}
    (hfamily : isValidFamilyId familyId = true) (huser : user.id.isEmpty = false)
    (hfits : ¬ (d.overflowChecks = true ∧
      2 ^ 64 ≤ (UInt64.ofInt t.timestamp).toNat + d.accessTokenTtl.toNat))
    (hsign : K.sign (W.asBytes (signingInput W
      (AccessToken.header
        { alg := d.algorithm, typ := accessTokenTyp, kid := d.keyId,
          claims := stampedClaims d customClaims t user familyId, signature := "" })
      (stampedClaims d customClaims t user familyId).payload)) = .ok signature) :
    mintAccessToken W K d customClaims t user familyId =
      .ok ({ alg := d.algorithm, typ := accessTokenTyp, kid := d.keyId,
             claims := stampedClaims d customClaims t user familyId,
             signature := W.encode signature }, d.accessTokenTtl) := by
  unfold mintAccessToken buildAccessToken
  have hanswer : signatureSegment W K
      (AccessToken.header
        { alg := d.algorithm, typ := accessTokenTyp, kid := d.keyId,
          claims := stampedClaims d customClaims t user familyId, signature := "" })
      (stampedClaims d customClaims t user familyId).payload = .ok (W.encode signature) := by
    simp [signatureSegment, hsign, Except.map]
  simp only [Service.assert, hfamily, huser, Bool.or_true, Bool.not_false, if_true, addU64,
    Program.done_bind, Port.now, Program.ask_bind, Program.run_perform, Port.sign,
    Service.await]
  have hnow : mintPorts W K t Op.now = t := rfl
  rw [hnow, if_neg hfits]
  unfold stampedClaims at hanswer
  simp only [Program.done_bind, Program.perform_bind, Program.run_perform, mintPorts, hanswer]
  rfl

/-! ## Validating -/

/-- The parts of a token are written and read back: the texts carry their bytes, JSON gives
back the value, its numbers as the reader gives them, and a signature verifies. -/
structure Transports (W : Wire Bytes) (K : KeyManager Bytes) (number : ℤ → ℕ → ℤ × ℕ)
    (token : AccessToken) : Prop where
  header : W.fromSlice (W.toVec token.header) = some token.header
  payload : W.fromSlice (W.toVec token.claims.payload) = some (token.claims.payload.reread number)
  header_carried : W.Carries (W.toVec token.header)
  payload_carried : W.Carries (W.toVec token.claims.payload)
  signature_carried : ∀ signature,
    K.sign (W.asBytes (signingInput W token.header token.claims.payload)) = .ok signature →
      W.Carries signature
  verified : ∀ signature,
    K.sign (W.asBytes (signingInput W token.header token.claims.payload)) = .ok signature →
      K.verify (W.asBytes (signingInput W token.header token.claims.payload)) signature = .ok true

/-- What a validated token is known to be. -/
structure Accepted (W : Wire Bytes) (K : KeyManager Bytes) (d : Deployment) (now : Instant)
    (text : String) (claims : AccessTokenClaims) : Prop where
  signed : ∃ header payload segment signature, text = header ++ "." ++ payload ++ "." ++ segment ∧
    W.decode segment = some signature ∧
    K.verify (W.asBytes (header ++ "." ++ payload)) signature = .ok true
  iss : claims.iss = d.issuer
  aud : claims.aud = d.audience
  exp : now.timestamp.toNat ≤ saturatingAdd claims.exp.toNat clockSkewSecs
  iat : claims.iat.toNat ≤ saturatingAdd now.timestamp.toNat clockSkewSecs
  sub : isBlank claims.sub = false
  sid : isBlank claims.sid = false

variable {number : ℤ → ℕ → ℤ × ℕ} {now : Instant} {claims : AccessTokenClaims} {text : String}

theorem headerPins_header :
    headerPins token.header = some (token.alg, token.kid, token.typ) := by
  simp [AccessToken.header, headerPins, uniqueMember, Value.asStr]

/-- The header that was built is the one that is pinned. -/
theorem pin_header (hstamped : Stamped W K d t user familyId token) (halgorithm : d.algorithm ≠ "")
    (hkey : d.keyId ≠ "") (htransport : Transports W K number token) :
    pinAccessTokenHeader W d (W.toVec token.header) = .ok () := by
  unfold pinAccessTokenHeader
  rw [htransport.header, Option.bind_some, headerPins_header, hstamped.alg, hstamped.kid, hstamped.typ]
  simp [assertThat, require, readAs, halgorithm, hkey, bind, Except.bind]

/-- The issue time of a token is never beyond a later clock. -/
theorem iat_le_saturatingAdd (ht : 0 ≤ t) (hlater : t ≤ now) :
    (UInt64.ofInt t.timestamp).toNat ≤ saturatingAdd now.timestamp.toNat clockSkewSecs := by
  have hmono : t.timestamp ≤ now.timestamp := Int.ediv_le_ediv (by decide) hlater
  have hnonneg : 0 ≤ t.timestamp := Int.ediv_nonneg ht (by decide)
  have hbound := (UInt64.ofInt t.timestamp).toNat_lt
  have hiat : (UInt64.ofInt t.timestamp).toNat ≤ t.timestamp.toNat := by
    rw [UInt64.ofInt, UInt64.toNat_ofNat']
    omega
  unfold saturatingAdd maxU64
  omega

theorem checkClaims_eq_ok {payload : Value} {nowSecs : ℕ}
    (h : checkClaims d claims payload nowSecs = .ok ()) :
    claims.iss = d.issuer ∧ claims.aud = d.audience ∧
      nowSecs ≤ saturatingAdd claims.exp.toNat clockSkewSecs ∧
      claims.iat.toNat ≤ saturatingAdd nowSecs clockSkewSecs ∧
      isBlank claims.sub = false ∧ isBlank claims.sid = false := by
  obtain ⟨_, -, h⟩ := ok_of_bind h
  obtain ⟨_, hiss, h⟩ := ok_of_bind h
  obtain ⟨_, haud, h⟩ := ok_of_bind h
  obtain ⟨_, -, h⟩ := ok_of_bind h
  obtain ⟨_, hexp, h⟩ := ok_of_bind h
  obtain ⟨_, hiat, h⟩ := ok_of_bind h
  obtain ⟨_, -, h⟩ := ok_of_bind h
  obtain ⟨_, hsub, hsid⟩ := ok_of_bind h
  refine ⟨?_, ?_, ?_, ?_, ?_, ?_⟩
  · simpa using require_eq_ok.mp hiss
  · simpa using require_eq_ok.mp haud
  · simpa using require_eq_ok.mp hexp
  · simpa using require_eq_ok.mp hiat
  · simpa using require_eq_ok.mp hsub
  · simpa using require_eq_ok.mp hsid

theorem verifySegments_eq_ok {header payload segment : String}
    (h : verifySegments W K header payload segment = .ok ()) :
    ∃ signature, W.decode segment = some signature ∧
      K.verify (W.asBytes (header ++ "." ++ payload)) signature = .ok true := by
  obtain ⟨signature, hdecode, h⟩ := ok_of_bind h
  refine ⟨signature, readAs_eq_ok.mp hdecode, ?_⟩
  split at h
  case h_1 hverify =>
    rw [hverify, require_eq_ok.mp h]
  case h_2 => exact absurd h (by simp)
  case h_3 => exact absurd h (by simp)

/-- Whatever is accepted is signed and passes every check. -/
theorem accepted_of_validate (h : validateAccessToken W K d now text = .ok claims) :
    Accepted W K d now text claims := by
  obtain ⟨⟨header, payload, segment⟩, hsplit, h⟩ := ok_of_bind h
  obtain ⟨_, -, h⟩ := ok_of_bind h
  obtain ⟨_, -, h⟩ := ok_of_bind h
  obtain ⟨_, hverify, h⟩ := ok_of_bind h
  obtain ⟨_, -, h⟩ := ok_of_bind h
  obtain ⟨value, -, h⟩ := ok_of_bind h
  obtain ⟨read, -, h⟩ := ok_of_bind h
  obtain ⟨_, hcheck, h⟩ := ok_of_bind h
  obtain rfl : read = claims := by simpa using h
  obtain ⟨hiss, haud, hexp, hiat, hsub, hsid⟩ := checkClaims_eq_ok hcheck
  obtain ⟨signature, hdecode, hverified⟩ := verifySegments_eq_ok hverify
  have htext := join_of_splitJwsSegments (readAs_eq_ok.mp hsplit)
  exact ⟨⟨header, payload, segment, signature, htext, hdecode, hverified⟩, hiss, haud, hexp, hiat,
    hsub, hsid⟩

/-- The claims of a token as they are read back. -/
def AccessTokenClaims.readBack (claims : AccessTokenClaims) (number : ℤ → ℕ → ℤ × ℕ) :
    AccessTokenClaims :=
  { claims with custom := customMembers (claims.membersRead number) }

/-- The claims of a token pass the checks until it expires. -/
theorem checkClaims_stamped (hstamped : Stamped W K d t user familyId token) (ht : 0 ≤ t)
    (hid : isBlank user.id = false) (hfamily : isBlank familyId = false)
    (hissuer : d.issuer ≠ "") (hcustom : Unreserved token.claims.custom)
    (hlater : t ≤ now)
    (hexp : now.timestamp.toNat ≤ saturatingAdd token.claims.exp.toNat clockSkewSecs) :
    checkClaims d (token.claims.readBack number) (token.claims.payload.reread number)
      now.timestamp.toNat = .ok () := by
  have hiat := iat_le_saturatingAdd ht hlater
  unfold checkClaims AccessTokenClaims.readBack
  simp [assertThat, require, readAs, notBefore_payload hcustom, hstamped.iss, hstamped.aud,
    hstamped.sub, hstamped.sid, hstamped.iat, hissuer, hid, hfamily, hiat, hexp, bind, Except.bind]

/-- Of a token that was built, only the claims are left to be checked. -/
theorem validate_compact_eq (hstamped : Stamped W K d t user familyId token)
    (halgorithm : d.algorithm ≠ "") (hkey : d.keyId ≠ "")
    (htransport : Transports W K number token) (hcustom : Unreserved token.claims.custom) :
    validateAccessToken W K d now (token.compact W) =
      checkClaims d (token.claims.readBack number) (token.claims.payload.reread number)
        now.timestamp.toNat >>= fun _ => .ok (token.claims.readBack number) := by
  obtain ⟨signature, hsign, hsegment⟩ := hstamped.signed
  have hcarried := htransport.signature_carried signature hsign
  have hsplit : splitJwsSegments (token.compact W) =
      some (W.encode (W.toVec token.header), W.encode (W.toVec token.claims.payload),
        W.encode signature) := by
    rw [AccessToken.compact, signingInput, hsegment]
    exact splitJwsSegments_join htransport.header_carried.noDot htransport.payload_carried.noDot
      hcarried.noDot htransport.header_carried.nonempty htransport.payload_carried.nonempty
      hcarried.nonempty
  have hverify : verifySegments W K (W.encode (W.toVec token.header))
      (W.encode (W.toVec token.claims.payload)) (W.encode signature) = .ok () := by
    have := htransport.verified signature hsign
    unfold signingInput at this
    simp [verifySegments, hcarried.decode, readAs, this, require, bind, Except.bind]
  unfold validateAccessToken
  simp only [hsplit, readAs, htransport.header_carried.decode, htransport.payload_carried.decode,
    pin_header hstamped halgorithm hkey htransport, hverify, htransport.payload,
    ofValue_payload hcustom, bind, Except.bind]
  rfl

/-- A token that was built is accepted until it expires, and read back as it was built. -/
theorem validate_compact (hstamped : Stamped W K d t user familyId token) (ht : 0 ≤ t)
    (hid : isBlank user.id = false) (hfamily : isBlank familyId = false)
    (hissuer : d.issuer ≠ "") (halgorithm : d.algorithm ≠ "") (hkey : d.keyId ≠ "")
    (htransport : Transports W K number token) (hcustom : Unreserved token.claims.custom)
    (hlater : t ≤ now)
    (hexp : now.timestamp.toNat ≤ saturatingAdd token.claims.exp.toNat clockSkewSecs) :
    validateAccessToken W K d now (token.compact W) = .ok (token.claims.readBack number) := by
  rw [validate_compact_eq hstamped halgorithm hkey htransport hcustom,
    checkClaims_stamped hstamped ht hid hfamily hissuer hcustom hlater hexp]
  rfl

end Tokens

/-! ## One token -/

namespace TokenSample

open Sample

/-- A number of 17 digits, which the reader takes for its neighbour. -/
def score : ℤ × ℕ := (31245270191439438, 15)

def scoreRead : ℤ × ℕ := (3124527019143944, 14)

def readNumber (m : ℤ) (e : ℕ) : ℤ × ℕ := if (m, e) = score then scoreRead else (m, e)

def account (id : String) (claims : Table String Value) : User where
  id := id
  externalId := "alice"
  provider := "idp"
  email := none
  displayName := none
  metadata := ∅
  claims := claims
  status := .active
  version := 1
  createdAt := 0
  updatedAt := 0

/-- 2023-11-14T22:13:20Z -/
def issued : Instant := 1700000000000000000

def scored : User := account theUser ((∅ : Table String Value).insert "score" (.number score.1 score.2))

def claimsAt (sub : String) (iat exp : UInt64) (custom : Table String Value) : AccessTokenClaims :=
  { sub := sub, iss := "https://auth.example", aud := "api", sid := theFamily, iat := iat,
    exp := exp, custom := custom }

def headerValue : Value :=
  .object [("alg", .string "ES256"), ("kid", .string "key"), ("typ", .string accessTokenTyp)]

def headerText : String := "\x7b\"alg\":\"ES256\",\"kid\":\"key\",\"typ\":\"at+jwt\"\x7d"

def headerSegment : String := "eyJhbGciOiJFUzI1NiIsImtpZCI6ImtleSIsInR5cCI6ImF0K2p3dCJ9"

/-- A claim for every user: the provider's name. -/
def templates : Option (Table String String) :=
  some ((∅ : Table String String).insert "idp" "\x7b\x7b user.provider \x7d\x7d")

theorem noDot_append {a b : String} (ha : '.' ∉ a.toList) (hb : '.' ∉ b.toList) :
    '.' ∉ (a ++ b).toList := by
  rw [String.toList_append, List.mem_append]
  rintro (h | h)
  · exact ha h
  · exact hb h

/-- Claims with the texts that carry them. -/
structure Specimen : Type where
  claims : AccessTokenClaims
  text : String
  segment : String
  text_distinct : text ∉ [headerText, "sig"]
  segment_distinct : segment ∉ [headerSegment, "c2ln", ""]
  noDot : '.' ∉ segment.toList

namespace Specimen

variable (x : Specimen)

def token : AccessToken :=
  { alg := "ES256", typ := accessTokenTyp, kid := "key", claims := x.claims, signature := "c2ln" }

/-- The readers and writers on the header, the payload and the signature. -/
def wire : Wire String where
  asBytes := id
  toVec
    | .object [_, _, _] => headerText
    | _ => x.text
  fromSlice bytes :=
    if bytes = headerText then some headerValue
    else if bytes = x.text then some (x.claims.payload.reread readNumber)
    else none
  encode bytes :=
    if bytes = headerText then headerSegment
    else if bytes = x.text then x.segment
    else if bytes = "sig" then "c2ln"
    else ""
  decode s :=
    if s = headerSegment then some headerText
    else if s = x.segment then some x.text
    else if s = "c2ln" then some "sig"
    else none

/-- Signatures over what is signed of the token. -/
def keys : KeyManager String where
  sign _ := .ok "sig"
  verify input signature :=
    .ok (input == headerSegment ++ "." ++ x.segment && signature == "sig")

theorem text_ne : x.text ≠ headerText ∧ x.text ≠ "sig" := by
  simpa using x.text_distinct

theorem segment_ne : x.segment ≠ headerSegment ∧ x.segment ≠ "c2ln" ∧ x.segment ≠ "" := by
  simpa using x.segment_distinct

theorem wire_encode (bytes : String) : x.wire.encode bytes =
    if bytes = headerText then headerSegment
    else if bytes = x.text then x.segment
    else if bytes = "sig" then "c2ln"
    else "" := rfl

theorem wire_decode (s : String) : x.wire.decode s =
    if s = headerSegment then some headerText
    else if s = x.segment then some x.text
    else if s = "c2ln" then some "sig"
    else none := rfl

theorem wire_fromSlice (bytes : String) : x.wire.fromSlice bytes =
    if bytes = headerText then some headerValue
    else if bytes = x.text then some (x.claims.payload.reread readNumber)
    else none := rfl

theorem sig_ne : "sig" ≠ headerText ∧ "c2ln" ≠ headerSegment := by
  rw [headerText, headerSegment]
  decide

theorem encode_headerText : x.wire.encode headerText = headerSegment := by
  rw [x.wire_encode, if_pos rfl]

theorem encode_text : x.wire.encode x.text = x.segment := by
  rw [x.wire_encode, if_neg x.text_ne.1, if_pos rfl]

theorem encode_sig : x.wire.encode "sig" = "c2ln" := by
  rw [x.wire_encode, if_neg sig_ne.1, if_neg x.text_ne.2.symm, if_pos rfl]

theorem header_carried : x.wire.Carries headerText where
  decode := by
    rw [x.encode_headerText, x.wire_decode, if_pos rfl]
  noDot := by
    rw [x.encode_headerText]
    decide
  nonempty := by
    rw [x.encode_headerText]
    decide

theorem payload_carried : x.wire.Carries x.text where
  decode := by
    rw [x.encode_text, x.wire_decode, if_neg x.segment_ne.1, if_pos rfl]
  noDot := x.encode_text.symm ▸ x.noDot
  nonempty := x.encode_text.symm ▸ x.segment_ne.2.2

theorem signature_carried : x.wire.Carries "sig" where
  decode := by
    rw [x.encode_sig, x.wire_decode, if_neg sig_ne.2, if_neg x.segment_ne.2.1.symm, if_pos rfl]
  noDot := by
    rw [x.encode_sig]
    decide
  nonempty := by
    rw [x.encode_sig]
    decide

theorem transports (hpayload : x.wire.toVec x.claims.payload = x.text) :
    Transports x.wire x.keys readNumber x.token where
  header := by
    have : x.wire.fromSlice headerText = some headerValue := by
      rw [x.wire_fromSlice, if_pos rfl]
    exact this
  payload := by
    have : x.wire.fromSlice x.text = some (x.claims.payload.reread readNumber) := by
      rw [x.wire_fromSlice, if_neg x.text_ne.1, if_pos rfl]
    exact (congrArg x.wire.fromSlice hpayload).trans this
  header_carried := x.header_carried
  payload_carried := (congrArg x.wire.Carries hpayload).mpr x.payload_carried
  signature_carried := by
    intro signature hsign
    obtain rfl : "sig" = signature := Except.ok.inj hsign
    exact x.signature_carried
  verified := by
    intro signature hsign
    obtain rfl : "sig" = signature := Except.ok.inj hsign
    have hsegment : x.wire.encode (x.wire.toVec x.claims.payload) = x.segment := by
      rw [hpayload, x.encode_text]
    have hinput : signingInput x.wire x.token.header x.token.claims.payload =
        headerSegment ++ "." ++ x.segment :=
      congrArg₂ (fun h p : String => h ++ "." ++ p) x.encode_headerText hsegment
    rw [hinput]
    have hverified : (headerSegment ++ "." ++ x.segment == headerSegment ++ "." ++ x.segment &&
        "sig" == "sig") = true := by
      rw [beq_self_eq_true]
      rfl
    exact congrArg Except.ok hverified

end Specimen

def scoredToken : Specimen where
  claims := claimsAt theUser 1700000000 1700000900 (resolveCustomClaims templates scored)
  text :=
    "\x7b\"sub\":\"usr\",\"iss\":\"https://auth.example\",\"aud\":\"api\",\"sid\":\"fam_0" ++
      "0000000000000000000000000\",\"iat\":1700000000,\"exp\":1700000900,\"score\":31.24527" ++
      "0191439438,\"idp\":\"idp\"\x7d"
  segment :=
    "eyJzdWIiOiJ1c3IiLCJpc3MiOiJodHRwczovL2F1dGguZXhhbXBsZSIsImF1ZCI6ImFwaSIsInNpZCI6ImZh" ++
      "bV8wMDAwMDAwMDAwMDAwMDAwMDAwMDAwMDAwMCIsImlhdCI6MTcwMDAwMDAwMCwiZXhwIjoxNzAwMDAwOTAw" ++
      "LCJzY29yZSI6MzEuMjQ1MjcwMTkxNDM5NDM4LCJpZHAiOiJpZHAifQ"
  text_distinct := by decide +kernel
  segment_distinct := by decide +kernel
  noDot := noDot_append (noDot_append (by decide +kernel) (by decide +kernel)) (by decide +kernel)

/-- The key manager signs whatever `build_access_token` stamps. -/
theorem Specimen.mint_eq_ok (x : Specimen) {customClaims : Option (Table String String)}
    {t : Instant} {user : User}
    (hclaims : x.claims = stampedClaims (deployment true) customClaims t user theFamily)
    (huser : user.id.isEmpty = false)
    (hfits : (UInt64.ofInt t.timestamp).toNat + (deployment true).accessTokenTtl.toNat < 2 ^ 64) :
    mintAccessToken x.wire x.keys (deployment true) customClaims t user theFamily =
      .ok (x.token, 900) := by
  have hmint := @mintAccessToken_eq_ok _ x.wire x.keys (deployment true) user theFamily t customClaims
    _ (by decide) huser
    (by omega) rfl
  rw [x.encode_sig, ← hclaims] at hmint
  exact hmint

theorem scored_minted :
    mintAccessToken scoredToken.wire scoredToken.keys (deployment true) templates issued scored
      theFamily = .ok (scoredToken.token, 900) :=
  scoredToken.mint_eq_ok rfl (by decide) (by decide)

end TokenSample

open Sample TokenSample

end OidcExchange
