import OidcExchange.Analysis.StartUp
import OidcExchange.Analysis.TokenRoundTrip
import OidcExchange.Program.OperatorToken

/-!
# Access tokens and operator tokens

An operator's token names the audience of the internal API, which differs from the audience of
access tokens in every accepted configuration. An access token names its audience once, and the
map that the authenticator reads has the same value under that name; so no token is both.
-/

set_option autoImplicit false

namespace OidcExchange

open Storage

/-! ## Reading one member in two ways -/

/-- In the map the last member of a name stands. -/
theorem lookup_foldl_members (fields : List (String × Value)) (t : Table String Value)
    (name : String) :
    (fields.foldl (fun t f => t.insert f.1 f.2) t).lookup name =
      ((fields.filter fun f => f.1 == name).getLast?.map Prod.snd).or (t.lookup name) := by
  induction fields generalizing t with
  | nil => rfl
  | cons f fields ih =>
    rw [List.foldl_cons, ih]
    by_cases hname : f.1 = name
    · rw [List.filter_cons_of_pos (by simpa using hname), List.getLast?_cons, ← hname,
        AList.lookup_insert]
      cases (fields.filter fun g => g.1 == f.1).getLast? <;> rfl
    · rw [List.filter_cons_of_neg (by simpa using hname), AList.lookup_insert_ne (Ne.symm hname)]

/-- A member that occurs once is the one in the map. -/
theorem lookup_of_uniqueMember {fields : List (String × Value)} {name : String} {v : Value}
    (h : uniqueMember fields name = some v) : (objectMembers fields).lookup name = some v := by
  unfold uniqueMember at h
  split at h
  · rename_i f hone
    rw [objectMembers, lookup_foldl_members, hone]
    exact congrArg (Option.or · _) h
  · exact nomatch h

/-- The audience of typed claims stands in the map as a text. -/
theorem lookup_aud_of_ofValue {payload : Value} {claims : AccessTokenClaims}
    {members : Table String Value} (hclaims : AccessTokenClaims.ofValue payload = some claims)
    (hmembers : payload.asObject = some members) :
    members.lookup "aud" = some (.string claims.aud) := by
  cases payload with
  | object fields =>
    obtain rfl := Option.some.inj hmembers
    simp only [AccessTokenClaims.ofValue, Option.bind_eq_bind, Option.bind_eq_some_iff] at hclaims
    obtain ⟨_, -, _, -, _, -, _, -, value, hvalue, aud, haud, _, -, _, -, _, -, _, -, _, -, _, -, h⟩
      := hclaims
    obtain rfl := Option.some.inj h
    rw [lookup_of_uniqueMember hvalue]
    cases value with
    | string s => rw [Option.some.inj haud]
    | _ => cases haud
  | _ => cases hmembers

theorem audMatches_of_lookup {members : Table String Value} {aud audience : String}
    (h : members.lookup "aud" = some (.string aud)) :
    audMatches members audience = (aud == audience) := by
  unfold audMatches
  rw [h]

/-! ## What the two readers accept -/

section Readers

variable {Bytes : Type} {W : Wire Bytes} {K : KeyManager Bytes} {d : Deployment} {now : Instant}
  {text : String} {claims : AccessTokenClaims}

/-- A token is read as both kinds from the same parts. -/
theorem parts_of_splitJwsSegments {segments : String × String × String}
    (h : splitJwsSegments text = some segments) :
    OperatorTokenAuthenticator.parts text = some segments := by
  unfold splitJwsSegments at h
  unfold OperatorTokenAuthenticator.parts
  generalize (text.toList.splitOn '.').map String.ofList = parts at h ⊢
  match parts with
  | [header, payload, signature] =>
    by_cases hfull : header ≠ "" ∧ payload ≠ "" ∧ signature ≠ ""
    · exact (if_pos hfull).symm.trans h
    · exact nomatch (if_neg hfull).symm.trans h
  | [] => exact nomatch h
  | [_] => exact nomatch h
  | [_, _] => exact nomatch h
  | _ :: _ :: _ :: _ :: _ => exact nomatch h

/-- What a validated access token is read from. -/
theorem payload_of_validate (h : validateAccessToken W K d now text = .ok claims) :
    ∃ header payloadSeg signature bytes payload,
      splitJwsSegments text = some (header, payloadSeg, signature) ∧
      W.decode payloadSeg = some bytes ∧ W.fromSlice bytes = some payload ∧
      AccessTokenClaims.ofValue payload = some claims := by
  obtain ⟨⟨header, payloadSeg, signature⟩, hsplit, h⟩ := ok_of_bind h
  obtain ⟨_, -, h⟩ := ok_of_bind h
  obtain ⟨_, -, h⟩ := ok_of_bind h
  obtain ⟨_, -, h⟩ := ok_of_bind h
  obtain ⟨bytes, hbytes, h⟩ := ok_of_bind h
  obtain ⟨payload, hpayload, h⟩ := ok_of_bind h
  obtain ⟨read, hread, h⟩ := ok_of_bind h
  obtain ⟨_, -, h⟩ := ok_of_bind h
  obtain rfl := Except.ok.inj h
  exact ⟨header, payloadSeg, signature, bytes, payload, readAs_eq_ok.mp hsplit,
    readAs_eq_ok.mp hbytes, readAs_eq_ok.mp hpayload, readAs_eq_ok.mp hread⟩

theorem orInvalid_eq_ok {α : Type} {part : Option α} {x : α} :
    orInvalid part = .ok x ↔ part = some x := by
  cases part <;> simp [orInvalid]

theorem refuseUnless_eq_ok {condition : Bool} :
    refuseUnless condition = .ok () ↔ condition = true := by
  cases condition <;> simp [refuseUnless]

/-- An operator's token is read from its parts, and its claims are for the audience. -/
theorem audience_of_authenticate {a : OperatorTokenAuthenticator Bytes} {nowSecs : ℕ}
    {principal : OperatorPrincipal} (h : a.authenticate W nowSecs (some text) = .ok principal) :
    ∃ header payloadSeg signature bytes payload members,
      OperatorTokenAuthenticator.parts text = some (header, payloadSeg, signature) ∧
      W.decode payloadSeg = some bytes ∧ W.fromSlice bytes = some payload ∧
      payload.asObject = some members ∧ audMatches members a.audience = true := by
  obtain ⟨⟨alg, members⟩, hdecode, h⟩ := ok_of_bind h
  obtain ⟨_, -, h⟩ := ok_of_bind h
  obtain ⟨_, -, h⟩ := ok_of_bind h
  obtain ⟨_, -, h⟩ := ok_of_bind h
  obtain ⟨_, -, h⟩ := ok_of_bind h
  obtain ⟨_, -, h⟩ := ok_of_bind h
  obtain ⟨_, haudience, -⟩ := ok_of_bind h
  have hdecode := orInvalid_eq_ok.mp hdecode
  simp only [OperatorTokenAuthenticator.decode, Option.bind_eq_bind,
    Option.bind_eq_some_iff] at hdecode
  obtain ⟨⟨header, payloadSeg, signature⟩, hparts, _, -, _, -, _, -, _, -, _, -, bytes, hbytes,
    payload, hpayload, members', hmembers, _, -, heq⟩ := hdecode
  obtain ⟨-, rfl⟩ := Prod.mk.inj (Option.some.inj heq)
  exact ⟨header, payloadSeg, signature, bytes, payload, members', hparts, hbytes, hpayload,
    hmembers, refuseUnless_eq_ok.mp haudience⟩

/-- No token is accepted as both kinds, when the audiences differ. -/
theorem not_both_accepted {a : OperatorTokenAuthenticator Bytes} {nowSecs : ℕ}
    (hdiffers : d.audience ≠ a.audience)
    (haccess : validateAccessToken W K d now text = .ok claims) (principal : OperatorPrincipal) :
    a.authenticate W nowSecs (some text) ≠ .ok principal := by
  intro hoperator
  obtain ⟨header, payloadSeg, signature, bytes, payload, hsplit, hbytes, hpayload, hclaims⟩ :=
    payload_of_validate haccess
  obtain ⟨_, _, _, _, _, members, hparts, hbytes', hpayload', hmembers, haudience⟩ :=
    audience_of_authenticate hoperator
  obtain ⟨-, rfl, -⟩ : _ ∧ payloadSeg = _ ∧ _ := by
    simpa using (parts_of_splitJwsSegments hsplit).symm.trans hparts
  obtain rfl := Option.some.inj (hbytes.symm.trans hbytes')
  obtain rfl := Option.some.inj (hpayload.symm.trans hpayload')
  rw [audMatches_of_lookup (lookup_aud_of_ofValue hclaims hmembers),
    (accepted_of_validate haccess).aud] at haudience
  exact hdiffers (beq_iff_eq.mp haudience)

/-- The text of a token carries its payload: the segments have no dots in them, and the payload's
is read back, its numbers as the reader gives them. -/
structure Legible (W : Wire Bytes) (number : ℤ → ℕ → ℤ × ℕ) (token : AccessToken) : Prop where
  header : '.' ∉ (W.encode (W.toVec token.header)).toList
  payload : '.' ∉ (W.encode (W.toVec token.claims.payload)).toList
  signature : '.' ∉ token.signature.toList
  decoded : W.decode (W.encode (W.toVec token.claims.payload)) = some (W.toVec token.claims.payload)
  parsed : W.fromSlice (W.toVec token.claims.payload) = some (token.claims.payload.reread number)

/-- A token is cut where it was joined. -/
theorem parts_compact {number : ℤ → ℕ → ℤ × ℕ} {token : AccessToken}
    (h : Legible W number token) :
    OperatorTokenAuthenticator.parts (token.compact W) =
      some (W.encode (W.toVec token.header), W.encode (W.toVec token.claims.payload),
        token.signature) := by
  have htext : (token.compact W).toList = (W.encode (W.toVec token.header)).toList ++
      '.' :: ((W.encode (W.toVec token.claims.payload)).toList ++
        '.' :: token.signature.toList) := by
    simp [AccessToken.compact, signingInput]
  unfold OperatorTokenAuthenticator.parts
  rw [htext, List.splitOn_append_cons_self_of_not_mem h.header,
    List.splitOn_append_cons_self_of_not_mem h.payload, List.splitOn_eq_singleton h.signature]
  simp

/-- A token that was minted authenticates no operator, when the audiences differ. -/
theorem minted_not_authenticated {customClaims : Option (Table String String)} {user : User}
    {familyId : String} {token : AccessToken} {ttl : UInt64} {number : ℤ → ℕ → ℤ × ℕ}
    {a : OperatorTokenAuthenticator Bytes} {nowSecs : ℕ} (hdiffers : d.audience ≠ a.audience)
    (hminted : mintAccessToken W K d customClaims now user familyId = .ok (token, ttl))
    (hlegible : Legible W number token) (principal : OperatorPrincipal) :
    a.authenticate W nowSecs (some (token.compact W)) ≠ .ok principal := by
  intro hoperator
  have hstamped := stamped_of_buildAccessToken hminted
  have hcustom : Unreserved token.claims.custom := by
    rw [hstamped.custom]
    exact unreserved_resolveCustomClaims customClaims user
  obtain ⟨_, _, _, _, _, members, hparts, hbytes, hpayload, hmembers, haudience⟩ :=
    audience_of_authenticate hoperator
  obtain ⟨-, rfl, -⟩ : _ ∧ W.encode (W.toVec token.claims.payload) = _ ∧ _ := by
    simpa using (parts_compact hlegible).symm.trans hparts
  obtain rfl := Option.some.inj (hlegible.decoded.symm.trans hbytes)
  obtain rfl := Option.some.inj (hlegible.parsed.symm.trans hpayload)
  have hlookup := lookup_aud_of_ofValue (ofValue_payload hcustom) hmembers
  rw [audMatches_of_lookup hlookup] at haudience
  exact hdiffers (hstamped.aud.symm.trans (beq_iff_eq.mp haudience))

end Readers

/-! ## Configurations -/

section Configurations

variable {Bytes : Type} {tables : UnicodeTables} {isIpNet : String → Bool} {raw : RawConfig}
  {c : Config}

/-- An accepted configuration that serves operator tokens tells the two audiences apart. -/
theorem audiences_differ (hresolved : Config.resolve tables isIpNet raw = .ok c)
    (hserved : c.internalApiServed = true)
    (hmethod : .operatorToken ∈ c.internalApi.authMethods) :
    c.token.audience.text ≠ c.internalApi.tokenAudience := by
  obtain ⟨_, -, h⟩ := ok_of_bind (validate_of_resolve hresolved)
  obtain ⟨_, h, -⟩ := ok_of_bind h
  rw [if_pos hserved] at h
  obtain ⟨_, -, h⟩ := ok_of_bind h
  obtain ⟨_, -, h⟩ := ok_of_bind h
  obtain ⟨_, htoken, -⟩ := ok_of_bind h
  rw [if_pos (List.contains_iff_mem.mpr hmethod)] at htoken
  obtain ⟨-, -, htoken⟩ := ok_of_bind htoken
  obtain ⟨-, -, htoken⟩ := ok_of_bind htoken
  obtain ⟨-, -, htoken⟩ := ok_of_bind htoken
  obtain ⟨-, -, htoken⟩ := ok_of_bind htoken
  exact bne_iff_ne.mp (of_requireConfig htoken)

/-- Its authenticator is built, for the audience of the internal API. -/
theorem authenticator_of_resolve (hresolved : Config.resolve tables isIpNet raw = .ok c)
    (hserved : c.internalApiServed = true)
    (hmethod : .operatorToken ∈ c.internalApi.authMethods) (keys : KeyManager Bytes)
    (algorithm : String) : ∃ a, c.operatorTokenAuthenticator keys algorithm = .ok a ∧
      a.audience = c.internalApi.tokenAudience := by
  have hvalid := gateValid_of_resolve hresolved hserved
  unfold Config.operatorTokenAuthenticator OperatorTokenAuthenticator.new
  rw [HttpsUrl.nonBlank_text, hvalid.audience hmethod, hvalid.claim hmethod]
  exact ⟨_, rfl, rfl⟩

/-- **Access tokens and operator tokens never stand in for each other**: in an accepted
configuration that serves operator tokens, the authenticator that it builds refuses whatever is
accepted as an access token, at any two instants, and every token that was minted. -/
theorem tokens_never_stand_in (W : Wire Bytes) (K keys : KeyManager Bytes) (algorithm : String)
    (hresolved : Config.resolve tables isIpNet raw = .ok c)
    (hserved : c.internalApiServed = true)
    (hmethod : .operatorToken ∈ c.internalApi.authMethods) (d : Deployment)
    (haudience : d.audience = c.token.audience.text) :
    ∃ a, c.operatorTokenAuthenticator keys algorithm = .ok a ∧
      (∀ now nowSecs text claims principal, validateAccessToken W K d now text = .ok claims →
        a.authenticate W nowSecs (some text) ≠ .ok principal) ∧
      ∀ customClaims now user familyId token ttl number,
        mintAccessToken W K d customClaims now user familyId = .ok (token, ttl) →
        Legible W number token → ∀ nowSecs principal,
          a.authenticate W nowSecs (some (token.compact W)) ≠ .ok principal := by
  obtain ⟨a, hbuilt, ha⟩ := authenticator_of_resolve hresolved hserved hmethod keys algorithm
  have hdiffers : d.audience ≠ a.audience := by
    rw [haudience, ha]
    exact audiences_differ hresolved hserved hmethod
  refine ⟨a, hbuilt, ?_, ?_⟩
  · intro now nowSecs text claims principal haccess
    exact not_both_accepted hdiffers haccess principal
  · intro customClaims now user familyId token ttl number hminted hlegible nowSecs principal
    exact minted_not_authenticated hdiffers hminted hlegible principal

end Configurations

/-! ## A token of a configured service -/

namespace TokenSample

/-- A small configuration that serves operator tokens. -/
def rawOperatorConfig : RawConfig :=
  { rawConfigWith "30s" "1h" with
    server := ⟨"127.0.0.1", 8080, "https://auth.example", "admin", "30s", 2097152, none, [], 1⟩
    token := ⟨"15m", "30d", "api", none, true, "10s", "24h"⟩
    internalApi := ⟨true, "127.0.0.1", 8081, ["operator_token"], none, "internal", "role",
      "admin", none, 5, "1m", "5m", "60s"⟩ }

theorem scored_legible : Legible scoredToken.wire readNumber scoredToken.token where
  header := scoredToken.header_carried.noDot
  payload := scoredToken.payload_carried.noDot
  signature := by decide +kernel
  decoded := scoredToken.payload_carried.decode
  parsed := (scoredToken.transports rfl).payload

/-- The texts of an operator's token, each of which is its own segment; its audience is given
twice, and the last stands. -/
def operatorWire : Wire String where
  asBytes := id
  toVec _ := ""
  fromSlice
    | "header" => some (.object [("alg", .string "ES256")])
    | "claims" => some (.object [("iss", .string "https://auth.example"), ("aud", .string "api"),
        ("exp", .number 1700000900 0), ("role", .string "admin"), ("sub", .string "alice"),
        ("aud", .array [.string "backup", .string "internal"])])
    | _ => none
  encode := id
  decode := some

/-- A token that authenticates an operator until half a minute after it has expired. -/
example (a : OperatorTokenAuthenticator String)
    (h : OperatorTokenAuthenticator.new
      { sign := fun _ => .ok "", verify := fun _ _ => .ok true } "ES256" "https://auth.example"
      "internal" "role" "admin" = .ok a) :
    a.authenticate operatorWire 1700000929 (some "header.claims.signature") =
        .ok ⟨"alice", .operatorToken⟩ ∧
      a.authenticate operatorWire 1700000930 (some "header.claims.signature") =
        .error (.error .invalidCredential) := by
  obtain rfl := Except.ok.inj h
  exact ⟨by decide +kernel, by decide +kernel⟩

end TokenSample

open Sample TokenSample

/-- A token with a custom number and a configured claim is accepted as an access token, and
authenticates no operator. -/
theorem tokens_never_stand_in_scored : ∃ c a read,
    Config.resolve plainTables (fun _ => true) rawOperatorConfig = .ok c ∧
      c.operatorTokenAuthenticator scoredToken.keys "ES256" = .ok a ∧
      validateAccessToken scoredToken.wire scoredToken.keys (deployment true) issued
        (scoredToken.token.compact scoredToken.wire) = .ok read ∧
      ∀ nowSecs principal, a.authenticate scoredToken.wire nowSecs
        (some (scoredToken.token.compact scoredToken.wire)) ≠ .ok principal := by
  obtain ⟨c, hc, ⟨hserved, hmethod⟩, haudience⟩ : ∃ c,
      Config.resolve plainTables (fun _ => true) rawOperatorConfig = .ok c ∧
        (c.internalApiServed = true ∧ .operatorToken ∈ c.internalApi.authMethods) ∧
        (deployment true).audience = c.token.audience.text :=
    exists_ok_of_test (by decide +kernel)
  obtain ⟨a, hbuilt, -, hminted⟩ := tokens_never_stand_in scoredToken.wire scoredToken.keys
    scoredToken.keys "ES256" hc hserved hmethod (deployment true) haudience
  have hvalidate := @validate_compact _ _ _ _ _ _ _ _ _ issued (stamped_of_buildAccessToken scored_minted)
    (by decide) (by decide +kernel) (by decide +kernel) (by decide +kernel) (by decide +kernel)
    (by decide +kernel) (scoredToken.transports rfl)
    (unreserved_resolveCustomClaims templates scored) (Int.le_refl issued) (by decide +kernel)
  exact ⟨c, a, _, hc, hbuilt, hvalidate,
    hminted templates issued scored theFamily _ _ readNumber scored_minted scored_legible⟩

end OidcExchange
