import OidcExchange.Analysis.DomainAllowlist
import OidcExchange.Program.VerificationKeys

/-!
# Which keys a document publishes

An entry is eligible if it keeps every rule; which rule comes first does not matter. Where no
entry declares the empty algorithm, a document becomes the set of the keys of its eligible
entries, wherever they stand, unless two have one id.
-/

set_option autoImplicit false

namespace OidcExchange

open Storage

variable {Key : Type} {decode : JwkDecoder Key} {admitted : List JwsAlgorithm}

/-! ## Eligible entries -/

/-- The types and curves of the keys that an algorithm is for. -/
def JwsAlgorithm.IsFor (kty : String) (crv : Option String) : JwsAlgorithm → Prop
  | .rs256 | .rs384 | .rs512 | .ps256 | .ps384 | .ps512 => kty = "RSA"
  | .es256 => kty = "EC" ∧ crv = some "P-256"
  | .es384 => kty = "EC" ∧ crv = some "P-384"
  | .edDsa => kty = "OKP" ∧ crv = some "Ed25519"
  | .hs256 | .hs384 | .hs512 => False

/-- The algorithm that is taken for a key that declares none. -/
inductive JwsAlgorithm.IsUsualFor : String → Option String → JwsAlgorithm → Prop
  | rsa (crv : Option String) : IsUsualFor "RSA" crv .rs256
  | p256 : IsUsualFor "EC" (some "P-256") .es256
  | p384 : IsUsualFor "EC" (some "P-384") .es384
  | ed25519 : IsUsualFor "OKP" (some "Ed25519") .edDsa

/-- The entry keeps every rule and is published as this key. -/
structure Eligible (decode : JwkDecoder Key) (admitted : List JwsAlgorithm)
    (jwk : Table String Value) (key : Jwks.VerificationKey Key) : Prop where
  purpose : jwk.lookup "use" = none ∨ jwk.lookup "use" = some (.string "sig")
  operations : jwk.lookup "key_ops" = none ∨
    ∃ ops, jwk.lookup "key_ops" = some (.array ops) ∧ .string "verify" ∈ ops
  algorithm : ∃ kty, jwk.lookup "kty" = some (.string kty) ∧ kty ≠ "oct" ∧
    (jwk.lookup "alg" = some (.string (jwsAlgName key.algorithm)) ∧
        key.algorithm.IsFor kty (strMember jwk "crv") ∨
      jwk.lookup "alg" = none ∧ JwsAlgorithm.IsUsualFor kty (strMember jwk "crv") key.algorithm)
  admitted : key.algorithm ∈ admitted
  kid : jwk.lookup "kid" = some (.string key.kid)
  material : decode jwk = some key.decodingKey

/-- The members that a rule reads have the type they should have, and no empty algorithm is
declared. -/
structure WellTyped (jwk : Table String Value) : Prop where
  purpose : ∀ value, jwk.lookup "use" = some value → ∃ text, value = .string text
  operations : ∀ value, jwk.lookup "key_ops" = some value → ∃ ops, value = .array ops
  algorithm : ∀ value, jwk.lookup "alg" = some value → ∃ text, value = .string text ∧ text ≠ ""

theorem strMember_eq_some {jwk : Table String Value} {name text : String} :
    strMember jwk name = some text ↔ jwk.lookup name = some (.string text) := by
  rw [strMember]
  cases jwk.lookup name with
  | none => simp
  | some value => cases value <;> simp [Value.asStr]

theorem asStr_eq_some {value : Value} {text : String} :
    value.asStr = some text ↔ value = .string text := by
  cases value <;> simp [Value.asStr]

theorem algorithmFromStr_eq_some {declared : String} {algorithm : JwsAlgorithm} :
    algorithmFromStr declared = some algorithm ↔ jwsAlgName algorithm = declared := by
  constructor
  · intro h
    rw [algorithmFromStr] at h
    have hname := List.find?_some h
    exact beq_iff_eq.mp hname
  · rintro rfl
    cases algorithm <;> rfl

theorem checkFamily_iff {algorithm : JwsAlgorithm} {kty : String} {crv : Option String} :
    checkFamily algorithm kty crv = true ↔ algorithm.IsFor kty crv := by
  cases algorithm <;> simp [checkFamily, JwsAlgorithm.IsFor]

theorem inferAlgorithm_eq_some {algorithm : JwsAlgorithm} {kty : String} {crv : Option String} :
    inferAlgorithm kty crv = some algorithm ↔ JwsAlgorithm.IsUsualFor kty crv algorithm := by
  constructor
  · intro h
    rw [inferAlgorithm] at h
    split_ifs at h with hrsa hp256 hp384 hed
    · cases h
      exact hrsa ▸ .rsa crv
    · cases h
      exact hp256.1 ▸ hp256.2 ▸ .p256
    · cases h
      exact hp384.1 ▸ hp384.2 ▸ .p384
    · cases h
      exact hed.1 ▸ hed.2 ▸ .ed25519
  · rintro (crv | _ | _ | _) <;> rfl

/-! ## The rules -/

variable {jwk : Table String Value} {key : Jwks.VerificationKey Key}

theorem useAdmits_iff (h : WellTyped jwk) : useAdmits jwk = true ↔
    jwk.lookup "use" = none ∨ jwk.lookup "use" = some (.string "sig") := by
  rw [useAdmits, strMember]
  cases huse : jwk.lookup "use" with
  | none => simp
  | some value =>
    obtain ⟨text, rfl⟩ := h.purpose value huse
    simp [Value.asStr]

theorem keyOpsAdmit_iff (h : WellTyped jwk) : keyOpsAdmit jwk = true ↔
    jwk.lookup "key_ops" = none ∨
      ∃ ops, jwk.lookup "key_ops" = some (.array ops) ∧ .string "verify" ∈ ops := by
  rw [keyOpsAdmit]
  cases hops : jwk.lookup "key_ops" with
  | none => simp
  | some value =>
    obtain ⟨ops, rfl⟩ := h.operations value hops
    simp [Value.asArray, asStr_eq_some]

theorem admitKey_eq_some {algorithm : JwsAlgorithm} :
    admitKey decode admitted jwk algorithm = some key ↔ key.algorithm = algorithm ∧
      algorithm ∈ admitted ∧ jwk.lookup "kid" = some (.string key.kid) ∧
      decode jwk = some key.decodingKey := by
  rw [admitKey, ← strMember_eq_some]
  constructor
  · intro h
    split at h
    · rename_i hadmitted
      obtain ⟨kid, hkid, h⟩ := Option.bind_eq_some_iff.mp h
      split at h
      · obtain ⟨material, hmaterial, h⟩ := Option.bind_eq_some_iff.mp h
        cases h
        exact ⟨rfl, hadmitted, hkid, hmaterial⟩
      · cases h
    · cases h
  · rintro ⟨rfl, hadmitted, hkid, hmaterial⟩
    rw [if_pos hadmitted, hkid]
    change (if named : key.kid ≠ "" then _ else _) = _
    rw [dif_pos key.named, hmaterial]
    rfl

theorem parseAlgorithm_of_ne {declared : String} (h : declared ≠ "") :
    parseAlgorithm declared = .ok (algorithmFromStr declared) := by
  have hdeclared : declared.isEmpty = false := by rwa [String.isEmpty_eq_false_iff]
  rw [parseAlgorithm, hdeclared]
  rfl

/-- The declared algorithm has to be known and for such keys; where none is declared, the usual
one is taken. -/
theorem candidateAlgorithm_eq_ok {kty : String} {crv : Option String} {algorithm : JwsAlgorithm}
    (h : WellTyped jwk) : candidateAlgorithm jwk kty crv = .ok (some algorithm) ↔
      jwk.lookup "alg" = some (.string (jwsAlgName algorithm)) ∧ algorithm.IsFor kty crv ∨
        jwk.lookup "alg" = none ∧ JwsAlgorithm.IsUsualFor kty crv algorithm := by
  rw [candidateAlgorithm, strMember]
  cases halg : jwk.lookup "alg" with
  | none => simp [inferAlgorithm_eq_some]
  | some value =>
    obtain ⟨text, rfl, htext⟩ := h.algorithm value halg
    have hname : text = jwsAlgName algorithm ↔ jwsAlgName algorithm = text := eq_comm
    simp only [Option.bind_some, Value.asStr, parseAlgorithm_of_ne htext]
    change Except.ok ((algorithmFromStr text).filter _) = _ ↔ _
    rw [Except.ok.injEq, Option.filter_eq_some_iff, algorithmFromStr_eq_some, checkFamily_iff]
    simp [hname]

theorem buildVerificationKey_eq_some : buildVerificationKey decode admitted jwk = .ok (some key) ↔
    useAdmits jwk = true ∧ keyOpsAdmit jwk = true ∧ ∃ kty, jwk.lookup "kty" = some (.string kty) ∧
      kty ≠ "oct" ∧ ∃ algorithm,
        candidateAlgorithm jwk kty (strMember jwk "crv") = .ok (some algorithm) ∧
        admitKey decode admitted jwk algorithm = some key := by
  rw [buildVerificationKey]
  constructor
  · intro h
    split_ifs at h with huse hops
    · cases h
    · cases h
    · cases hkty : strMember jwk "kty" with
      | none =>
        rw [hkty] at h
        cases h
      | some kty =>
        simp only [hkty] at h
        split at h
        · cases h
        · rename_i hoct
          obtain ⟨candidate, hcandidate, h⟩ := ok_of_bind h
          obtain ⟨algorithm, rfl, hkey⟩ := Option.bind_eq_some_iff.mp (Except.ok.inj h)
          rw [Bool.not_eq_true', Bool.not_eq_false] at huse hops
          exact ⟨huse, hops, kty, strMember_eq_some.mp hkty, hoct, algorithm, hcandidate, hkey⟩
  · rintro ⟨huse, hops, kty, hkty, hoct, algorithm, hcandidate, hkey⟩
    rw [huse, hops, strMember_eq_some.mpr hkty]
    simp only [Bool.not_true, Bool.false_eq_true, if_false, if_neg hoct, hcandidate]
    exact congrArg Except.ok hkey

theorem buildVerificationKey_eq_some_iff (h : WellTyped jwk) :
    buildVerificationKey decode admitted jwk = .ok (some key) ↔
      Eligible decode admitted jwk key := by
  rw [buildVerificationKey_eq_some, useAdmits_iff h, keyOpsAdmit_iff h]
  simp only [candidateAlgorithm_eq_ok h, admitKey_eq_some]
  constructor
  · rintro ⟨huse, hops, kty, hkty, hoct, _, halg, rfl, hadmitted, hkid, hmaterial⟩
    exact ⟨huse, hops, ⟨kty, hkty, hoct, halg⟩, hadmitted, hkid, hmaterial⟩
  · rintro ⟨huse, hops, ⟨kty, hkty, hoct, halg⟩, hadmitted, hkid, hmaterial⟩
    exact ⟨huse, hops, kty, hkty, hoct, _, halg, rfl, hadmitted, hkid, hmaterial⟩

/-- The rules are kept as far as an algorithm that is declared, but empty. -/
structure DeclaresEmpty (jwk : Table String Value) : Prop where
  purpose : useAdmits jwk = true
  operations : keyOpsAdmit jwk = true
  asymmetric : ∃ kty, jwk.lookup "kty" = some (.string kty) ∧ kty ≠ "oct"
  algorithm : jwk.lookup "alg" = some (.string "")

theorem WellTyped.not_declaresEmpty (h : WellTyped jwk) : ¬DeclaresEmpty jwk := by
  intro hempty
  obtain ⟨text, htext, hne⟩ := h.algorithm _ hempty.algorithm
  cases htext
  exact hne rfl

theorem candidateAlgorithm_eq_error {kty : String} {crv : Option String} {fault : Fault Error} :
    candidateAlgorithm jwk kty crv = .error fault ↔
      fault = .panic ∧ jwk.lookup "alg" = some (.string "") := by
  rw [candidateAlgorithm, ← strMember_eq_some]
  cases halg : strMember jwk "alg" with
  | none => simp
  | some declared =>
    by_cases hempty : declared = ""
    · subst hempty
      constructor
      · intro h
        cases h
        exact ⟨rfl, rfl⟩
      · rintro ⟨rfl, -⟩
        rfl
    · simp only [parseAlgorithm_of_ne hempty, Option.some.injEq, hempty, and_false, iff_false]
      exact nofun

/-- The only fault is the assertion on the declared algorithm. -/
theorem buildVerificationKey_eq_error {fault : Fault Error} :
    buildVerificationKey decode admitted jwk = .error fault ↔
      fault = .panic ∧ DeclaresEmpty jwk := by
  rw [buildVerificationKey]
  constructor
  · intro h
    split_ifs at h with huse hops
    cases hkty : strMember jwk "kty" with
    | none =>
      rw [hkty] at h
      cases h
    | some kty =>
      simp only [hkty] at h
      split at h
      · cases h
      · rename_i hoct
        rw [Bool.not_eq_true', Bool.not_eq_false] at huse hops
        cases hcandidate : candidateAlgorithm jwk kty (strMember jwk "crv") with
        | ok candidate =>
          rw [hcandidate] at h
          cases h
        | error fault' =>
          rw [hcandidate] at h
          cases h
          obtain ⟨rfl, halg⟩ := candidateAlgorithm_eq_error.mp hcandidate
          exact ⟨rfl, huse, hops, ⟨kty, strMember_eq_some.mp hkty, hoct⟩, halg⟩
  · rintro ⟨rfl, huse, hops, ⟨kty, hkty, hoct⟩, halg⟩
    rw [huse, hops, strMember_eq_some.mpr hkty]
    simp only [Bool.not_true, Bool.false_eq_true, if_false, if_neg hoct,
      candidateAlgorithm_eq_error.mpr ⟨rfl, halg⟩]
    rfl

/-! ## Entries -/

variable (decode admitted)

/-- The entry is published as this key. -/
def PublishedAs (entry : Value) (key : Jwks.VerificationKey Key) : Prop :=
  ∃ jwk, entry.asObject = some jwk ∧ Eligible decode admitted jwk key

/-- The key of an entry that becomes one. -/
def keyOfEntry (entry : Value) : Option (Jwks.VerificationKey Key) :=
  match readEntry decode admitted entry with
  | .ok key => key
  | .error _ => none

/-- The members of an entry that is an object are well typed. -/
def EntryTyped (entry : Value) : Prop := ∀ jwk, entry.asObject = some jwk → WellTyped jwk

/-- The entry stops the reading of its document. -/
def EntryDeclaresEmpty (entry : Value) : Prop :=
  ∃ jwk, entry.asObject = some jwk ∧ DeclaresEmpty jwk

variable {decode admitted} {entry : Value} {entries : List Value}

theorem readEntry_eq_error {fault : Fault Error} :
    readEntry decode admitted entry = .error fault ↔ fault = .panic ∧ EntryDeclaresEmpty entry := by
  rw [readEntry, EntryDeclaresEmpty]
  cases entry.asObject with
  | none => simp
  | some jwk => simp [buildVerificationKey_eq_error]

theorem readEntry_of_typed (h : EntryTyped entry) :
    readEntry decode admitted entry = .ok (keyOfEntry decode admitted entry) := by
  cases hread : readEntry decode admitted entry with
  | ok key => rw [keyOfEntry, hread]
  | error fault =>
    obtain ⟨-, jwk, hjwk, hempty⟩ := readEntry_eq_error.mp hread
    exact absurd hempty (h jwk hjwk).not_declaresEmpty

theorem keyOfEntry_eq_some (h : EntryTyped entry) :
    keyOfEntry decode admitted entry = some key ↔ PublishedAs decode admitted entry key := by
  have hread : readEntry decode admitted entry = .ok (keyOfEntry decode admitted entry) :=
    readEntry_of_typed h
  have hkey : keyOfEntry decode admitted entry = some key ↔
      readEntry decode admitted entry = .ok (some key) := by
    rw [hread, Except.ok.injEq]
  rw [hkey, readEntry, PublishedAs]
  cases hjwk : entry.asObject with
  | none => simp
  | some jwk => simp [buildVerificationKey_eq_some_iff (h jwk hjwk)]

/-! ## Documents -/

namespace VerificationKeySet

variable {tables : UnicodeTables} {provider : String} {keys : VerificationKeySet Key}

theorem addKey_of_free (h : keys.byKid.lookup key.kid = none) :
    keys.addKey tables provider key = .ok (keys.insert key) := by
  rw [addKey, h]

/-- The assertion on the key that is there already holds. -/
theorem addKey_of_taken {existing : Jwks.VerificationKey Key}
    (h : keys.byKid.lookup key.kid = some existing) :
    keys.addKey tables provider key = .error (.error (.providerError provider
      ("JWKS carries several eligible keys for kid " ++ tables.debug key.kid))) := by
  have hkid : (existing.kid == key.kid) = true := beq_iff_eq.mpr (keys.keyed _ _ h)
  rw [addKey, h]
  simp only [hkid]
  rfl

theorem addEntries_cons_none {rest : List Value}
    (h : readEntry decode admitted entry = .ok none) :
    addEntries tables decode admitted provider keys (entry :: rest) =
      addEntries tables decode admitted provider keys rest := by
  rw [addEntries, h]
  rfl

theorem addEntries_cons_some {rest : List Value}
    (h : readEntry decode admitted entry = .ok (some key)) :
    addEntries tables decode admitted provider keys (entry :: rest) =
      keys.addKey tables provider key >>= fun more =>
        addEntries tables decode admitted provider more rest := by
  rw [addEntries, h]
  rfl

theorem addEntries_cons_error {rest : List Value} {fault : Fault Error}
    (h : readEntry decode admitted entry = .error fault) :
    addEntries tables decode admitted provider keys (entry :: rest) = .error fault := by
  rw [addEntries, h]
  rfl

/-- Keys with distinct ids are all entered. -/
theorem addEntries_of_indexed (htyped : ∀ entry ∈ entries, EntryTyped entry)
    {t : Table String (Jwks.VerificationKey Key)}
    (h : indexFrom Jwks.VerificationKey.kid keys.byKid
      (entries.filterMap (keyOfEntry decode admitted)) = some t) :
    ∃ all, addEntries tables decode admitted provider keys entries = .ok all ∧
      all.byKid = t := by
  induction entries generalizing keys with
  | nil => exact ⟨keys, rfl, Option.some.inj h⟩
  | cons entry rest ih =>
    obtain ⟨hentry, hrest⟩ := List.forall_mem_cons.mp htyped
    have hread : readEntry decode admitted entry = .ok (keyOfEntry decode admitted entry) :=
      readEntry_of_typed hentry
    cases hkey : keyOfEntry decode admitted entry with
    | none =>
      rw [List.filterMap_cons_none hkey] at h
      rw [hkey] at hread
      rw [addEntries_cons_none hread]
      exact ih hrest h
    | some key =>
      rw [List.filterMap_cons_some hkey, indexFrom] at h
      rw [hkey] at hread
      rw [addEntries_cons_some hread]
      cases hlookup : keys.byKid.lookup key.kid with
      | some existing =>
        rw [hlookup] at h
        cases h
      | none =>
        rw [hlookup] at h
        rw [addKey_of_free hlookup]
        exact ih hrest h

/-- A key whose id is taken ends it. -/
theorem addEntries_of_ambiguous (htyped : ∀ entry ∈ entries, EntryTyped entry)
    (h : indexFrom Jwks.VerificationKey.kid keys.byKid
      (entries.filterMap (keyOfEntry decode admitted)) = none) :
    ∃ detail, addEntries tables decode admitted provider keys entries =
      .error (.error (.providerError provider detail)) := by
  induction entries generalizing keys with
  | nil => cases h
  | cons entry rest ih =>
    obtain ⟨hentry, hrest⟩ := List.forall_mem_cons.mp htyped
    have hread : readEntry decode admitted entry = .ok (keyOfEntry decode admitted entry) :=
      readEntry_of_typed hentry
    cases hkey : keyOfEntry decode admitted entry with
    | none =>
      rw [List.filterMap_cons_none hkey] at h
      rw [hkey] at hread
      rw [addEntries_cons_none hread]
      exact ih hrest h
    | some key =>
      rw [List.filterMap_cons_some hkey, indexFrom] at h
      rw [hkey] at hread
      rw [addEntries_cons_some hread]
      cases hlookup : keys.byKid.lookup key.kid with
      | some existing =>
        rw [addKey_of_taken hlookup]
        exact ⟨_, rfl⟩
      | none =>
        rw [hlookup] at h
        rw [addKey_of_free hlookup]
        exact ih hrest h

theorem fromJwks_of_entries {jwks : Value} (hadmitted : admitted ≠ [])
    (h : entriesOf jwks = some entries) : fromJwks tables decode admitted provider jwks =
      addEntries tables decode admitted provider empty entries := by
  cases admitted with
  | nil => exact absurd rfl hadmitted
  | cons first rest =>
    rw [fromJwks, h]
    rfl

theorem fromJwks_of_none {jwks : Value} (hadmitted : admitted ≠ [])
    (h : entriesOf jwks = none) : fromJwks tables decode admitted provider jwks =
      .error (.error (.providerError provider "JWKS response missing 'keys' array")) := by
  cases admitted with
  | nil => exact absurd rfl hadmitted
  | cons first rest =>
    rw [fromJwks, h]
    rfl

theorem get_eq_some {kid : String} :
    keys.get kid = .ok (some key) ↔ keys.byKid.lookup kid = some key := by
  rw [get]
  by_cases hkid : kid = ""
  · subst hkid
    constructor
    · intro h
      cases h
    · intro h
      exact absurd (keys.keyed _ _ h) key.named
  · have hnamed : kid.isEmpty = false := by rwa [String.isEmpty_eq_false_iff]
    rw [hnamed]
    exact Except.ok.injEq _ _ |>.to_iff

/-- Both are sets with the same keys, or both are errors. -/
def SameKeys : Except (Fault Error) (VerificationKeySet Key) →
    Except (Fault Error) (VerificationKeySet Key) → Prop
  | .ok keys, .ok keys' => ∀ kid, keys.get kid = keys'.get kid
  | .error (.error _), .error (.error _) => True
  | _, _ => False

end VerificationKeySet

/-- Two eligible entries, wherever they stand, have one id. -/
def AmbiguousKid (decode : JwkDecoder Key) (admitted : List JwsAlgorithm)
    (entries : List Value) : Prop :=
  ∃ entry entry' key key', [entry, entry'].Sublist entries ∧
    PublishedAs decode admitted entry key ∧ PublishedAs decode admitted entry' key' ∧
    key.kid = key'.kid

theorem ambiguousKid_iff (htyped : ∀ entry ∈ entries, EntryTyped entry) :
    AmbiguousKid decode admitted entries ↔
      ¬((entries.filterMap (keyOfEntry decode admitted)).map Jwks.VerificationKey.kid).Nodup := by
  rw [List.Nodup, List.pairwise_map, List.pairwise_filterMap, List.pairwise_iff_forall_sublist]
  constructor
  · rintro ⟨entry, entry', key, key', hsub, hkey, hkey', hkid⟩ hdistinct
    have hentry := htyped entry (hsub.subset List.mem_cons_self)
    have hentry' := htyped entry' (hsub.subset (List.mem_cons_of_mem _ List.mem_cons_self))
    exact hdistinct hsub key ((keyOfEntry_eq_some hentry).mpr hkey) key'
      ((keyOfEntry_eq_some hentry').mpr hkey') hkid
  · intro hdup
    push Not at hdup
    obtain ⟨entry, entry', hsub, key, hkey, key', hkey', hkid⟩ := hdup
    have hentry := htyped entry (hsub.subset List.mem_cons_self)
    have hentry' := htyped entry' (hsub.subset (List.mem_cons_of_mem _ List.mem_cons_self))
    exact ⟨entry, entry', key, key', hsub, (keyOfEntry_eq_some hentry).mp hkey,
      (keyOfEntry_eq_some hentry').mp hkey', hkid⟩

namespace VerificationKeySet

variable (tables : UnicodeTables) (provider : String) {jwks : Value}

/-- What the entries of a document are indexed as decides what the document becomes. -/
theorem fromJwks_cases (hadmitted : admitted ≠ []) (hentries : entriesOf jwks = some entries)
    (htyped : ∀ entry ∈ entries, EntryTyped entry) :
    (∃ keys, fromJwks tables decode admitted provider jwks = .ok keys ∧
        indexFrom Jwks.VerificationKey.kid ∅ (entries.filterMap (keyOfEntry decode admitted)) =
          some keys.byKid) ∨
      (∃ detail, fromJwks tables decode admitted provider jwks =
          .error (.error (.providerError provider detail))) ∧
        indexFrom Jwks.VerificationKey.kid ∅ (entries.filterMap (keyOfEntry decode admitted)) =
          none := by
  rw [fromJwks_of_entries hadmitted hentries]
  change _ ∨ _ ∧ indexFrom Jwks.VerificationKey.kid (empty : VerificationKeySet Key).byKid _ = none
  cases hindex : indexFrom Jwks.VerificationKey.kid (empty : VerificationKeySet Key).byKid
      (entries.filterMap (keyOfEntry decode admitted)) with
  | some t =>
    obtain ⟨keys, hok, rfl⟩ := addEntries_of_indexed htyped hindex
    exact Or.inl ⟨keys, hok, hindex⟩
  | none => exact Or.inr ⟨addEntries_of_ambiguous htyped hindex, rfl⟩

theorem mem_keysOf {keys : VerificationKeySet Key} (htyped : ∀ entry ∈ entries, EntryTyped entry)
    (hindex : indexFrom Jwks.VerificationKey.kid ∅
      (entries.filterMap (keyOfEntry decode admitted)) = some keys.byKid) (kid : String)
    (key : Jwks.VerificationKey Key) : keys.get kid = .ok (some key) ↔
      key.kid = kid ∧ ∃ entry ∈ entries, PublishedAs decode admitted entry key := by
  rw [get_eq_some, lookup_index hindex, List.mem_filterMap, and_comm]
  constructor
  · rintro ⟨hkid, entry, hentry, hkey⟩
    exact ⟨hkid, entry, hentry, (keyOfEntry_eq_some (htyped entry hentry)).mp hkey⟩
  · rintro ⟨hkid, entry, hentry, hkey⟩
    exact ⟨hkid, entry, hentry, (keyOfEntry_eq_some (htyped entry hentry)).mpr hkey⟩

theorem get_congr {keys keys' : VerificationKeySet Key}
    (h : ∀ kid, keys'.byKid.lookup kid = keys.byKid.lookup kid) (kid : String) :
    keys.get kid = keys'.get kid := by
  rw [get, get, h]

theorem sameKeys_of_perm {jwks' : Value} {entries' : List Value} (hadmitted : admitted ≠ [])
    (hentries : entriesOf jwks = some entries) (hentries' : entriesOf jwks' = some entries')
    (htyped : ∀ entry ∈ entries, EntryTyped entry) (hperm : entries.Perm entries') :
    SameKeys (fromJwks tables decode admitted provider jwks)
      (fromJwks tables decode admitted provider jwks') := by
  have htyped' : ∀ entry ∈ entries', EntryTyped entry := fun entry hentry =>
    htyped entry (hperm.mem_iff.mpr hentry)
  have hsame := hperm.filterMap (keyOfEntry decode admitted)
  obtain ⟨keys, hok, hindex⟩ | ⟨⟨detail, herror⟩, hindex⟩ :=
    fromJwks_cases tables provider hadmitted hentries htyped
  · obtain ⟨t, ht, hlookup⟩ := index_perm hsame hindex
    obtain ⟨keys', hok', hindex'⟩ | ⟨-, hnone⟩ :=
      fromJwks_cases tables provider hadmitted hentries' htyped'
    · rw [hindex'] at ht
      cases ht
      rw [hok, hok']
      exact get_congr hlookup
    · rw [hnone] at ht
      cases ht
  · obtain ⟨keys', -, hindex'⟩ | ⟨⟨detail', herror'⟩, -⟩ :=
      fromJwks_cases tables provider hadmitted hentries' htyped'
    · obtain ⟨t, ht, -⟩ := index_perm hsame.symm hindex'
      rw [hindex] at ht
      cases ht
    · rw [herror, herror']
      trivial

end VerificationKeySet

/-- **Eligibility is exact**: a document becomes the set of the keys of its eligible entries, in
any order, and it is an error if it has no entries or two eligible ones share an id. -/
theorem key_eligibility_exact (tables : UnicodeTables) (decode : JwkDecoder Key)
    (provider : String) {admitted : List JwsAlgorithm} (hadmitted : admitted ≠ []) {jwks : Value}
    (htyped : ∀ entries, VerificationKeySet.entriesOf jwks = some entries →
      ∀ entry ∈ entries, EntryTyped entry) :
    (∀ keys, VerificationKeySet.fromJwks tables decode admitted provider jwks = .ok keys →
      ∃ entries, VerificationKeySet.entriesOf jwks = some entries ∧
        ∀ kid key, keys.get kid = .ok (some key) ↔
          key.kid = kid ∧ ∃ entry ∈ entries, PublishedAs decode admitted entry key) ∧
    ((∃ e, VerificationKeySet.fromJwks tables decode admitted provider jwks =
        .error (.error e)) ↔
      VerificationKeySet.entriesOf jwks = none ∨
        ∃ entries, VerificationKeySet.entriesOf jwks = some entries ∧
          AmbiguousKid decode admitted entries) ∧
    VerificationKeySet.fromJwks tables decode admitted provider jwks ≠ .error .panic ∧
    ∀ jwks' entries entries', VerificationKeySet.entriesOf jwks = some entries →
      VerificationKeySet.entriesOf jwks' = some entries' → entries.Perm entries' →
      VerificationKeySet.SameKeys
        (VerificationKeySet.fromJwks tables decode admitted provider jwks)
        (VerificationKeySet.fromJwks tables decode admitted provider jwks') := by
  cases hentries : VerificationKeySet.entriesOf jwks with
  | none =>
    rw [VerificationKeySet.fromJwks_of_none hadmitted hentries]
    exact ⟨nofun, ⟨fun _ => Or.inl rfl, fun _ => ⟨_, rfl⟩⟩, nofun, nofun⟩
  | some entries =>
    have hlisted := htyped entries hentries
    have hreorder : ∀ jwks' listed listed', some entries = some listed →
        VerificationKeySet.entriesOf jwks' = some listed' → listed.Perm listed' →
        VerificationKeySet.SameKeys
          (VerificationKeySet.fromJwks tables decode admitted provider jwks)
          (VerificationKeySet.fromJwks tables decode admitted provider jwks') := by
      rintro jwks' _ listed' ⟨⟩ hentries' hperm
      exact VerificationKeySet.sameKeys_of_perm tables provider hadmitted hentries hentries'
        hlisted hperm
    obtain ⟨keys, hok, hindex⟩ | ⟨⟨detail, herror⟩, hindex⟩ :=
      VerificationKeySet.fromJwks_cases tables provider hadmitted hentries hlisted
    · have hclear : ¬AmbiguousKid decode admitted entries := by
        rw [ambiguousKid_iff hlisted, not_not]
        exact exists_index_iff.mp ⟨_, hindex⟩
      refine ⟨?_, ⟨?_, ?_⟩, ?_, hreorder⟩
      · intro keys' hkeys
        obtain rfl := Except.ok.inj (hok.symm.trans hkeys)
        exact ⟨entries, rfl, VerificationKeySet.mem_keysOf hlisted hindex⟩
      · rintro ⟨e, herror⟩
        rw [hok] at herror
        cases herror
      · rintro (hnone | ⟨_, ⟨⟩, hambiguous⟩)
        · cases hnone
        · exact absurd hambiguous hclear
      · rw [hok]
        exact nofun
    · have hambiguous : AmbiguousKid decode admitted entries := by
        rw [ambiguousKid_iff hlisted, ← exists_index_iff, hindex]
        exact nofun
      refine ⟨?_, ⟨?_, ?_⟩, ?_, hreorder⟩
      · intro keys hkeys
        rw [herror] at hkeys
        cases hkeys
      · exact fun _ => Or.inr ⟨entries, rfl, hambiguous⟩
      · exact fun _ => ⟨_, herror⟩
      · rw [herror]
        exact nofun

/-- A key for encryption and a key for signatures, under one id. -/
def sharedKid : Value :=
  .object [("keys", .array [
    .object [("kty", .string "RSA"), ("kid", .string "k"), ("use", .string "enc")],
    .object [("kty", .string "RSA"), ("kid", .string "k"), ("n", .string "AQAB")]])]

theorem sharedKid_typed (entries : List Value)
    (h : VerificationKeySet.entriesOf sharedKid = some entries) :
    ∀ entry ∈ entries, EntryTyped entry := by
  cases h
  intro entry hentry jwk hjwk
  simp only [List.mem_cons, List.not_mem_nil, or_false] at hentry
  obtain rfl | rfl := hentry
  · cases hjwk
    constructor <;> simp [objectMembers, -AList.insert_empty]
  · cases hjwk
    constructor <;> simp [objectMembers, -AList.insert_empty]

/-- The key for encryption does not stand in the way of the other. -/
theorem key_eligibility_exact_shared :
    VerificationKeySet.fromJwks plainTables (fun jwk => strMember jwk "n") [.rs256] "p" sharedKid ≠
      .error .panic :=
  (key_eligibility_exact plainTables (fun jwk => strMember jwk "n") "p" (List.cons_ne_nil _ _)
    sharedKid_typed).2.2.1

end OidcExchange
