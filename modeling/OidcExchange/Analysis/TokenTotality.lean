import OidcExchange.Analysis.DomainAllowlist
import OidcExchange.Analysis.KeyEligibility
import OidcExchange.Program.IdTokens

/-!
# When the check of an identity token panics

Two assertions stand on values that others choose: that a token names a key with a text that is
not empty, and that no entry of a document declares the empty algorithm. A validator panics where
one of them fails, and nowhere else.
-/

set_option autoImplicit false

namespace OidcExchange

open Interleaving Storage

variable {Key : Type} {decode : JwkDecoder Key} {admitted : List JwsAlgorithm}

/-! ## Documents -/

/-- The entries are read up to one that declares the empty algorithm: those before it have
distinct ids. -/
def StopsAt (decode : JwkDecoder Key) (admitted : List JwsAlgorithm) (entries : List Value) :
    Prop :=
  ∃ before entry after, entries = before ++ entry :: after ∧ EntryDeclaresEmpty entry ∧
    ((before.filterMap (keyOfEntry decode admitted)).map Jwks.VerificationKey.kid).Nodup

/-- The document is read up to an entry that declares the empty algorithm. -/
def StopsReading (decode : JwkDecoder Key) (admitted : List JwsAlgorithm) (jwks : Value) : Prop :=
  ∃ entries, VerificationKeySet.entriesOf jwks = some entries ∧ StopsAt decode admitted entries

/-- Entries are read up to one that declares the empty algorithm, where these keys are entered
already. -/
def StopsFrom (decode : JwkDecoder Key) (admitted : List JwsAlgorithm)
    (t : Table String (Jwks.VerificationKey Key)) (entries : List Value) : Prop :=
  ∃ before entry after, entries = before ++ entry :: after ∧ EntryDeclaresEmpty entry ∧
    ∃ t', indexFrom Jwks.VerificationKey.kid t
      (before.filterMap (keyOfEntry decode admitted)) = some t'

variable {t : Table String (Jwks.VerificationKey Key)} {first : Value} {rest : List Value}

theorem stopsFrom_empty {entries : List Value} :
    StopsFrom decode admitted ∅ entries ↔ StopsAt decode admitted entries := by
  simp only [StopsFrom, StopsAt, exists_index_iff]

theorem not_stopsFrom_nil : ¬StopsFrom decode admitted t [] := by
  rintro ⟨before, entry, after, hsplit, -⟩
  cases before <;> cases hsplit

theorem stopsFrom_of_declaresEmpty (h : EntryDeclaresEmpty first) :
    StopsFrom decode admitted t (first :: rest) :=
  ⟨[], first, rest, rfl, h, t, rfl⟩

/-- An entry that does not stop the reading is passed, and its key is entered. -/
theorem stopsFrom_cons (h : ¬EntryDeclaresEmpty first) :
    StopsFrom decode admitted t (first :: rest) ↔ ∃ before entry after,
      rest = before ++ entry :: after ∧ EntryDeclaresEmpty entry ∧
      ∃ t', indexFrom Jwks.VerificationKey.kid t
        ((first :: before).filterMap (keyOfEntry decode admitted)) = some t' := by
  constructor
  · rintro ⟨before, entry, after, hsplit, hempty, hindex⟩
    cases before with
    | nil =>
      cases hsplit
      exact absurd hempty h
    | cons other before =>
      cases hsplit
      exact ⟨before, entry, after, rfl, hempty, hindex⟩
  · rintro ⟨before, entry, after, rfl, hempty, hindex⟩
    exact ⟨first :: before, entry, after, rfl, hempty, hindex⟩

namespace VerificationKeySet

variable {tables : UnicodeTables} {provider : String} {keys : VerificationKeySet Key}
  {entries : List Value}

theorem addEntries_eq_panic : addEntries tables decode admitted provider keys entries =
    .error .panic ↔ StopsFrom decode admitted keys.byKid entries := by
  induction entries generalizing keys with
  | nil => exact ⟨fun h => (by cases h), fun h => absurd h not_stopsFrom_nil⟩
  | cons first rest ih =>
    cases hread : readEntry decode admitted first with
    | error fault =>
      obtain ⟨rfl, hempty⟩ := readEntry_eq_error.mp hread
      rw [addEntries_cons_error hread]
      exact ⟨fun _ => stopsFrom_of_declaresEmpty hempty, fun _ => rfl⟩
    | ok found =>
      have hkey : keyOfEntry decode admitted first = found := by rw [keyOfEntry, hread]
      have hsound : ¬EntryDeclaresEmpty first := by
        intro hempty
        rw [readEntry_eq_error.mpr ⟨rfl, hempty⟩] at hread
        cases hread
      rw [stopsFrom_cons hsound]
      cases found with
      | none =>
        rw [addEntries_cons_none hread, ih]
        simp only [List.filterMap_cons_none hkey]
        rfl
      | some key =>
        rw [addEntries_cons_some hread]
        simp only [List.filterMap_cons_some hkey, indexFrom]
        cases hlookup : keys.byKid.lookup key.kid with
        | some existing =>
          rw [addKey_of_taken hlookup]
          simp only [reduceCtorEq, exists_false, and_false, iff_false]
          rintro ⟨⟩
        | none =>
          rw [addKey_of_free hlookup]
          exact ih

/-- A document panics exactly if its reading is stopped. -/
theorem fromJwks_eq_panic {jwks : Value} (hadmitted : admitted ≠ []) :
    fromJwks tables decode admitted provider jwks = .error .panic ↔
      StopsReading decode admitted jwks := by
  rw [StopsReading]
  cases hentries : entriesOf jwks with
  | none =>
    rw [fromJwks_of_none hadmitted hentries]
    simp
  | some entries =>
    rw [fromJwks_of_entries hadmitted hentries, addEntries_eq_panic]
    simp only [Option.some.injEq, exists_eq_left']
    exact stopsFrom_empty

end VerificationKeySet

/-! ## The cache -/

/-- A call of the cache that does not panic and whose key has the id. -/
def Looked (kid : String) : Except (Fault Error) (Jwks.VerificationKey Key) → Prop
  | .ok key => key.kid = kid
  | .error fault => fault ≠ .panic

/-- A call that does not panic by itself. -/
abbrev Calm {Keys α : Type} (p : JwksCall Keys α) : Prop :=
  p.Ensures (fun _ => True) (fun _ _ => True) fun r => r ≠ .error .panic

theorem JwksCache.concludeRefill_calm {Keys : Type} (fetch : Fetch) (ans : Except Error Keys) :
    Calm (JwksCache.concludeRefill fetch ans) := by
  cases ans with
  | error e => exact ⟨trivial, fun _ _ => nofun⟩
  | ok keys => exact ⟨trivial, fun _ _ => ⟨trivial, fun _ _ => nofun⟩⟩

theorem JwksCache.refill_calm {Keys : Type} : Calm (JwksCache.refill : JwksCall Keys Keys) := by
  refine ⟨trivial, fun ans _ => ?_⟩
  cases ans with
  | inl keys => exact ⟨trivial, fun _ _ => nofun⟩
  | inr fetch => exact ⟨trivial, fun ans _ => JwksCache.concludeRefill_calm fetch ans⟩

theorem JwksCache.getKeys_calm {Keys : Type} : Calm (JwksCache.getKeys : JwksCall Keys Keys) := by
  refine ⟨trivial, fun fresh _ => ?_⟩
  cases fresh with
  | some keys => exact nofun
  | none =>
    refine ⟨trivial, fun acquired _ => ?_⟩
    cases acquired with
    | true => exact JwksCache.refill_calm
    | false =>
      refine ⟨trivial, fun stale _ => ?_⟩
      cases stale with
      | some keys => exact nofun
      | none => exact ⟨trivial, fun _ _ => JwksCache.refill_calm⟩

theorem JwksCache.refresh_calm {Keys : Type} : Calm (JwksCache.refresh : JwksCall Keys Unit) := by
  refine ⟨trivial, fun lately _ => ?_⟩
  cases lately with
  | true => exact nofun
  | false =>
    refine ⟨trivial, fun recorded _ => ?_⟩
    cases recorded with
    | none => exact nofun
    | some fetch =>
      refine ⟨trivial, fun ans _ => ?_⟩
      cases ans with
      | error e => exact nofun
      | ok keys => exact ⟨trivial, fun _ _ => nofun⟩

/-- A call that goes on after one that does not panic. -/
theorem Calm.looked {Keys α : Type} {p : JwksCall Keys α} (hp : Calm p) {kid : String}
    {f : α → JwksCall Keys (Jwks.VerificationKey Key)}
    (hf : ∀ a, (f a).Ensures (fun _ => True) (fun _ _ => True) (Looked kid)) :
    (p >>= f).Ensures (fun _ => True) (fun _ _ => True) (Looked kid) :=
  Program.Ensures.bind hp (fun a _ => hf a) fun _ herr heq => herr (congrArg Except.error heq)

theorem KeySource.getKeyAfterRefresh_looked (source : KeySource) (kid : String) :
    (JwksCache.getKeyAfterRefresh (source.config : JwksConfig (VerificationKeySet Key) _)
      kid).Ensures (fun _ => True) (fun _ _ => True) (Looked kid) := by
  refine JwksCache.refresh_calm.looked fun _ => JwksCache.getKeys_calm.looked fun keys => ?_
  cases hget : keys.byKid.lookup kid with
  | some key =>
    simp only [KeySource.config, hget]
    exact keys.keyed kid key hget
  | none =>
    simp only [KeySource.config, hget]
    exact nofun

/-- The key that is found has the id that was asked for. -/
theorem KeySource.getKey_looked (source : KeySource) {kid : String} (hkid : kid ≠ "") :
    (JwksCache.getKey (source.config : JwksConfig (VerificationKeySet Key) _) kid).Ensures
      (fun _ => True) (fun _ _ => True) (Looked kid) := by
  rw [JwksCache.getKey, decide_eq_true hkid]
  refine JwksCache.getKeys_calm.looked fun keys => ?_
  cases hget : keys.byKid.lookup kid with
  | some key =>
    simp only [KeySource.config, hget]
    exact keys.keyed kid key hget
  | none =>
    simp only [KeySource.config, hget]
    exact source.getKeyAfterRefresh_looked kid

/-! ## Validators -/

variable (decode) in
/-- A document was served whose reading is stopped. -/
def ServedStopping (source : KeySource)
    (past : List (Performed (ServedAns (VerificationKeySet Key)))) : Prop :=
  ∃ fetch jwks, ⟨.getJson fetch, .ok jwks⟩ ∈ past ∧ StopsReading decode source.admitted jwks

variable {tables : UnicodeTables} {source : KeySource}
  {past : List (Performed (ServedAns (VerificationKeySet Key)))}

theorem servedStopping_cache {o : JwksOp (VerificationKeySet Key)}
    (ans : JwksAns (VerificationKeySet Key) o) :
    ServedStopping decode source (⟨.cache o, ans⟩ :: past) ↔ ServedStopping decode source past := by
  simp [ServedStopping]

theorem servedStopping_error {fetch : Fetch} (e : Error) :
    ServedStopping decode source (⟨.getJson fetch, .error e⟩ :: past) ↔
      ServedStopping decode source past := by
  simp [ServedStopping]

theorem servedStopping_ok {fetch : Fetch} (jwks : Value) :
    ServedStopping decode source (⟨.getJson fetch, .ok jwks⟩ :: past) ↔
      StopsReading decode source.admitted jwks ∨ ServedStopping decode source past := by
  constructor
  · rintro ⟨fetch', jwks', hmem, hstops⟩
    obtain hnew | hold := List.mem_cons.mp hmem
    · cases hnew
      exact Or.inl hstops
    · exact Or.inr ⟨fetch', jwks', hold, hstops⟩
  · rintro (hstops | ⟨fetch', jwks', hmem, hstops⟩)
    · exact ⟨fetch, jwks, List.mem_cons_self, hstops⟩
    · exact ⟨fetch', jwks', List.mem_cons_of_mem _ hmem, hstops⟩

/-- An operation of the cache panics exactly if it is served a document that stops. -/
theorem KeySource.serveOp_keeps (hadmitted : source.admitted ≠ [])
    (o : JwksOp (VerificationKeySet Key)) (hpast : ¬ServedStopping decode source past) :
    (source.serveOp tables decode o).Obeys (fun _ _ => True)
      (Program.Keeps (fun past => ¬ServedStopping decode source past)
        fun past e => e = .panic ∧ ServedStopping decode source past) past := by
  have hcache (o : JwksOp (VerificationKeySet Key)) :
      (askCache o : ServedCall Key _).Obeys (fun _ _ => True)
        (Program.Keeps (fun past => ¬ServedStopping decode source past)
          fun past e => e = .panic ∧ ServedStopping decode source past) past :=
    ⟨trivial, fun ans => (servedStopping_cache ans).not.mpr hpast⟩
  cases o with
  | fetchKeys fetch =>
    refine ⟨trivial, fun served => ?_⟩
    cases served with
    | error e => exact (servedStopping_error e).not.mpr hpast
    | ok jwks =>
      have hkept : VerificationKeySet.fromJwks tables decode source.admitted source.jwksUri jwks ≠
          .error .panic → ¬ServedStopping decode source (⟨.getJson fetch, .ok jwks⟩ :: past) := by
        intro hread
        rw [servedStopping_ok, ← VerificationKeySet.fromJwks_eq_panic hadmitted]
        exact fun h => h.elim hread hpast
      change (orPanic (VerificationKeySet.fromJwks tables decode source.admitted source.jwksUri
        jwks)).Obeys _ _ _
      cases hread : VerificationKeySet.fromJwks tables decode source.admitted source.jwksUri
          jwks with
      | ok keys => exact hkept (hread ▸ nofun)
      | error fault =>
        cases fault with
        | error e => exact hkept (hread ▸ nofun)
        | panic =>
          rw [VerificationKeySet.fromJwks_eq_panic hadmitted] at hread
          exact ⟨rfl, (servedStopping_ok jwks).mpr (Or.inl hread)⟩
  | freshCached => exact hcache _
  | tryAcquire => exact hcache _
  | anyCached => exact hcache _
  | acquire => exact hcache _
  | recheck => exact hcache _
  | store fetch keys => exact hcache _
  | release => exact hcache _
  | forcedLately => exact hcache _
  | recordForced => exact hcache _

/-- A key is found under its id, unless the call fails; it panics exactly if a document was served
that stops. -/
theorem KeySource.getKey_obeys (hadmitted : source.admitted ≠ []) {kid : String}
    (hkid : kid ≠ "") : (source.getKey tables decode kid).Obeys (fun _ _ => True)
      (fun past result => result = .error .panic ∧ ServedStopping decode source past ∨
        Looked kid result ∧ ¬ServedStopping decode source past) [] := by
  refine Program.Obeys.expand (fun o past => source.serveOp_keeps hadmitted o) ?_ ?_
    (source.getKey_looked hkid) ?_
  · exact fun past result hpast hlooked => Or.inr ⟨hlooked, hpast⟩
  · rintro past e ⟨rfl, hstops⟩
    exact Or.inl ⟨rfl, hstops⟩
  · rintro ⟨_, _, hmem, -⟩
    cases hmem

/-- The token names a key with a text that is not empty, if it names one. -/
def NamesKey (lib : ProviderLibrary Key) (idToken : String) : Prop :=
  lib.decodeHeader idToken ≠ .ok (some "")

theorem not_servedStopping_nil : ¬ServedStopping decode source [] := by
  rintro ⟨_, _, hmem, -⟩
  cases hmem

/-- Once the key is found, nothing panics. -/
theorem TokenPolicy.check_ne_panic (lib : ProviderLibrary Key) (policy : TokenPolicy)
    {idToken kid : String} {key : Jwks.VerificationKey Key} (hkid : key.kid = kid) :
    policy.check lib idToken kid key ≠ .error .panic := by
  rw [TokenPolicy.check, beq_iff_eq.mpr hkid]
  change (lib.decode idToken key.decodingKey (policy.validation _)).mapError _ >>= _ ≠ _
  cases lib.decode idToken key.decodingKey (policy.validation (jwsAlgName key.algorithm)) with
  | error e => exact nofun
  | ok claims =>
    change (policy.identityClaims _ claims).mapError _ ≠ _
    cases policy.identityClaims (jwsAlgName key.algorithm) claims with
    | error e => exact nofun
    | ok identity => exact nofun

/-- A validator panics exactly if the token names a key with the empty text or a document is
served whose reading is stopped. -/
theorem TokenPolicy.validateIdToken_obeys (lib : ProviderLibrary Key) (policy : TokenPolicy)
    (hadmitted : policy.source.admitted ≠ []) (idToken : String) :
    (policy.validateIdToken tables decode lib idToken).Obeys (fun _ _ => True)
      (fun past result => result ≠ .error .panic ↔
        NamesKey lib idToken ∧ ¬ServedStopping decode policy.source past) [] := by
  have hnone : ¬ServedStopping decode policy.source [] := not_servedStopping_nil
  have hdone (names : NamesKey lib idToken) {e : Error} :
      (Except.error (.error e) : Except (Fault Error) IdentityClaims) ≠ .error .panic ↔
        NamesKey lib idToken ∧ ¬ServedStopping decode policy.source [] :=
    ⟨fun _ => ⟨names, hnone⟩, fun _ => nofun⟩
  rw [TokenPolicy.validateIdToken]
  cases hheader : lib.decodeHeader idToken with
  | error e => exact hdone (by rw [NamesKey, hheader]; exact nofun)
  | ok header =>
    cases header with
    | none => exact hdone (by rw [NamesKey, hheader]; exact nofun)
    | some kid =>
      by_cases hkid : kid = ""
      · subst hkid
        refine ⟨fun h => absurd rfl h, fun h => absurd hheader h.1⟩
      · have hnames : NamesKey lib idToken := by
          rw [NamesKey, hheader]
          exact fun h => hkid (Option.some.inj (Except.ok.inj h))
        refine (policy.source.getKey_obeys hadmitted hkid).bind ?_ ?_
        · rintro past key (⟨hpanic, -⟩ | ⟨hfound, hserved⟩)
          · cases hpanic
          · rw [Program.obeys_ofExcept]
            exact ⟨fun _ => ⟨hnames, hserved⟩, fun _ => policy.check_ne_panic lib hfound⟩
        · rintro past e (⟨hpanic, hserved⟩ | ⟨hlooked, hserved⟩)
          · exact ⟨fun h => absurd (congrArg _ (Except.error.inj hpanic)) h,
              fun h => absurd hserved h.2⟩
          · exact ⟨fun _ => ⟨hnames, hserved⟩, fun _ h => hlooked (Except.error.inj h)⟩

/-- **Validation is total but for two assertions**: whatever is served and cached, a validator
panics exactly if the token's header has an empty key id, or a document that is served declares
the empty algorithm in an entry that is read. -/
theorem id_token_validation_total_iff (tables : UnicodeTables) (decode : JwkDecoder Key)
    (lib : ProviderLibrary Key) (ttl : ℕ) (idToken : String) :
    (∀ provider : OidcProvider,
      ((provider.policy ttl).validateIdToken tables decode lib idToken).Obeys (fun _ _ => True)
        (fun past result => result ≠ .error .panic ↔
          NamesKey lib idToken ∧ ¬ServedStopping decode (provider.policy ttl).source past) []) ∧
    ∀ provider : AppleProvider,
      ((provider.policy ttl).validateIdToken tables decode lib idToken).Obeys (fun _ _ => True)
        (fun past result => result ≠ .error .panic ↔
          NamesKey lib idToken ∧ ¬ServedStopping decode (provider.policy ttl).source past) [] :=
  ⟨fun provider => (provider.policy ttl).validateIdToken_obeys lib (List.cons_ne_nil _ _) idToken,
    fun provider => (provider.policy ttl).validateIdToken_obeys lib (List.cons_ne_nil _ _) idToken⟩

/-- A library that reads this key id from every header. -/
def libraryNaming (kid : String) : ProviderLibrary Unit where
  urlParse _ := none
  getJson uri _ := .error (.providerError uri "")
  getKey uri _ := .error (.providerError uri "")
  decodeHeader _ := .ok (some kid)
  decode _ _ _ := .error "InvalidSignature"

/-- A document with an entry that declares the empty algorithm. -/
def emptyAlgorithm : Value :=
  .object [("keys", .array [.object [("kty", .string "RSA"), ("alg", .string "")]])]

/-- A cache that holds nothing, and a provider that serves the document. -/
def servingEmptyAlgorithm : (o : ServedOp (VerificationKeySet Unit)) →
    ServedAns (VerificationKeySet Unit) o
  | .cache .freshCached => none
  | .cache .tryAcquire => true
  | .cache .anyCached => none
  | .cache .acquire => ()
  | .cache .recheck => .inr ⟨0, 0, 0⟩
  | .cache (.fetchKeys _) => .error (.providerError "" "")
  | .cache (.store _ _) => 0
  | .cache .release => ()
  | .cache .forcedLately => false
  | .cache .recordForced => none
  | .getJson _ => .ok emptyAlgorithm

def applePolicy : TokenPolicy := AppleProvider.policy ⟨"client", "https://keys"⟩ 1

/-- An empty key id in a token, and an empty algorithm in a document, panic. -/
theorem id_token_validation_panics :
    (applePolicy.validateIdToken plainTables (fun _ => some ()) (libraryNaming "") "token").run
        servingEmptyAlgorithm = .error .panic ∧
      (applePolicy.validateIdToken plainTables (fun _ => some ()) (libraryNaming "k") "token").run
        servingEmptyAlgorithm = .error .panic := by
  constructor <;> rfl

end OidcExchange
