import OidcExchange.Analysis.ErrorDetails

/-!
# Echoed credentials

A provider may echo what it was sent. A value echoed in a form does not show in the detail of the
error, whatever stands around it, exactly if it holds no ampersand; a value echoed as a string of
an object does not show exactly if its decoded text holds no quote, no ampersand and no sensitive
pair, and the name of the member is written without escapes.
-/

set_option autoImplicit false

namespace OidcExchange

open Texts

/-! ## Bodies -/

/-- The bytes that a form writes as they are. -/
def isUnreserved (b : UInt8) : Bool :=
  (0x41 ≤ b && b ≤ 0x5A) || (0x61 ≤ b && b ≤ 0x7A) || (0x30 ≤ b && b ≤ 0x39) || b = 0x2D ||
    b = 0x2E || b = 0x5F || b = 0x7E

/-- A value in a form: every byte other than unreserved ones is written as an escape. -/
def formEncode (value : List Char) : List Char :=
  (Percent.encode isUnreserved (utf8 value)).map fun b => Char.ofNat b.toNat

/-- A body in which a form with a sensitive value is echoed. -/
def formBody (pre key value post : List Char) : String :=
  String.ofList (pre ++ (assigned key ++ (formEncode value ++ post)))

/-- A pair may follow: the text is empty or ends with an ampersand or white space. -/
def PairMayFollow (pre : List Char) : Prop :=
  pre = [] ∨ ∃ start c, pre = start ++ [c] ∧ (c = '&' ∨ isWhiteSpace c = true)

/-! ## Seams -/

/-- What is used of the character before a pair. -/
structure Seam (c : Char) : Prop where
  outside : OpaqueChar c
  inNoPair : InNoPair c
  boundary : boundary (some c) = true
  notQuote : c ≠ '"' ∧ c ≠ '\\'
  notWord : Json.isWordChar c = false
  notEscape : c ≠ 'u' ∧ Json.escaped c = none
  notDigit : Json.hexDigit c = none

theorem seam {c : Char} (h : c = '&' ∨ isWhiteSpace c = true) : Seam c := by
  have hall : ∀ c ∈ '&' :: whiteSpaces, OpaqueChar c ∧ InNoPair c ∧ boundary (some c) = true ∧
      (c ≠ '"' ∧ c ≠ '\\') ∧ Json.isWordChar c = false ∧
      (c ≠ 'u' ∧ Json.escaped c = none) ∧ Json.hexDigit c = none := by
    decide
  have hmem : c ∈ '&' :: whiteSpaces := by
    obtain rfl | hwhite := h
    · exact List.mem_cons_self
    · exact List.mem_cons_of_mem _ (mem_whiteSpaces hwhite)
  obtain ⟨h1, h2, h3, h4, h5, h6, h7⟩ := hall c hmem
  exact ⟨h1, h2, h3, h4, h5, h6, h7⟩

theorem gapStep_seam {c : Char} (hc : Seam c) {r : List (Json.Token (List Char)) × Json.Mode}
    (h : Json.gapStep c = some r) : r.2 = .gap := by
  rw [Json.gapStep] at h
  split at h
  · cases h
    rfl
  · rw [if_neg hc.notQuote.1, hc.notWord] at h
    obtain ⟨token, -, rfl⟩ := Option.map_eq_some_iff.mp h
    rfl

/-- Before a pair a text is between tokens or within a string. -/
theorem lexStep_seam {c : Char} (hc : Seam c) {mode : Json.Mode}
    {r : List (Json.Token (List Char)) × Json.Mode} (h : Json.lexStep mode c = some r) :
    r.2 = .gap ∨ ∃ done, r.2 = .text (done ++ [c]) .plain := by
  match mode with
  | .gap => exact Or.inl (gapStep_seam hc h)
  | .word letters =>
    rw [Json.lexStep, hc.notWord] at h
    obtain ⟨r', hr', rfl⟩ := Option.map_eq_some_iff.mp h
    exact Or.inl (show r'.2 = .gap from gapStep_seam hc hr')
  | .text done .plain =>
    rw [Json.lexStep, Json.inText, if_neg hc.notQuote.1, if_neg hc.notQuote.2] at h
    split at h
    · cases h
    · rename_i hnone
      split at hnone <;> cases hnone
    · rename_i hsome
      split at hsome
      · cases hsome
      · cases hsome
        cases h
        exact Or.inr ⟨done, rfl⟩
  | .text done .backslash =>
    rw [Json.lexStep, Json.inText, if_neg hc.notEscape.1, hc.notEscape.2] at h
    cases h
  | .text done (.unit high digits) =>
    rw [Json.lexStep, Json.inText, hc.notDigit] at h
    cases h
  | .text done (.second high) =>
    rw [Json.lexStep, Json.inText, if_neg hc.notQuote.2] at h
    cases h
  | .text done (.secondUnit high) =>
    rw [Json.lexStep, Json.inText, if_neg hc.notEscape.1] at h
    cases h

/-! ## Values in a form -/

/-- The characters of a value in a form are plain, and so are those of a pair. -/
theorem plain_formEncode (value : List Char) : ∀ c ∈ formEncode value, Json.Plain c := by
  have hall : ∀ n : Fin 256, (isUnreserved (UInt8.ofFin n) = true ∨ UInt8.ofFin n = Percent.sign ∨
      UInt8.ofFin n ∈ bytes "0123456789ABCDEF") →
        Json.Plain (Char.ofNat (UInt8.ofFin n).toNat) := by
    decide +kernel
  intro c hc
  obtain ⟨b, hb, rfl⟩ := List.mem_map.mp hc
  exact hall b.toFin (Percent.mem_encode hb)

theorem utf8_formEncode (value : List Char) :
    utf8 (formEncode value) = Percent.encode isUnreserved (utf8 value) := by
  have hascii : ∀ n : Fin 256, (isUnreserved (UInt8.ofFin n) = true ∨
      UInt8.ofFin n = Percent.sign ∨ UInt8.ofFin n ∈ bytes "0123456789ABCDEF") →
        String.utf8EncodeChar (Char.ofNat (UInt8.ofFin n).toNat) = [UInt8.ofFin n] := by
    decide +kernel
  have hbytes : ∀ b ∈ Percent.encode isUnreserved (utf8 value),
      String.utf8EncodeChar (Char.ofNat b.toNat) = [b] :=
    fun b hb => hascii b.toFin (Percent.mem_encode hb)
  rw [formEncode, utf8, List.flatMap_map]
  generalize Percent.encode isUnreserved (utf8 value) = bs at hbytes
  induction bs with
  | nil => rfl
  | cons b bs ih =>
    rw [List.flatMap_cons, hbytes b List.mem_cons_self,
      ih fun b' hb' => hbytes b' (List.mem_cons_of_mem b hb'), List.singleton_append]

/-- Decoding gives an echoed value back. -/
theorem percentDecode_formEncode (value rest : List Char) :
    percentDecode (formEncode value ++ rest) = value ++ percentDecode rest := by
  rw [percentDecode, utf8_append, utf8_formEncode,
    Percent.decode_encode_append (by decide), Lossy.decode_utf8_append]
  rfl

/-- A key and its sign stand for themselves. -/
theorem assigned_plain : ∀ key ∈ sensitiveFormKeys,
    Percent.sign ∉ utf8 (assigned key) ∧ '&' ∉ assigned key ∧
      (∀ c ∈ assigned key, Json.Plain c) ∧ (Json.lex .gap (assigned key)).isNone = true := by
  decide

theorem percentDecode_pair {key : List Char} (hkey : key ∈ sensitiveFormKeys)
    (value post : List Char) :
    percentDecode (assigned key ++ (formEncode value ++ post)) =
      assigned key ++ (value ++ percentDecode post) := by
  rw [percentDecode_append_of_no_sign (assigned_plain key hkey).1, percentDecode_formEncode]

/-- A value without an ampersand does not show. -/
theorem maskFormPairs_pair {key : List Char} (hkey : key ∈ sensitiveFormKeys)
    {value value' : List Char} (h : '&' ∉ value) (h' : '&' ∉ value') (prev : Option Char)
    (hprev : boundary prev = true) (rest : List Char) :
    scanPairs prev (assigned key ++ (value ++ rest)) =
      scanPairs prev (assigned key ++ (value' ++ rest)) := by
  rw [scanPairs_assigned hkey hprev, scanPairs_assigned hkey hprev, nextPair_append h,
    nextPair_append h']

theorem redact_pair (lib : UpstreamLibrary) {pre key value value' : List Char}
    (hkey : key ∈ sensitiveFormKeys) (hpre : PairMayFollow pre) (h : '&' ∉ value)
    (h' : '&' ∉ value') (post : List Char) :
    redact lib (pre ++ (assigned key ++ (formEncode value ++ post))) =
      redact lib (pre ++ (assigned key ++ (formEncode value' ++ post))) := by
  have hmask : maskFormPairs (percentDecode (pre ++ (assigned key ++ (formEncode value ++ post)))) =
      maskFormPairs (percentDecode (pre ++ (assigned key ++ (formEncode value' ++ post)))) := by
    rw [maskFormPairs_eq, maskFormPairs_eq]
    obtain rfl | ⟨start, c, rfl, hc⟩ := hpre
    · rw [List.nil_append, List.nil_append, percentDecode_pair hkey, percentDecode_pair hkey]
      exact maskFormPairs_pair hkey h h' none rfl _
    · have hseam := seam hc
      have hdecode : ∀ v, percentDecode (start ++ [c] ++ (assigned key ++ (formEncode v ++ post))) =
          percentDecode start ++ c :: (assigned key ++ (v ++ percentDecode post)) := fun v => by
        rw [List.append_assoc, List.singleton_append, percentDecode_append_char hseam.outside,
          percentDecode_pair hkey]
      have hpair : '&' ∉ assigned key := (assigned_plain key hkey).2.1
      rw [hdecode, hdecode]
      obtain ⟨out, hout⟩ | ⟨-, out, hout⟩ :=
        scanPairs_split hseam.inNoPair none (percentDecode start)
      · rw [hout, hout, maskFormPairs_pair hkey h h' (some c) hseam.boundary]
      · rw [hout, hout, nextPair_append hpair, nextPair_append hpair, nextPair_append h,
          nextPair_append h']
  rw [redact, redact, hmask]

/-- A string with a pair is neither of the two names. -/
theorem markOf_pair (lib : UpstreamLibrary) {done key value value' : List Char} {c : Char}
    (hc : c = '&' ∨ isWhiteSpace c = true) (hkey : key ∈ sensitiveFormKeys) (h : '&' ∉ value)
    (h' : '&' ∉ value') (more : List Char) :
    markOf lib (done ++ [c] ++ (assigned key ++ formEncode value) ++ more) =
      markOf lib (done ++ [c] ++ (assigned key ++ formEncode value') ++ more) := by
  have hsign : ∀ v, '=' ∈ done ++ [c] ++ (assigned key ++ formEncode v) ++ more :=
    fun v => by simp [assigned]
  have hname : ∀ (v : List Char) (name : List Char), '=' ∉ name →
      (decide (done ++ [c] ++ (assigned key ++ formEncode v) ++ more = name)) = false :=
    fun v name hname => decide_eq_false fun heq => hname (heq ▸ hsign v)
  have hshown : excerptOf lib (done ++ [c] ++ (assigned key ++ formEncode value) ++ more) =
      excerptOf lib (done ++ [c] ++ (assigned key ++ formEncode value') ++ more) := by
    have hredact := redact_pair lib hkey (Or.inr ⟨done, c, rfl, hc⟩) h h' more
    rw [excerptOf, excerptOf]
    simp only [List.append_assoc] at hredact ⊢
    rw [hredact]
  rw [markOf, markOf, hshown, hname value _ (by decide), hname value' _ (by decide),
    hname value _ (by decide), hname value' _ (by decide)]

/-- Before a pair a text that is no document is refused, and any other is between tokens or within
a string. -/
theorem lex_seam {start : List Char} {c : Char} (hc : c = '&' ∨ isWhiteSpace c = true)
    {r : List (Json.Token (List Char)) × Json.Mode}
    (h : Json.lex .gap (start ++ [c]) = some r) :
    r.2 = .gap ∨ ∃ done, r.2 = .text (done ++ [c]) .plain := by
  rw [Json.lex_append] at h
  obtain ⟨before, -, hlast⟩ := Option.bind_eq_some_iff.mp h
  obtain ⟨after, hafter, rfl⟩ := Option.map_eq_some_iff.mp hlast
  rw [Json.lex] at hafter
  obtain ⟨step, hstep, hend⟩ := Option.bind_eq_some_iff.mp hafter
  rw [Json.lex, Option.map_some] at hend
  cases hend
  have hmode := lexStep_seam (seam hc) hstep
  exact hmode

/-- The tokens of a body with a pair differ in what does not count. -/
theorem tokens_pair (lib : UpstreamLibrary) {pre key value value' : List Char}
    (hkey : key ∈ sensitiveFormKeys) (hpre : PairMayFollow pre) (h : '&' ∉ value)
    (h' : '&' ∉ value') (post : List Char) :
    (Json.tokens .gap (pre ++ (assigned key ++ (formEncode value ++ post)))).map
        (List.map (Json.Token.map (markOf lib))) =
      (Json.tokens .gap (pre ++ (assigned key ++ (formEncode value' ++ post)))).map
        (List.map (Json.Token.map (markOf lib))) := by
  obtain ⟨-, -, hplain, hgap⟩ := assigned_plain key hkey
  -- Between tokens a pair is refused.
  have houtside : ∀ v, Json.tokens .gap (assigned key ++ (formEncode v ++ post)) = none :=
    fun v => by rw [Json.tokens_append, Option.isNone_iff_eq_none.mp hgap, Option.bind_none]
  obtain rfl | ⟨start, c, rfl, hc⟩ := hpre
  · rw [List.nil_append, List.nil_append, houtside, houtside]
  · rw [Json.tokens_append, Json.tokens_append]
    cases hlex : Json.lex .gap (start ++ [c]) with
    | none => rfl
    | some r =>
      simp only [Option.bind_some]
      obtain hmode | ⟨done, hmode⟩ := lex_seam hc hlex
      · rw [hmode, houtside, houtside]
      · have hinside : ∀ v, Json.tokens r.2 (assigned key ++ (formEncode v ++ post)) =
            Json.tokens (.text (done ++ [c] ++ (assigned key ++ formEncode v)) .plain) post :=
          fun v => by
            have hall : ∀ x ∈ assigned key ++ formEncode v, Json.Plain x := by
              intro x hx
              obtain hx | hx := List.mem_append.mp hx
              · exact hplain x hx
              · exact plain_formEncode v x hx
            rw [hmode, ← List.append_assoc, Json.tokens_append, Json.lex_plain hall]
            simp
        have hmark : ∀ more,
            markOf lib (done ++ [c] ++ (assigned key ++ formEncode value) ++ [] ++ more) =
              markOf lib (done ++ [c] ++ (assigned key ++ formEncode value') ++ [] ++ more) :=
          fun more => by
            rw [List.append_nil, List.append_nil]
            exact markOf_pair lib hc hkey h h' more
        have hsame := Json.tokens_text_map post [] .plain hmark
        rw [List.append_nil, List.append_nil] at hsame
        have hprepended : ∀ ts : Option (List (Json.Token (List Char))),
            (ts.map (r.1 ++ ·)).map (List.map (Json.Token.map (markOf lib))) =
              (ts.map (List.map (Json.Token.map (markOf lib)))).map
                (r.1.map (Json.Token.map (markOf lib)) ++ ·) := fun ts => by
          cases ts <;> simp
        rw [hinside, hinside, hprepended, hprepended, hsame]

theorem length_formBody (pre key value post : List Char) :
    (bytes (formBody pre key value post)).length =
      (utf8 pre).length + (utf8 (assigned key)).length + (formEncode value).length +
        (utf8 post).length := by
  rw [formBody, bytes_ofList, utf8_append, utf8_append, utf8_append, utf8_formEncode,
    formEncode, List.length_map]
  simp only [List.length_append]
  omega

/-- A value without an ampersand does not show in a detail. -/
theorem errorDetail_pair (lib : UpstreamLibrary) (hjson : ReadsJson lib.fromStr)
    (status : StatusCode) {pre key value value' : List Char} (hkey : key ∈ sensitiveFormKeys)
    (hpre : PairMayFollow pre) (h : '&' ∉ value) (h' : '&' ∉ value')
    (hlen : (formEncode value).length = (formEncode value').length) (post : List Char) :
    errorDetail lib status (formBody pre key value post) =
      errorDetail lib status (formBody pre key value' post) := by
  obtain ⟨number, hdetail⟩ := structuredErrorDetail_eq lib hjson
  have hstructured : structuredErrorDetail lib (formBody pre key value post) =
      structuredErrorDetail lib (formBody pre key value' post) := by
    rw [hdetail, hdetail, formBody, formBody, String.toList_ofList, String.toList_ofList,
      tokens_pair lib hkey hpre h h']
  have hredact := redact_pair lib hkey hpre h h' post
  have hexcerpt : excerptDetail lib status (formBody pre key value post) =
      excerptDetail lib status (formBody pre key value' post) := by
    rw [excerptDetail, excerptDetail, length_formBody, length_formBody, hlen, formBody, formBody,
      String.toList_ofList, String.toList_ofList, excerptOf, excerptOf, hredact]
  rw [errorDetail, errorDetail, hstructured, hexcerpt]

/-! ## Strings of an object -/

/-- The place of a member in a JSON text: after a brace or a comma outside any string. -/
structure MemberPlace : Type where
  before : List Char
  separator : Char
  gap : List Char
  beforeColon : List Char
  afterColon : List Char
  after : List Char
  separator_eq : separator = '{' ∨ separator = ','
  outside : ∃ ts, Json.lex .gap (before ++ [separator]) = some (ts, .gap)
  spaces : gap.all Json.isSpace = true ∧ beforeColon.all Json.isSpace = true ∧
    afterColon.all Json.isSpace = true

/-- White space, the name in quotes, white space, the colon and white space. -/
def MemberPlace.head (place : MemberPlace) (name : List Char) : List Char :=
  place.gap ++ (quoted name ++ (place.beforeColon ++ ':' :: place.afterColon))

/-- A body with a member at the place; the name and the string are as they are written between
the quotes. -/
def MemberPlace.body (place : MemberPlace) (name raw : List Char) : String :=
  String.ofList (place.before ++ place.separator ::
    (place.head name ++ '"' :: (raw ++ '"' :: place.after)))

/-- The string of a member is masked whole: decoded, it has no quote, no ampersand and no sensitive
pair. -/
structure MaskedWhole (raw : List Char) : Prop where
  no_quote : '"' ∉ percentDecode raw
  no_ampersand : '&' ∉ percentDecode raw
  no_pair : ∀ key ∈ sensitiveFormKeys, findFormPair (percentDecode raw) key = none

theorem isSpace_iff {c : Char} :
    Json.isSpace c = true ↔ c = ' ' ∨ c = '\t' ∨ c = '\n' ∨ c = '\r' := by
  simp only [Json.isSpace, Bool.or_eq_true, decide_eq_true_eq, or_assoc]

theorem isWhiteSpace_of_isSpace {c : Char} (h : Json.isSpace c = true) :
    isWhiteSpace c = true := by
  obtain rfl | rfl | rfl | rfl := isSpace_iff.mp h <;> decide

theorem all_isWhiteSpace {spaces : List Char} (h : spaces.all Json.isSpace = true) :
    spaces.all isWhiteSpace = true := by
  rw [List.all_eq_true] at h ⊢
  exact fun c hc => isWhiteSpace_of_isSpace (h c hc)

/-- What stands before the string of a member has no sign, no ampersand and no escape. -/
theorem MemberPlace.mem_head (place : MemberPlace) {key : List Char}
    (hkey : key ∈ sensitiveFormKeys) :
    ∀ c ∈ place.head key, c ≠ '=' ∧ c ≠ '&' ∧ Percent.sign ∉ String.utf8EncodeChar c := by
  have hspace : ∀ spaces : List Char, spaces.all Json.isSpace = true → ∀ c ∈ spaces,
      c ≠ '=' ∧ c ≠ '&' ∧ Percent.sign ∉ String.utf8EncodeChar c := by
    intro spaces hspaces c hc
    obtain rfl | rfl | rfl | rfl := isSpace_iff.mp (List.all_eq_true.mp hspaces c hc) <;>
      decide
  have hquoted : ∀ key ∈ sensitiveFormKeys, ∀ c ∈ ':' :: quoted key,
      c ≠ '=' ∧ c ≠ '&' ∧ Percent.sign ∉ String.utf8EncodeChar c := by
    decide
  obtain ⟨hgap, hbefore, hafter⟩ := place.spaces
  intro c hc
  simp only [MemberPlace.head, List.mem_append, List.mem_cons] at hc
  obtain hc | hc | hc | rfl | hc := hc
  · exact hspace _ hgap c hc
  · exact hquoted key hkey c (List.mem_cons_of_mem _ hc)
  · exact hspace _ hbefore c hc
  · exact hquoted key hkey ':' List.mem_cons_self
  · exact hspace _ hafter c hc

theorem MemberPlace.isGap (place : MemberPlace) :
    IsGap (place.beforeColon ++ ':' :: place.afterColon) :=
  ⟨place.beforeColon, place.afterColon, rfl, all_isWhiteSpace place.spaces.2.1,
    all_isWhiteSpace place.spaces.2.2⟩

/-- A separator is in no escape and in no pair. -/
theorem MemberPlace.separator_spec (place : MemberPlace) :
    OpaqueChar place.separator ∧ InNoPair place.separator := by
  obtain h | h := place.separator_eq <;> rw [h] <;> decide

theorem quote_spec : OpaqueChar '"' ∧ InNoPair '"' ∧ boundary (some '"') = true := by
  decide

/-- Decoding leaves the place of a member as it is. -/
theorem MemberPlace.percentDecode_body (place : MemberPlace) {key : List Char}
    (hkey : key ∈ sensitiveFormKeys) (raw : List Char) :
    percentDecode (place.body key raw).toList =
      percentDecode place.before ++ place.separator :: (place.head key ++ '"' ::
        (percentDecode raw ++ '"' :: percentDecode place.after)) := by
  have hsign : Percent.sign ∉ utf8 (place.head key) := by
    intro hmem
    obtain ⟨c, hc, hsign⟩ := List.mem_flatMap.mp hmem
    exact (place.mem_head hkey c hc).2.2 hsign
  have hquote : ∀ rest, percentDecode ('"' :: rest) = '"' :: percentDecode rest := fun rest =>
    percentDecode_append_char quote_spec.1 [] rest
  rw [MemberPlace.body, String.toList_ofList, percentDecode_append_char place.separator_spec.1,
    percentDecode_append_of_no_sign hsign, hquote, percentDecode_append_char quote_spec.1]

/-- Before a member whose string is masked whole the pass over pairs either copies the member or
passes it over. -/
theorem MemberPlace.scanPairs_body (place : MemberPlace) {key : List Char}
    (hkey : key ∈ sensitiveFormKeys) :
    (∃ out rest, ∀ raw, MaskedWhole raw →
      maskFormPairs (percentDecode (place.body key raw).toList) =
        out ++ place.separator :: (place.head key ++ '"' :: (percentDecode raw ++ '"' :: rest))) ∨
      ∃ out, ∀ raw, MaskedWhole raw →
        maskFormPairs (percentDecode (place.body key raw).toList) = out := by
  have hsign : '=' ∉ place.head key := fun h => (place.mem_head hkey _ h).1 rfl
  have hamp : '&' ∉ place.head key := fun h => (place.mem_head hkey _ h).2.1 rfl
  obtain ⟨out, hout⟩ | ⟨-, out, hout⟩ :=
    scanPairs_split place.separator_spec.2 none (percentDecode place.before)
  · refine Or.inl ⟨out, scanPairs (some '"') (percentDecode place.after), fun raw hraw => ?_⟩
    have hpairs : ∀ m, ∀ key ∈ sensitiveFormKeys,
        ¬PairAt (some '"') (percentDecode raw) m key := fun m key hkey hpair =>
      (findsFirst_findFormPair (percentDecode raw)).missed key hkey (hraw.no_pair key hkey) m
        (pairAt_of_boundary hpair)
    rw [maskFormPairs_eq, place.percentDecode_body hkey, hout,
      scanPairs_stretch quote_spec.2.1 fun m key' _ => not_pairAt_of_no_sign hsign _ m key',
      scanPairs_stretch quote_spec.2.1 hpairs]
  · refine Or.inr ⟨out ++ scanPairs none (nextPair (percentDecode place.after)),
      fun raw hraw => ?_⟩
    have hquote : ∀ rest, nextPair ('"' :: rest) = nextPair rest := fun rest =>
      @nextPair_append ['"'] (by decide) rest
    rw [maskFormPairs_eq, place.percentDecode_body hkey, hout, nextPair_append hamp, hquote,
      nextPair_append hraw.no_ampersand, hquote]

/-- A string that is masked whole does not show. -/
theorem MemberPlace.redact_body (lib : UpstreamLibrary) (place : MemberPlace)
    {key raw raw' : List Char} (hkey : key ∈ sensitiveFormKeys) (h : MaskedWhole raw)
    (h' : MaskedWhole raw') :
    redact lib (place.body key raw).toList = redact lib (place.body key raw').toList := by
  rw [redact, redact]
  obtain ⟨out, rest, hout⟩ | ⟨out, hout⟩ := place.scanPairs_body hkey
  · have hvisible : isWhiteSpace place.separator = false := by
      obtain hsep | hsep := place.separator_eq <;> rw [hsep] <;> decide
    have hmay : MemberMayFollow (out ++ place.separator :: place.gap) := by
      intro c hc
      rw [lastVisible_append,
        lastVisible_cons_white hvisible (all_isWhiteSpace place.spaces.1), Option.some_or] at hc
      cases hc
      exact place.separator_eq
    obtain ⟨before, hbefore⟩ := scanMembers_split hmay
    have hmask : ∀ raw, MaskedWhole raw →
        maskJsonValues (maskFormPairs (percentDecode (place.body key raw).toList)) =
          before ++ (quoted key ++ (place.beforeColon ++ ':' :: place.afterColon ++
            '"' :: redacted) ++ scanMembers ('"' :: rest)) := fun raw hraw => by
      have hshape : out ++ place.separator :: (place.head key ++ '"' ::
          (percentDecode raw ++ '"' :: rest)) =
            (out ++ place.separator :: place.gap) ++ (quoted key ++
              ((place.beforeColon ++ ':' :: place.afterColon) ++ '"' ::
                (percentDecode raw ++ '"' :: rest))) := by
        simp [MemberPlace.head]
      have hname : ∀ text, quoted key ++ text = '"' :: (key ++ ['"'] ++ text) := fun _ => rfl
      rw [maskJsonValues_eq, hout raw hraw, hshape, hname, hbefore, ← hname,
        scanMembers_member hkey place.isGap hraw.no_quote]
    rw [hmask raw h, hmask raw' h']
  · rw [hout raw h, hout raw' h']

/-- The tokens of a body with a member. -/
theorem MemberPlace.tokens_body (place : MemberPlace) {ts : List (Json.Token (List Char))}
    (hts : Json.lex .gap (place.before ++ [place.separator]) = some (ts, .gap))
    {name key raw value : List Char} (hname : Json.Literal name key)
    (hraw : Json.Literal raw value) :
    Json.tokens .gap (place.body name raw).toList =
      (Json.tokens .gap place.after).map fun us =>
        ts ++ .text key :: .colon :: .text value :: us := by
  obtain ⟨hgap, hbefore, hafter⟩ := place.spaces
  have hshape : (place.body name raw).toList =
      place.before ++ [place.separator] ++ (place.gap ++ '"' :: (name ++ '"' ::
        (place.beforeColon ++ ':' :: (place.afterColon ++ '"' ::
          (raw ++ '"' :: place.after))))) := by
    simp [MemberPlace.body, MemberPlace.head, quoted]
  rw [hshape, Json.tokens_append, hts, Option.bind_some, Json.tokens_spaces hgap,
    Json.tokens_literal hname, Json.tokens_spaces hbefore, Json.tokens_colon,
    Json.tokens_spaces hafter, Json.tokens_literal hraw]
  cases Json.tokens .gap place.after <;> rfl

theorem names_apart : ∀ key ∈ sensitiveFormKeys, key ≠ "error".toList ∧
    key ≠ "error_description".toList := by
  decide

/-- An error object is shown without the string of a sensitive member. -/
theorem structuredErrorDetail_member (lib : UpstreamLibrary) (hjson : ReadsJson lib.fromStr)
    (place : MemberPlace) {name key raw raw' value value' : List Char}
    (hname : Json.Literal name key) (hkey : key ∈ sensitiveFormKeys)
    (hraw : Json.Literal raw value) (hraw' : Json.Literal raw' value') :
    structuredErrorDetail lib (place.body name raw) =
      structuredErrorDetail lib (place.body name raw') := by
  obtain ⟨number, hdetail⟩ := structuredErrorDetail_eq lib hjson
  obtain ⟨ts, hts⟩ := place.outside
  have hmember : ∀ done v, (viewBuilder number).member done (markOf lib key) v = done :=
    viewBuilder_member number (decide_eq_false (names_apart key hkey).1)
      (decide_eq_false (names_apart key hkey).2)
  rw [hdetail, hdetail, place.tokens_body hts hname hraw, place.tokens_body hts hname hraw']
  cases Json.tokens .gap place.after with
  | none => rfl
  | some us =>
    simp only [Option.map_some, Option.bind_some, List.map_append, List.map_cons,
      Json.Token.map]
    rw [Json.read_member_eq recursionLimit _ _ fun done => (hmember done _).trans
      (hmember done _).symm]

theorem MemberPlace.length_body (place : MemberPlace) (name raw : List Char) :
    (bytes (place.body name raw)).length =
      (utf8 (place.before ++ place.separator :: (place.head name ++ ['"']))).length +
        (utf8 raw).length + (utf8 ('"' :: place.after)).length := by
  have hshape : place.before ++ place.separator :: (place.head name ++ '"' ::
      (raw ++ '"' :: place.after)) = place.before ++ place.separator ::
        (place.head name ++ ['"']) ++ (raw ++ '"' :: place.after) := by
    simp
  rw [MemberPlace.body, bytes_ofList, hshape, utf8_append, utf8_append raw, List.length_append,
    List.length_append, Nat.add_assoc]

/-- A string that is masked whole does not show in a detail. -/
theorem errorDetail_member (lib : UpstreamLibrary) (hjson : ReadsJson lib.fromStr)
    (status : StatusCode) (place : MemberPlace) {key raw raw' value value' : List Char}
    (hkey : key ∈ sensitiveFormKeys) (hraw : Json.Literal raw value)
    (hraw' : Json.Literal raw' value') (h : MaskedWhole raw) (h' : MaskedWhole raw')
    (hlen : (utf8 raw).length = (utf8 raw').length) :
    errorDetail lib status (place.body key raw) = errorDetail lib status (place.body key raw') := by
  have hplain : ∀ key ∈ sensitiveFormKeys, ∀ c ∈ key, Json.Plain c := by
    decide
  have hstructured := structuredErrorDetail_member lib hjson place
    (Json.literal_of_plain (hplain key hkey)) hkey hraw hraw'
  have hredact := place.redact_body lib hkey h h'
  have hexcerpt : excerptDetail lib status (place.body key raw) =
      excerptDetail lib status (place.body key raw') := by
    rw [excerptDetail, excerptDetail, place.length_body, place.length_body, hlen, excerptOf,
      excerptOf, hredact]
  rw [errorDetail, errorDetail, hstructured, hexcerpt]

end OidcExchange
