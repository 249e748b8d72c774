import OidcExchange.Analysis.EchoedCredentials

/-!
# Leaked credentials

A value that does not meet the conditions shows in some body: after an ampersand the rest of a
value of a form is shown, and so is what follows a quote in the string of a member, or precedes a
pair in it. A member whose name is written with escapes is not masked at all. The pass that masks
bare assertions splits at every character that can be in none.
-/

set_option autoImplicit false

namespace OidcExchange

open Texts

/-! ## Masked assertions -/

section RunMasking

variable (lib : UpstreamLibrary)

/-- The pass splits at a character that is in no assertion. -/
theorem maskRuns_append (run : Option (List Char)) (xs : List Char) {c : Char}
    (hc : inJwsCharset c = false) (rest : List Char) :
    maskRuns lib run (xs ++ c :: rest) = maskRuns lib run xs ++ c :: maskRuns lib none rest := by
  induction xs generalizing run with
  | nil => cases run <;> simp [maskRuns, hc]
  | cons x xs ih =>
    cases run with
    | none =>
      rw [List.cons_append, maskRuns, maskRuns, ih, ih]
      split <;> simp
    | some run =>
      rw [List.cons_append, maskRuns, maskRuns, ih, ih]
      split <;> simp

theorem pushJwsChecked_of_no_dot {candidate : List Char} (h : '.' ∉ candidate) :
    pushJwsChecked lib candidate = candidate := by
  have hparts : candidate.splitOn '.' = [candidate] := by
    apply List.splitOnP_eq_singleton
    intro x hx
    exact beq_false_of_ne fun heq => h (heq ▸ hx)
  rw [pushJwsChecked, hparts]
  simp

/-- A text without dots holds no assertion. -/
theorem maskRuns_of_no_dot (run : Option (List Char)) {xs : List Char}
    (hrun : '.' ∉ run.getD []) (h : '.' ∉ xs) : maskRuns lib run xs = run.getD [] ++ xs := by
  induction xs generalizing run with
  | nil =>
    cases run with
    | none => rfl
    | some run =>
      rw [Option.getD_some] at hrun ⊢
      rw [maskRuns, pushJwsChecked_of_no_dot lib hrun, List.append_nil]
  | cons x xs ih =>
    rw [List.mem_cons, not_or] at h
    have hmore : '.' ∉ (some (run.getD [] ++ [x])).getD [] := by
      rw [Option.getD_some, List.mem_append, List.mem_singleton, not_or]
      exact ⟨hrun, h.1⟩
    cases run with
    | none =>
      rw [maskRuns, ih _ hmore h.2, ih none (by simp) h.2]
      split <;> simp
    | some run =>
      rw [maskRuns, ih _ hmore h.2, ih none (by simp) h.2]
      split
      · simp
      · rw [Option.getD_some] at hrun ⊢
        rw [pushJwsChecked_of_no_dot lib hrun, Option.getD_none, List.nil_append]

/-- A candidate is kept or replaced whole. -/
theorem pushJwsChecked_eq (candidate : List Char) :
    pushJwsChecked lib candidate = candidate ∨ pushJwsChecked lib candidate = redacted := by
  have hite : ∀ condition : Bool, (if condition = true then redacted else candidate) = candidate ∨
      (if condition = true then redacted else candidate) = redacted := by
    intro condition
    cases condition
    · exact Or.inl rfl
    · exact Or.inr rfl
  rw [pushJwsChecked]
  simp only
  split
  · exact hite _
  · exact Or.inl rfl

/-- The pass keeps every character that is in no assertion. -/
theorem count_maskRuns {c : Char} (hc : inJwsCharset c = false) (hred : c ∉ redacted)
    (run : Option (List Char)) (xs : List Char) (hrun : c ∉ run.getD []) :
    (maskRuns lib run xs).count c = xs.count c := by
  have hpush : ∀ run : List Char, c ∉ run → (pushJwsChecked lib run).count c = 0 := by
    intro run hrun
    obtain h | h := pushJwsChecked_eq lib run <;> rw [h, List.count_eq_zero]
    · exact hrun
    · exact hred
  induction xs generalizing run with
  | nil =>
    cases run with
    | none => rfl
    | some run => rw [maskRuns, hpush run hrun, List.count_nil]
  | cons x xs ih =>
    by_cases hx : inJwsCharset x = true
    · have hne : c ≠ x := fun h => by rw [h, hx] at hc; cases hc
      have hmore : c ∉ (some (run.getD [] ++ [x])).getD [] := by
        rw [Option.getD_some, List.mem_append, List.mem_singleton, not_or]
        exact ⟨hrun, hne⟩
      have hstep : maskRuns lib run (x :: xs) = maskRuns lib (some (run.getD [] ++ [x])) xs := by
        cases run <;> rw [maskRuns, if_pos hx]
      rw [hstep, ih _ hmore, List.count_cons_of_ne hne.symm]
    · have hend : (maskRuns lib run []).count c = 0 := by
        cases run with
        | none => rfl
        | some run => rw [maskRuns, hpush run hrun]
      have hsplit := maskRuns_append lib run [] (Bool.eq_false_iff.mpr hx) xs
      rw [List.nil_append] at hsplit
      rw [hsplit, List.count_append, hend, Nat.zero_add, List.count_cons, List.count_cons,
        ih none (by simp)]

end RunMasking

/-! ## Excerpts -/

theorem redact_eq_ok {lib : UpstreamLibrary} {text out : List Char}
    (h : redact lib text = .ok out) :
    maskRuns lib none (maskJsonValues (maskFormPairs (percentDecode text))) = out := by
  rw [redact, maskCompactJws] at h
  obtain ⟨-, -, hout⟩ := ok_of_bind h
  exact Except.ok.inj hout

/-- What is masked without a dot is shown as it is. -/
theorem redact_of_no_dot (lib : UpstreamLibrary) {text masked : List Char}
    (hmasked : maskJsonValues (maskFormPairs (percentDecode text)) = masked)
    (h : '.' ∉ masked) : redact lib text = .ok masked := by
  rw [redact, hmasked, maskCompactJws, maskRuns_of_no_dot lib none (by simp) h]
  simp [assertThat]

theorem excerptDetail_of_redact {lib : UpstreamLibrary} (status : StatusCode) {raw : String}
    {out : List Char} (h : redact lib raw.toList = .ok out) :
    excerptDetail lib status raw = .ok ("HTTP " ++ lib.statusText status ++
      "; upstream returned " ++ toString (bytes raw).length ++ " bytes; excerpt: " ++
        String.ofList (out.take maxUpstreamExcerpt)) := by
  have hexcerpt : excerptOf lib raw.toList = .ok (out.take maxUpstreamExcerpt) := by
    rw [excerptOf, h]
    rfl
  have hbound : (assertThat ((out.take maxUpstreamExcerpt).length ≤ maxUpstreamExcerpt) :
      Except (Fault Empty) Unit) = .ok () := by
    rw [assertThat, if_pos (decide_eq_true (List.length_take_le _ _))]
  rw [excerptDetail, hexcerpt]
  simp only [bind, Except.bind, pure, Except.pure, hbound]

/-- The body is no error object. -/
def Unstructured (lib : UpstreamLibrary) (raw : String) : Prop :=
  structuredErrorDetail lib raw = none

theorem errorDetail_of_unstructured {lib : UpstreamLibrary} {status : StatusCode}
    (hstatus : status.isSuccess = false) {raw : String} (h : Unstructured lib raw) :
    errorDetail lib status raw = excerptDetail lib status raw := by
  have hstart : (assertThat !status.isSuccess : Except (Fault Empty) Unit) = .ok () := by
    rw [assertThat, hstatus]
    rfl
  rw [errorDetail, hstart, h]
  simp only [bind, Except.bind]

/-- Two bodies of one length with the same detail are masked alike, as far as the detail shows
them. -/
theorem redact_of_errorDetail_eq {lib : UpstreamLibrary} {status : StatusCode}
    (hstatus : status.isSuccess = false) {raw raw' : String} (h : Unstructured lib raw)
    (h' : Unstructured lib raw') (hlen : (bytes raw).length = (bytes raw').length)
    {out' : List Char} (hout' : redact lib raw'.toList = .ok out')
    (hshort : out'.length < maxUpstreamExcerpt)
    (heq : errorDetail lib status raw = errorDetail lib status raw') :
    redact lib raw.toList = .ok out' := by
  rw [errorDetail_of_unstructured hstatus h, errorDetail_of_unstructured hstatus h',
    excerptDetail_of_redact status hout'] at heq
  cases hout : redact lib raw.toList with
  | error e =>
    rw [excerptDetail, excerptOf, hout] at heq
    cases heq
  | ok out =>
    rw [excerptDetail_of_redact status hout, hlen] at heq
    have htexts := Except.ok.inj heq
    have htake : out.take maxUpstreamExcerpt = out' := by
      have hexcerpt := congrArg String.toList htexts
      simp only [String.toList_append, String.toList_ofList] at hexcerpt
      rw [List.append_cancel_left hexcerpt, List.take_of_length_le (Nat.le_of_lt hshort)]
    have hall : out.length ≤ maxUpstreamExcerpt := by
      by_contra hlong
      rw [← htake, List.length_take_of_le (Nat.le_of_not_le hlong)] at hshort
      exact Nat.lt_irrefl _ hshort
    rw [← htake, List.take_of_length_le hall]

/-! ## Values in a form -/

theorem unstructured_pair {lib : UpstreamLibrary} (hjson : ReadsJson lib.fromStr)
    {key : List Char} (hkey : key ∈ sensitiveFormKeys) (value post : List Char) :
    Unstructured lib (formBody [] key value post) := by
  obtain ⟨number, hdetail⟩ := structuredErrorDetail_eq lib hjson
  rw [Unstructured, hdetail, formBody, String.toList_ofList, List.nil_append, Json.tokens_append,
    Option.isNone_iff_eq_none.mp (assigned_plain key hkey).2.2.2]
  rfl

theorem redacted_spec : ∀ key ∈ sensitiveFormKeys, '.' ∉ assigned key ++ redacted ∧
    (assigned key ++ redacted).length < maxUpstreamExcerpt ∧ '"' ∉ assigned key ++ redacted := by
  decide

/-- What follows an ampersand in a value shows. -/
theorem masked_ampersand {key : List Char} (hkey : key ∈ sensitiveFormKeys) {value : List Char}
    (h : '&' ∈ value) : ∃ rest,
      maskJsonValues (maskFormPairs (percentDecode (assigned key ++ (formEncode value ++ [])))) =
        assigned key ++ redacted ++ '&' :: rest := by
  obtain ⟨before, after, rfl, hbefore⟩ := List.eq_append_cons_of_mem h
  have hdecode : percentDecode ([] : List Char) = [] := rfl
  have hquote := (redacted_spec key hkey).2.2
  refine ⟨scanMembers (scanPairs (some '&') after), ?_⟩
  rw [percentDecode_pair hkey, hdecode, List.append_nil, maskFormPairs_eq,
    scanPairs_assigned hkey rfl, nextPair_ampersand hbefore,
    scanPairs_cons_of_inNoPair (by decide), maskJsonValues_eq]
  apply scanMembers_stretch (by decide)
  intro m _ key' _ hpre
  have hmem : '"' ∈ (assigned key ++ redacted).drop m := hpre.subset (by simp [quoted])
  exact hquote (List.mem_of_mem_drop hmem)

theorem scanMembers_of_no_quote {xs : List Char} (h : '"' ∉ xs) (rest : List Char) :
    scanMembers (xs ++ rest) = xs ++ scanMembers rest := by
  induction xs with
  | nil => rfl
  | cons x xs ih =>
    rw [List.mem_cons, not_or] at h
    have hhere : memberKey (x :: (xs ++ rest)) = none := by
      rw [memberKey_eq_none_iff]
      intro key _ hpre
      rw [quoted, List.cons_append] at hpre
      exact h.1 (List.cons_prefix_cons.mp hpre).1
    rw [List.cons_append, scanMembers_of_none hhere, ih h.2, List.cons_append]

/-- A value without an ampersand is masked to the end. -/
theorem masked_value {key : List Char} (hkey : key ∈ sensitiveFormKeys) {value : List Char}
    (h : '&' ∉ value) :
    maskJsonValues (maskFormPairs (percentDecode (assigned key ++ (formEncode value ++ [])))) =
      assigned key ++ redacted := by
  have hdecode : percentDecode ([] : List Char) = [] := rfl
  have hscan := scanMembers_of_no_quote (redacted_spec key hkey).2.2 []
  rw [List.append_nil, scanMembers, List.append_nil] at hscan
  rw [percentDecode_pair hkey, hdecode, List.append_nil, maskFormPairs_eq,
    scanPairs_assigned hkey rfl, nextPair_eq_nil h, scanPairs, List.append_nil, maskJsonValues_eq,
    hscan]

/-- The detail is the same whichever of two values is echoed in a form. -/
def FormEchoHidden (lib : UpstreamLibrary) (value value' : List Char) : Prop :=
  ∀ status pre key post, status.isSuccess = false → key ∈ sensitiveFormKeys →
    PairMayFollow pre → (post = [] ∨ post.head? = some '&') →
      errorDetail lib status (formBody pre key value post) =
        errorDetail lib status (formBody pre key value' post)

/-- The status 400. -/
def badRequest : StatusCode := ⟨400, by decide⟩

/-- Against a value without an ampersand a value is hidden exactly if it has none either. -/
theorem formEchoHidden_iff (lib : UpstreamLibrary) (hjson : ReadsJson lib.fromStr)
    {value value' : List Char} (hlen : (formEncode value).length = (formEncode value').length)
    (h' : '&' ∉ value') : FormEchoHidden lib value value' ↔ '&' ∉ value := by
  constructor
  · intro hidden hmem
    have hkey : "code".toList ∈ sensitiveFormKeys := by decide
    have heq := hidden badRequest [] "code".toList [] rfl hkey (Or.inl rfl) (Or.inl rfl)
    have hmasked := masked_value hkey h'
    have hout' : redact lib (formBody [] "code".toList value' []).toList =
        .ok (assigned "code".toList ++ redacted) := by
      rw [formBody, String.toList_ofList]
      exact redact_of_no_dot lib hmasked (redacted_spec _ hkey).1
    have hbytes : (bytes (formBody [] "code".toList value [])).length =
        (bytes (formBody [] "code".toList value' [])).length := by
      rw [length_formBody, length_formBody, hlen]
    have hout := redact_of_errorDetail_eq rfl (unstructured_pair hjson hkey value [])
      (unstructured_pair hjson hkey value' []) hbytes hout' (redacted_spec _ hkey).2.1 heq
    rw [formBody, String.toList_ofList] at hout
    obtain ⟨rest, hrest⟩ := masked_ampersand hkey hmem
    have hruns := redact_eq_ok hout
    rw [List.nil_append, hrest, maskRuns_append lib none _ (by decide),
      maskRuns_of_no_dot lib none (by simp) (redacted_spec _ hkey).1] at hruns
    have hlonger := congrArg List.length hruns
    simp at hlonger
  · intro h status pre key post _ hkey hpre _
    exact errorDetail_pair lib hjson status hkey hpre h h' hlen post

/-! ## Strings of an object -/

/-- An object with one member. -/
def onlyMember : MemberPlace where
  before := []
  separator := '{'
  gap := []
  beforeColon := []
  afterColon := []
  after := ['}']
  separator_eq := Or.inl rfl
  outside := ⟨[.openObject], rfl⟩
  spaces := ⟨rfl, rfl, rfl⟩

/-- A member after another one, in the string of which a pair begins. -/
def afterNote : MemberPlace where
  before := "\x7b\"note\":\"token=x\"".toList
  separator := ','
  gap := []
  beforeColon := []
  afterColon := []
  after := ['}']
  separator_eq := Or.inr rfl
  outside := ⟨[.openObject, .text "note".toList, .colon, .text "token=x".toList, .comma], rfl⟩
  spaces := ⟨rfl, rfl, rfl⟩

/-- The body is a JSON object. -/
def IsObject (lib : UpstreamLibrary) (body : String) : Prop :=
  ∃ fields, lib.fromStr body = some (.object fields)

theorem unstructured_of_object {lib : UpstreamLibrary} {raw : String}
    {fields : List (String × Value)} (h : lib.fromStr raw = some (.object fields))
    (herror : fields.lookup "error" = none) : Unstructured lib raw := by
  rw [Unstructured, structuredErrorDetail, h]
  simp only [Option.bind_eq_bind, Option.bind_some, Value.textField, Value.field, herror,
    Option.bind_none]

/-- An object with one member whose name is sensitive is no error object. -/
theorem onlyMember_reads {lib : UpstreamLibrary} (hjson : ReadsJson lib.fromStr)
    {name key raw value : List Char} (hname : Json.Literal name key)
    (hkey : key ∈ sensitiveFormKeys) (hraw : Json.Literal raw value) :
    IsObject lib (onlyMember.body name raw) ∧ Unstructured lib (onlyMember.body name raw) := by
  obtain ⟨number, hread⟩ := hjson
  have hlex : Json.lex .gap (onlyMember.before ++ [onlyMember.separator]) =
      some ([.openObject], .gap) := rfl
  have hafter : Json.tokens .gap onlyMember.after = some [.closeObject] := rfl
  have hobject : lib.fromStr (onlyMember.body name raw) =
      some (.object [(String.ofList key, .string (String.ofList value))]) := by
    rw [hread, Json.parse, onlyMember.tokens_body hlex hname hraw, hafter]
    rfl
  have herror : "error" ≠ String.ofList key := fun h =>
    (names_apart key hkey).1 (by rw [h, String.toList_ofList])
  refine ⟨⟨_, hobject⟩, unstructured_of_object hobject ?_⟩
  rw [List.lookup_cons, beq_false_of_ne herror, List.lookup_nil]

theorem afterNote_reads {lib : UpstreamLibrary} (hjson : ReadsJson lib.fromStr)
    {name key raw value : List Char} (hname : Json.Literal name key)
    (hkey : key ∈ sensitiveFormKeys) (hraw : Json.Literal raw value) :
    IsObject lib (afterNote.body name raw) ∧ Unstructured lib (afterNote.body name raw) := by
  obtain ⟨number, hread⟩ := hjson
  have hlex : Json.lex .gap (afterNote.before ++ [afterNote.separator]) =
      some ([.openObject, .text "note".toList, .colon, .text "token=x".toList, .comma], .gap) := rfl
  have hafter : Json.tokens .gap afterNote.after = some [.closeObject] := rfl
  have hobject : lib.fromStr (afterNote.body name raw) =
      some (.object (insertMember [("note", .string "token=x")] key
        (.string (String.ofList value)))) := by
    rw [hread, Json.parse, afterNote.tokens_body hlex hname hraw, hafter]
    rfl
  have herror : "error" ≠ String.ofList key := fun h =>
    (names_apart key hkey).1 (by rw [h, String.toList_ofList])
  refine ⟨⟨_, hobject⟩, unstructured_of_object hobject ?_⟩
  rw [insertMember, List.lookup_cons, beq_false_of_ne herror]
  simp only
  rw [lookup_filter_ne herror]
  rfl

/-- The pass over an object with one member reaches the string. -/
theorem onlyMember_scan {key : List Char} (hkey : key ∈ sensitiveFormKeys) (raw : List Char) :
    maskFormPairs (percentDecode (onlyMember.body key raw).toList) =
      '{' :: (onlyMember.head key ++ '"' ::
        scanPairs (some '"') (percentDecode raw ++ ['"', '}'])) := by
  have hsign : '=' ∉ onlyMember.head key := fun h => (onlyMember.mem_head hkey _ h).1 rfl
  have hempty : percentDecode onlyMember.before = [] := rfl
  have hclosing : percentDecode onlyMember.after = ['}'] := by decide +kernel
  rw [maskFormPairs_eq, onlyMember.percentDecode_body hkey, hempty, hclosing, List.nil_append,
    scanPairs_cons_of_inNoPair onlyMember.separator_spec.2,
    scanPairs_stretch quote_spec.2.1 fun m key' _ => not_pairAt_of_no_sign hsign _ m key']
  rfl

/-- What is shown of an object whose only string is masked. -/
def maskedObject (key : List Char) : List Char :=
  '{' :: (quoted key ++ (':' :: '"' :: redacted)) ++ ['"', '}']

theorem maskedObject_spec : ∀ key ∈ sensitiveFormKeys, '.' ∉ maskedObject key ∧
    (maskedObject key).length < maxUpstreamExcerpt ∧ (maskedObject key).count '"' = 4 ∧
      (maskedObject key).getLast? = some '}' ∧ (onlyMember.head key).count '"' = 2 := by
  decide

/-- A string without a sensitive pair is copied by the pass over pairs. -/
theorem onlyMember_scan_of_no_pair {key : List Char} (hkey : key ∈ sensitiveFormKeys)
    {raw : List Char}
    (h : ∀ key ∈ sensitiveFormKeys, findFormPair (percentDecode raw) key = none) :
    maskFormPairs (percentDecode (onlyMember.body key raw).toList) =
      '{' :: (onlyMember.head key ++ '"' :: (percentDecode raw ++ ['"', '}'])) := by
  have hpairs : ∀ m, ∀ key ∈ sensitiveFormKeys,
      ¬PairAt (some '"') (percentDecode raw) m key := fun m key hkey hpair =>
    (findsFirst_findFormPair (percentDecode raw)).missed key hkey (h key hkey) m
      (pairAt_of_boundary hpair)
  have hend : scanPairs (some '"') ['}'] = ['}'] := by
    rw [scanPairs_cons_of_inNoPair (by decide), scanPairs]
  rw [onlyMember_scan hkey, scanPairs_stretch quote_spec.2.1 hpairs, hend]

/-- A string that is masked whole is masked whole. -/
theorem onlyMember_masked {key : List Char} (hkey : key ∈ sensitiveFormKeys) {raw : List Char}
    (h : MaskedWhole raw) :
    maskJsonValues (maskFormPairs (percentDecode (onlyMember.body key raw).toList)) =
      maskedObject key := by
  have hgap : IsGap [':'] := ⟨[], [], rfl, rfl, rfl⟩
  have hhere : memberKey ('{' :: (onlyMember.head key ++ '"' ::
      (percentDecode raw ++ ['"', '}']))) = none := by
    rw [memberKey_eq_none_iff]
    intro key' _ hpre
    rw [quoted, List.cons_append] at hpre
    exact absurd (List.cons_prefix_cons.mp hpre).1 (by decide)
  have hhead : onlyMember.head key ++ '"' :: (percentDecode raw ++ ['"', '}']) =
      quoted key ++ ([':'] ++ '"' :: (percentDecode raw ++ '"' :: ['}'])) := by
    simp [MemberPlace.head, onlyMember]
  have hdrop : List.drop 2 ['"', '}'] = [] := rfl
  have hend : scanMembers ['"', '}'] = ['"', '}'] := by
    rw [scanMembers_copy ['"', '}'] 2 (by decide) (by decide), hdrop, scanMembers]
    rfl
  rw [onlyMember_scan_of_no_pair hkey h.no_pair, maskJsonValues_eq, scanMembers_of_none hhere,
    hhead, scanMembers_member hkey hgap h.no_quote, hend, maskedObject]
  simp

/-- Without an ampersand everything after a pair is hidden. -/
theorem scanPairs_ends {prev : Option Char} {text key : List Char} {m : ℕ}
    (hkey : key ∈ sensitiveFormKeys) (hpair : PairAt prev text m key) (h : '&' ∉ text) :
    ∃ out, scanPairs prev text = out ++ redacted := by
  induction text generalizing prev m with
  | nil =>
    rw [PairAt, List.drop_nil, List.prefix_nil] at hpair
    exact absurd hpair.1 (by simp [assigned])
  | cons c cs ih =>
    rw [List.mem_cons, not_or] at h
    cases hhere : pairKey prev (c :: cs) with
    | some key' =>
      have hrest : '&' ∉ cs.drop key'.length := fun hmem => h.2 (List.mem_of_mem_drop hmem)
      refine ⟨assigned key', ?_⟩
      rw [scanPairs, hhere]
      simp only
      rw [nextPair_eq_nil hrest, scanPairs, List.append_nil]
    | none =>
      cases m with
      | zero => exact absurd hpair (pairKey_eq_none_iff.mp hhere key hkey)
      | succ m =>
        obtain ⟨out, hout⟩ := ih ((pairAt_succ prev c cs m key).mp hpair) h.2
        exact ⟨c :: out, by rw [scanPairs_of_none hhere, hout, List.cons_append]⟩

/-- The last character of a text that is masked like an object with one string is a brace, and it
has four quotes. -/
theorem masked_like_object {lib : UpstreamLibrary} {key masked : List Char}
    (hkey : key ∈ sensitiveFormKeys)
    (h : maskRuns lib none (maskJsonValues masked) = maskedObject key) :
    masked.getLast? ≠ some ']' ∧ masked.count '"' = 4 := by
  rw [maskJsonValues_eq] at h
  constructor
  · intro hlast
    rw [← getLast?_scanMembers] at hlast
    obtain ⟨before, hbefore⟩ := List.getLast?_eq_some_iff.mp hlast
    rw [hbefore, maskRuns_append lib none before (by decide)] at h
    have hend := (maskedObject_spec key hkey).2.2.2.1
    rw [← h] at hend
    simp [maskRuns] at hend
  · rw [← count_scanMembers, ← count_maskRuns lib (c := '"') (by decide) (by decide) none _
      (by simp), h]
    exact (maskedObject_spec key hkey).2.2.1

/-- The detail is the same whichever of two strings a member of an object has. -/
def MemberEchoHidden (lib : UpstreamLibrary) (name raw raw' : List Char) : Prop :=
  ∀ status (place : MemberPlace), status.isSuccess = false →
    IsObject lib (place.body name raw) → IsObject lib (place.body name raw') →
      errorDetail lib status (place.body name raw) = errorDetail lib status (place.body name raw')

theorem redact_of_hidden {lib : UpstreamLibrary} {name raw raw' : List Char}
    (hidden : MemberEchoHidden lib name raw raw') (place : MemberPlace)
    (h : IsObject lib (place.body name raw) ∧ Unstructured lib (place.body name raw))
    (h' : IsObject lib (place.body name raw') ∧ Unstructured lib (place.body name raw'))
    (hlen : (utf8 raw).length = (utf8 raw').length) {out' : List Char}
    (hout' : redact lib (place.body name raw').toList = .ok out')
    (hshort : out'.length < maxUpstreamExcerpt) :
    redact lib (place.body name raw).toList = .ok out' := by
  have heq := hidden badRequest place rfl h.1 h'.1
  have hbytes : (bytes (place.body name raw)).length = (bytes (place.body name raw')).length := by
    rw [place.length_body, place.length_body, hlen]
  exact redact_of_errorDetail_eq rfl h.2 h'.2 hbytes hout' hshort heq

/-- A sensitive name stands for itself. -/
theorem literal_sensitive {key : List Char} (hkey : key ∈ sensitiveFormKeys) :
    Json.Literal key key := by
  have hplain : ∀ key ∈ sensitiveFormKeys, ∀ c ∈ key, Json.Plain c := by
    decide
  exact Json.literal_of_plain (hplain key hkey)

/-- A string that does not show beside one that is masked whole is masked like it. -/
theorem masked_of_hidden {lib : UpstreamLibrary} (hjson : ReadsJson lib.fromStr)
    {key raw raw' value value' : List Char} (hkey : key ∈ sensitiveFormKeys)
    (hraw : Json.Literal raw value) (hraw' : Json.Literal raw' value')
    (hlen : (utf8 raw).length = (utf8 raw').length) (h' : MaskedWhole raw')
    (hidden : MemberEchoHidden lib key raw raw') :
    maskRuns lib none (maskJsonValues (maskFormPairs
      (percentDecode (onlyMember.body key raw).toList))) = maskedObject key := by
  have hname := literal_sensitive hkey
  have hspec := maskedObject_spec key hkey
  have hout' : redact lib (onlyMember.body key raw').toList = .ok (maskedObject key) :=
    redact_of_no_dot lib (onlyMember_masked hkey h') hspec.1
  apply redact_eq_ok
  exact redact_of_hidden hidden onlyMember (onlyMember_reads hjson hname hkey hraw)
    (onlyMember_reads hjson hname hkey hraw') hlen hout' hspec.2.1

/-- What is shown of the second member of the object with a pair. -/
def maskedNote : List Char := "\x7b\"note\":\"token=[REDACTED]".toList

theorem maskedNote_spec : '.' ∉ maskedNote ∧ maskedNote.length < maxUpstreamExcerpt ∧
    (∀ m < maskedNote.length, ∀ key ∈ sensitiveFormKeys, ¬quoted key <+: maskedNote.drop m) ∧
      ∀ key ∈ sensitiveFormKeys, '&' ∉ quoted key := by
  decide

/-- The pass over an object in which a pair begins ends at the next ampersand. -/
theorem afterNote_scan {key : List Char} (hkey : key ∈ sensitiveFormKeys) (raw : List Char) :
    maskFormPairs (percentDecode (afterNote.body key raw).toList) =
      maskedNote ++ scanPairs none (nextPair (percentDecode raw ++ ['"', '}'])) := by
  have hamp : '&' ∉ afterNote.head key := fun h => (afterNote.mem_head hkey _ h).2.1 rfl
  have hbefore : percentDecode afterNote.before =
      "\x7b\"note\":".toList ++ '"' :: (assigned "token".toList ++ ['x', '"']) := by
    decide +kernel
  have hclosing : percentDecode afterNote.after = ['}'] := by decide +kernel
  have hnote : '=' ∉ "\x7b\"note\":".toList := by decide
  have hskip : '&' ∉ ['x', '"', ','] := by decide
  have hquote : '&' ∉ ['"'] := by decide
  have hrest : nextPair (['x', '"'] ++ ',' :: (afterNote.head key ++ '"' ::
      (percentDecode raw ++ ['"', '}']))) = nextPair (percentDecode raw ++ ['"', '}']) :=
    calc nextPair (['x', '"', ','] ++ (afterNote.head key ++ (['"'] ++
          (percentDecode raw ++ ['"', '}']))))
      _ = nextPair (['"'] ++ (percentDecode raw ++ ['"', '}'])) := by
        rw [nextPair_append hskip, nextPair_append hamp]
      _ = nextPair (percentDecode raw ++ ['"', '}']) := nextPair_append hquote _
  have hseparator : afterNote.separator = ',' := rfl
  rw [maskFormPairs_eq, afterNote.percentDecode_body hkey, hbefore, hclosing, hseparator,
    List.append_assoc, List.cons_append, List.append_assoc,
    scanPairs_stretch quote_spec.2.1 fun m key' _ => not_pairAt_of_no_sign hnote _ m key',
    scanPairs_assigned (by decide) quote_spec.2.2, hrest]
  rfl

/-- A string that does not show has no ampersand. -/
theorem no_ampersand_of_hidden {lib : UpstreamLibrary} (hjson : ReadsJson lib.fromStr)
    {key raw raw' value value' : List Char} (hkey : key ∈ sensitiveFormKeys)
    (hraw : Json.Literal raw value) (hraw' : Json.Literal raw' value')
    (hlen : (utf8 raw).length = (utf8 raw').length) (h' : MaskedWhole raw')
    (hidden : MemberEchoHidden lib key raw raw') : '&' ∉ percentDecode raw := by
  intro hmem
  have hname := literal_sensitive hkey
  obtain ⟨hdot, hshort, hplain, hamp⟩ := maskedNote_spec
  have hcopy : ∀ rest, scanMembers (maskedNote ++ '&' :: rest) =
      maskedNote ++ '&' :: scanMembers rest := scanMembers_stretch hamp hplain
  have hsafe : maskJsonValues (maskFormPairs
      (percentDecode (afterNote.body key raw').toList)) = maskedNote := by
    have hnone : '&' ∉ percentDecode raw' ++ ['"', '}'] := by
      simpa using h'.no_ampersand
    rw [afterNote_scan hkey, nextPair_eq_nil hnone, scanPairs, List.append_nil, maskJsonValues_eq,
      scanMembers_copy maskedNote _ (Nat.le_refl _) hplain, List.take_length, List.drop_length,
      scanMembers, List.append_nil]
  obtain ⟨before, after, hsplit, hbefore⟩ := List.eq_append_cons_of_mem hmem
  have hshown : maskJsonValues (maskFormPairs (percentDecode (afterNote.body key raw).toList)) =
      maskedNote ++ '&' :: scanMembers (scanPairs (some '&') (after ++ ['"', '}'])) := by
    rw [afterNote_scan hkey, hsplit, List.append_assoc, List.cons_append,
      nextPair_ampersand hbefore, scanPairs_cons_of_inNoPair (by decide), maskJsonValues_eq, hcopy]
  have hout := redact_eq_ok (redact_of_hidden hidden afterNote
    (afterNote_reads hjson hname hkey hraw) (afterNote_reads hjson hname hkey hraw') hlen
      (redact_of_no_dot lib hsafe hdot) hshort)
  rw [hshown, maskRuns_append lib none _ (by decide), maskRuns_of_no_dot lib none (by simp) hdot]
    at hout
  have hlonger := congrArg List.length hout
  simp at hlonger

/-- A string that does not show has no sensitive pair. -/
theorem no_pair_of_hidden {lib : UpstreamLibrary} {key raw : List Char}
    (hkey : key ∈ sensitiveFormKeys) (hamp : '&' ∉ percentDecode raw)
    (h : maskRuns lib none (maskJsonValues (maskFormPairs
      (percentDecode (onlyMember.body key raw).toList))) = maskedObject key) :
    ∀ key' ∈ sensitiveFormKeys, findFormPair (percentDecode raw) key' = none := by
  intro key' hkey'
  cases hfind : findFormPair (percentDecode raw) key' with
  | none => rfl
  | some pos =>
    have hfirst := findsFirst_findFormPair (percentDecode raw)
    have hpair := (hfirst.found key' hkey' pos hfind).1
    have hinside : PairAt (some '"') (percentDecode raw ++ ['"', '}']) pos key' :=
      hpair.append quote_spec.2.2 _
    have hnone : '&' ∉ percentDecode raw ++ ['"', '}'] := by
      simpa using hamp
    obtain ⟨out, hout⟩ := scanPairs_ends hkey' hinside hnone
    rw [onlyMember_scan hkey, hout] at h
    have hredacted : redacted = "[REDACTED".toList ++ [']'] := rfl
    have hend : '{' :: (onlyMember.head key ++ '"' :: (out ++ redacted)) =
        '{' :: (onlyMember.head key ++ '"' :: (out ++ "[REDACTED".toList)) ++ [']'] := by
      rw [hredacted]
      simp only [List.cons_append, List.append_assoc]
    have hlast := (masked_like_object hkey h).1
    rw [hend, List.getLast?_concat] at hlast
    exact absurd rfl hlast

/-- A string that does not show has no quote. -/
theorem no_quote_of_hidden {lib : UpstreamLibrary} {key raw : List Char}
    (hkey : key ∈ sensitiveFormKeys)
    (hpairs : ∀ key ∈ sensitiveFormKeys, findFormPair (percentDecode raw) key = none)
    (h : maskRuns lib none (maskJsonValues (maskFormPairs
      (percentDecode (onlyMember.body key raw).toList))) = maskedObject key) :
    '"' ∉ percentDecode raw := by
  intro hmem
  rw [onlyMember_scan_of_no_pair hkey hpairs] at h
  have hcount := (masked_like_object hkey h).2
  have hhead := (maskedObject_spec key hkey).2.2.2.2
  have hsome : 0 < (percentDecode raw).count '"' := List.count_pos_iff.mpr hmem
  simp [List.count_append, hhead] at hcount
  omega

/-- Beside a string that is masked whole a string is hidden exactly if it is masked whole. -/
theorem memberEchoHidden_iff {lib : UpstreamLibrary} (hjson : ReadsJson lib.fromStr)
    {key raw raw' value value' : List Char} (hkey : key ∈ sensitiveFormKeys)
    (hraw : Json.Literal raw value) (hraw' : Json.Literal raw' value')
    (hlen : (utf8 raw).length = (utf8 raw').length) (h' : MaskedWhole raw') :
    MemberEchoHidden lib key raw raw' ↔ MaskedWhole raw := by
  constructor
  · intro hidden
    have hamp := no_ampersand_of_hidden hjson hkey hraw hraw' hlen h' hidden
    have hmasked := masked_of_hidden hjson hkey hraw hraw' hlen h' hidden
    have hpairs := no_pair_of_hidden hkey hamp hmasked
    exact ⟨no_quote_of_hidden hkey hpairs hmasked, hamp, hpairs⟩
  · intro h status place _ _ _
    exact errorDetail_member lib hjson status place hkey hraw hraw' h h' hlen

/-! ## Names -/

/-- What a name with escapes is spelled with. -/
theorem mem_spelled {name key : List Char} (hname : Json.Literal name key)
    (hkey : key ∈ sensitiveFormKeys) :
    '"' ∉ name ∧ '%' ∉ name ∧ '=' ∉ name ∧ '.' ∉ name := by
  have hself : ∀ c ∈ ['"', '%', '=', '.'], Json.Itself c := by
    have htest : ∀ c ∈ ['"', '%', '=', '.'], c ≠ '\\' ∧ c ≠ 'u' ∧ Json.hexDigit c = none ∧
        ((Json.escaped c).all fun d => d == c) = true := by
      decide
    intro c hc
    obtain ⟨hslash, hunit, hdigit, hall⟩ := htest c hc
    exact ⟨hslash, hunit, hdigit, fun d hd => beq_iff_eq.mp ((Option.all_eq_true _ _).mp hall d hd)⟩
  have hapart : ∀ key ∈ sensitiveFormKeys, ∀ c ∈ ['"', '%', '=', '.'], c ∉ key := by
    decide
  have hnot : ∀ c ∈ ['"', '%', '=', '.'], c ∉ name := fun c hc hmem =>
    hapart key hkey c hc (hname.mem hmem (hself c hc))
  simpa using hnot

theorem before_quote {xs : List Char} (h : '"' ∉ xs) (rest : List Char) :
    (xs ++ '"' :: rest).takeWhile (fun c => c != '"') = xs := by
  have hall : ∀ c ∈ xs, (c != '"') = true := fun c hc =>
    bne_iff_ne.mpr fun heq => h (heq ▸ hc)
  rw [List.takeWhile_append_of_pos hall, List.takeWhile_cons_of_neg (by decide), List.append_nil]

/-- A member whose name is spelled with escapes is shown as it is. -/
theorem masked_spelled {name key : List Char} (hname : Json.Literal name key)
    (hkey : key ∈ sensitiveFormKeys) (hne : name ≠ key) {c : Char} (hc : c ∈ ['a', 'b']) :
    maskJsonValues (maskFormPairs (percentDecode (onlyMember.body name [c]).toList)) =
      (onlyMember.body name [c]).toList := by
  obtain ⟨hquote, hpercent, hequal, -⟩ := mem_spelled hname hkey
  have htail : ∀ c ∈ ['a', 'b'], '%' ∉ ['"', ':', '"', c, '"', '}'] ∧
      '=' ∉ ['"', ':', '"', c, '"', '}'] ∧
        ∀ m < 6, ∀ key ∈ sensitiveFormKeys, ¬quoted key <+: ['"', ':', '"', c, '"', '}'].drop m := by
    decide
  obtain ⟨hpercent', hequal', hstretch⟩ := htail c hc
  have htext : (onlyMember.body name [c]).toList =
      '{' :: '"' :: (name ++ ['"', ':', '"', c, '"', '}']) := by
    simp [MemberPlace.body, MemberPlace.head, onlyMember, quoted]
  have hdecode : percentDecode (onlyMember.body name [c]).toList =
      (onlyMember.body name [c]).toList := by
    apply percentDecode_of_no_sign
    rw [htext]
    simp [hpercent] at hpercent' ⊢
    exact hpercent'
  have hsign : '=' ∉ (onlyMember.body name [c]).toList := by
    rw [htext]
    simp [hequal] at hequal' ⊢
    exact hequal'
  have hbrace : memberKey ('{' :: '"' :: (name ++ ['"', ':', '"', c, '"', '}'])) = none := by
    rw [memberKey_eq_none_iff]
    intro key' _ hpre
    rw [quoted, List.cons_append] at hpre
    exact absurd (List.cons_prefix_cons.mp hpre).1 (by decide)
  have hmember : memberKey ('"' :: (name ++ ['"', ':', '"', c, '"', '}'])) = none := by
    rw [memberKey_eq_none_iff]
    intro key' hkey' hpre
    rw [quoted, List.cons_append] at hpre
    obtain ⟨rest, hrest⟩ := (List.cons_prefix_cons.mp hpre).2
    rw [List.append_assoc, List.singleton_append] at hrest
    have hplain : ∀ key ∈ sensitiveFormKeys, '"' ∉ key := by
      decide
    have hspelled : key' = name := by
      rw [← before_quote (hplain key' hkey') rest, hrest, before_quote hquote]
    rw [← hspelled] at hname hne
    exact hne (hname.unique (literal_sensitive hkey')).symm
  rw [hdecode, maskFormPairs_eq, scanPairs_eq_self fun m key' _ => not_pairAt_of_no_sign hsign _ m
    key', maskJsonValues_eq, htext, scanMembers_of_none hbrace, scanMembers_of_none hmember,
    scanMembers_of_no_quote hquote, scanMembers_copy _ 6 (Nat.le_refl _) hstretch]
  rw [show List.drop 6 ['"', ':', '"', c, '"', '}'] = [] from rfl, scanMembers]
  rfl

/-- A member whose name is spelled with escapes shows. -/
theorem name_of_hidden {lib : UpstreamLibrary} (hjson : ReadsJson lib.fromStr)
    {name key : List Char} (hname : Json.Literal name key) (hkey : key ∈ sensitiveFormKeys)
    (hidden : MemberEchoHidden lib name ['a'] ['b']) : name = key := by
  by_contra hne
  have hplain : ∀ c ∈ ['a', 'b'], ∀ x ∈ [c], Json.Plain x := by
    decide
  have hshort : ∀ key ∈ sensitiveFormKeys, 12 * key.length + 9 < maxUpstreamExcerpt := by
    decide
  have hlen : (onlyMember.body name ['b']).toList.length < maxUpstreamExcerpt := by
    have hname := hname.length_le
    have hkey := hshort key hkey
    simp [MemberPlace.body, MemberPlace.head, onlyMember, quoted]
    omega
  have hdot : '.' ∉ (onlyMember.body name ['b']).toList := by
    have hname := (mem_spelled hname hkey).2.2.2
    simpa [MemberPlace.body, MemberPlace.head, onlyMember, quoted] using hname
  have hreads : ∀ c ∈ ['a', 'b'], IsObject lib (onlyMember.body name [c]) ∧
      Unstructured lib (onlyMember.body name [c]) := fun c hc =>
    onlyMember_reads hjson hname hkey (Json.literal_of_plain (hplain c hc))
  have hout := redact_eq_ok (redact_of_hidden hidden onlyMember (hreads 'a' (by decide))
    (hreads 'b' (by decide)) rfl
      (redact_of_no_dot lib (masked_spelled hname hkey hne (by decide)) hdot) hlen)
  have hdot' : '.' ∉ (onlyMember.body name ['a']).toList := by
    have hname := (mem_spelled hname hkey).2.2.2
    simpa [MemberPlace.body, MemberPlace.head, onlyMember, quoted] using hname
  rw [masked_spelled hname hkey hne (by decide), maskRuns_of_no_dot lib none (by simp) hdot'] at hout
  simp [MemberPlace.body, MemberPlace.head, onlyMember, quoted] at hout

/-- The detail is the same whichever of two strings that are masked whole a member has. -/
def NameMasked (lib : UpstreamLibrary) (name : List Char) : Prop :=
  ∀ raw raw' value value', Json.Literal raw value → Json.Literal raw' value' →
    (utf8 raw).length = (utf8 raw').length → MaskedWhole raw → MaskedWhole raw' →
      MemberEchoHidden lib name raw raw'

theorem maskedWhole_letter : ∀ c ∈ ['a', 'b'], MaskedWhole [c] := by
  have hfields : ∀ c ∈ ['a', 'b'], '"' ∉ percentDecode [c] ∧ '&' ∉ percentDecode [c] ∧
      ∀ key ∈ sensitiveFormKeys, findFormPair (percentDecode [c]) key = none := by
    decide +kernel
  intro c hc
  obtain ⟨hquote, hamp, hpairs⟩ := hfields c hc
  exact ⟨hquote, hamp, hpairs⟩

/-- The strings of the members of one name are masked exactly if it is spelled without escapes. -/
theorem nameMasked_iff {lib : UpstreamLibrary} (hjson : ReadsJson lib.fromStr)
    {name key : List Char} (hname : Json.Literal name key) (hkey : key ∈ sensitiveFormKeys) :
    NameMasked lib name ↔ name = key := by
  have hplain : ∀ c ∈ ['a', 'b'], ∀ x ∈ [c], Json.Plain x := by
    decide
  constructor
  · intro hmasked
    apply name_of_hidden hjson hname hkey
    exact hmasked _ _ _ _ (Json.literal_of_plain (hplain 'a' (by decide)))
      (Json.literal_of_plain (hplain 'b' (by decide))) rfl (maskedWhole_letter 'a' (by decide))
        (maskedWhole_letter 'b' (by decide))
  · rintro rfl raw raw' value value' hraw hraw' hlen h h'
    exact (memberEchoHidden_iff hjson hkey hraw hraw' hlen h').mpr h

/-! ## Echoes -/

/-- Beside a value that meets the conditions a value is hidden exactly if it meets them: in a form
that it has no ampersand, in a member that its string is masked whole; and the name of a member is
to be spelled without escapes. -/
theorem echo_hidden_iff (lib : UpstreamLibrary) (hjson : ReadsJson lib.fromStr) :
    (∀ value value' : List Char, (formEncode value).length = (formEncode value').length →
      '&' ∉ value' → (FormEchoHidden lib value value' ↔ '&' ∉ value)) ∧
    (∀ key ∈ sensitiveFormKeys, ∀ raw raw' value value', Json.Literal raw value →
      Json.Literal raw' value' → (utf8 raw).length = (utf8 raw').length → MaskedWhole raw' →
        (MemberEchoHidden lib key raw raw' ↔ MaskedWhole raw)) ∧
    ∀ name, ∀ key ∈ sensitiveFormKeys, Json.Literal name key →
      (NameMasked lib name ↔ name = key) := by
  refine ⟨fun value value' hlen h' => ?_, fun key hkey raw raw' value value' hraw hraw' hlen h' =>
    ?_, fun name key hkey hname => ?_⟩
  · exact formEchoHidden_iff lib hjson hlen h'
  · exact memberEchoHidden_iff hjson hkey hraw hraw' hlen h'
  · exact nameMasked_iff hjson hname hkey

/-- The packages as they are for texts without numbers and the status 400. -/
def plainLibrary : UpstreamLibrary where
  fromStr text := Json.parse (valueBuilder fun _ => none) recursionLimit text.toList
  decodeUrlSafe _ := none
  statusText _ := "400 Bad Request"

/-- What is echoed of a secret in a form, and in an object. -/
theorem echo_hidden_secret :
    errorDetail plainLibrary badRequest (formBody [] "code".toList "s3cr3t".toList []) =
        errorDetail plainLibrary badRequest (formBody [] "code".toList "public".toList []) ∧
      errorDetail plainLibrary badRequest (onlyMember.body "code".toList ['a']) =
        errorDetail plainLibrary badRequest (onlyMember.body "code".toList ['b']) := by
  have hjson : ReadsJson plainLibrary.fromStr := ⟨fun _ => none, fun _ => rfl⟩
  have hkey : "code".toList ∈ sensitiveFormKeys := by decide
  have hplain : ∀ c ∈ ['a', 'b'], Json.Literal [c] [c] := fun c hc =>
    Json.literal_of_plain ((by decide : ∀ c ∈ ['a', 'b'], ∀ x ∈ [c], Json.Plain x) c hc)
  have hreads : ∀ c ∈ ['a', 'b'], IsObject plainLibrary (onlyMember.body "code".toList [c]) :=
    fun c hc => (onlyMember_reads hjson (literal_sensitive hkey) hkey (hplain c hc)).1
  obtain ⟨hform, hmember, -⟩ := echo_hidden_iff plainLibrary hjson
  constructor
  · exact (hform "s3cr3t".toList "public".toList (by decide) (by decide)).mpr (by decide)
      badRequest [] "code".toList [] rfl hkey (Or.inl rfl) (Or.inl rfl)
  · exact (hmember _ hkey ['a'] ['b'] _ _ (hplain 'a' (by decide)) (hplain 'b' (by decide)) rfl
      (maskedWhole_letter 'b' (by decide))).mpr (maskedWhole_letter 'a' (by decide)) badRequest
        onlyMember rfl (hreads 'a' (by decide)) (hreads 'b' (by decide))

/-- What follows an ampersand in a secret shows, and so does what follows a quote in one. -/
theorem echo_shown :
    errorDetail plainLibrary badRequest (formBody [] "code".toList "&a".toList []) ≠
        errorDetail plainLibrary badRequest (formBody [] "code".toList "&b".toList []) ∧
      (formEncode "&a".toList).length = (formEncode "&b".toList).length ∧
      errorDetail plainLibrary badRequest (onlyMember.body "code".toList "\\\"a".toList) ≠
        errorDetail plainLibrary badRequest (onlyMember.body "code".toList "\\\"b".toList) := by
  decide +kernel

end OidcExchange
