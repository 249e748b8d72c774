import OidcExchange.Analysis.BareAssertions
import OidcExchange.Analysis.SlicedRedaction

/-!
# What redaction leaves of a form

Redaction ends on every text, and every sensitive pair of what comes out has the marker as its
value: the first pass writes the markers, and the passes after it keep each of them and make no
new pair.
-/

set_option autoImplicit false

namespace OidcExchange

open Texts

/-- Up to the next ampersand, the value is the marker. -/
def IsMarker (value : List Char) : Prop := value.takeWhile (fun c => c != '&') = redacted

/-- Every sensitive pair of a text that follows a character or none has the marker as its value. -/
def PairsMasked (prev : Option Char) (text : List Char) : Prop :=
  ∀ before key value, key ∈ sensitiveFormKeys → boundary (before.getLast?.or prev) = true →
    text = before ++ (assigned key ++ value) → IsMarker value

/-! ## Markers -/

theorem isMarker_redacted : IsMarker redacted := by
  rw [IsMarker]
  decide

theorem isMarker_ampersand (more : List Char) : IsMarker (redacted ++ '&' :: more) := by
  have hred : ∀ c ∈ redacted, (c != '&') = true := by decide
  rw [IsMarker, List.takeWhile_append_of_pos hred, List.takeWhile_cons_of_neg (by decide),
    List.append_nil]

theorem isMarker_cases {value : List Char} (h : IsMarker value) :
    value = redacted ∨ ∃ more, value = redacted ++ '&' :: more := by
  have hsplit := List.takeWhile_append_dropWhile (p := fun c => c != '&') (l := value)
  rw [IsMarker] at h
  rw [h] at hsplit
  cases hdrop : value.dropWhile (fun c => c != '&') with
  | nil =>
    rw [hdrop, List.append_nil] at hsplit
    exact Or.inl hsplit.symm
  | cons c more =>
    have hne : value.dropWhile (fun c => c != '&') ≠ [] := by
      rw [hdrop]
      exact List.cons_ne_nil c more
    have hc := List.head_dropWhile_not (fun c => c != '&') hne
    simp only [hdrop, List.head_cons, bne_eq_false_iff_eq] at hc
    rw [hdrop, hc] at hsplit
    exact Or.inr ⟨more, hsplit.symm⟩

/-! ## Pairs along a text -/

theorem keys_are_words : ∀ key ∈ sensitiveFormKeys, ∀ c ∈ key,
    boundary (some c) = false ∧ inJwsCharset c = true ∧ c ≠ '=' ∧ c ≠ '"' ∧ c ∉ redacted := by
  decide

theorem getLast?_cons_or (c : Char) (cs : List Char) (prev : Option Char) :
    (c :: cs).getLast?.or prev = cs.getLast?.or (some c) := by
  rw [List.getLast?_cons]
  cases cs.getLast? <;> rfl

theorem pairsMasked_cons {prev : Option Char} {c : Char} {cs : List Char} :
    PairsMasked prev (c :: cs) ↔
      (∀ key value, key ∈ sensitiveFormKeys → boundary prev = true →
        c :: cs = assigned key ++ value → IsMarker value) ∧ PairsMasked (some c) cs := by
  constructor
  · intro h
    refine ⟨fun key value hkey hprev heq => h [] key value hkey hprev heq,
      fun before key value hkey hprev heq => ?_⟩
    refine h (c :: before) key value hkey ?_ (by rw [heq, List.cons_append])
    rwa [getLast?_cons_or]
  · rintro ⟨hhere, hrest⟩ before key value hkey hprev heq
    cases before with
    | nil => exact hhere key value hkey hprev heq
    | cons d before =>
      obtain ⟨rfl, hcs⟩ := List.cons.inj heq
      rw [getLast?_cons_or] at hprev
      exact hrest before key value hkey hprev hcs

/-- No pair begins at a character that is in no key. -/
theorem pairsMasked_skip {prev : Option Char} {c : Char}
    (hc : ∀ key ∈ sensitiveFormKeys, c ∉ key) {cs : List Char} :
    PairsMasked prev (c :: cs) ↔ PairsMasked (some c) cs := by
  rw [pairsMasked_cons, and_iff_right]
  intro key value hkey _ heq
  obtain ⟨d, key', hdecomposed⟩ := List.exists_cons_of_ne_nil (keys_apart key hkey).1
  rw [hdecomposed, assigned, List.cons_append, List.cons_append] at heq
  have hmem : c ∈ key := by
    rw [hdecomposed, (List.cons.inj heq).1]
    exact List.mem_cons_self
  exact absurd hmem (hc key hkey)

theorem PairsMasked.suffix {prev : Option Char} {xs ys : List Char}
    (h : PairsMasked prev (xs ++ ys)) : PairsMasked (xs.getLast?.or prev) ys := by
  induction xs generalizing prev with
  | nil => exact h
  | cons x xs ih =>
    rw [getLast?_cons_or]
    exact ih (pairsMasked_cons.mp h).2

theorem pairsMasked_of_no_sign {prev : Option Char} {xs : List Char} (h : '=' ∉ xs) :
    PairsMasked prev xs := by
  intro before key value _ _ heq
  refine absurd ?_ h
  rw [heq]
  simp [assigned]

/-- No pair begins before a character that is in none, unless a sign precedes it. -/
theorem pairsMasked_stretch {prev : Option Char} {xs : List Char} (hxs : '=' ∉ xs) {c : Char}
    (hc : InNoPair c) {rest : List Char} :
    PairsMasked prev (xs ++ c :: rest) ↔ PairsMasked (some c) rest := by
  induction xs generalizing prev with
  | nil =>
    refine pairsMasked_skip fun key hkey hmem => hc key hkey ?_
    exact List.mem_append_left _ hmem
  | cons x xs ih =>
    rw [List.mem_cons, not_or] at hxs
    rw [List.cons_append, pairsMasked_cons, ih hxs.2, and_iff_right]
    intro key value hkey _ heq
    have hpre : assigned key <+: (x :: xs) ++ c :: rest := ⟨value, heq.symm⟩
    rw [prefix_append_cons_iff (hc key hkey)] at hpre
    have hmem : '=' ∈ x :: xs := hpre.subset (by simp [assigned])
    obtain rfl | hmem := List.mem_cons.mp hmem
    · exact absurd rfl hxs.1
    · exact absurd hmem hxs.2

/-- A pair with the marker and pairs with markers after it. -/
theorem pairsMasked_assigned {prev : Option Char} {key value : List Char}
    (hkey : key ∈ sensitiveFormKeys) (hvalue : IsMarker value)
    (h : PairsMasked (some '=') value) : PairsMasked prev (assigned key ++ value) := by
  intro before key' value' hkey' hprev heq
  obtain ⟨as, hbefore, hrest⟩ | ⟨bs, hassigned, hrest⟩ := List.append_eq_append_iff.mp heq
  · refine h as key' value' hkey' ?_ hrest
    rw [hbefore, List.getLast?_append, assigned, List.getLast?_concat, Option.or_assoc] at hprev
    exact hprev
  · obtain rfl | ⟨front, c, rfl⟩ := List.eq_nil_or_concat before
    · rw [List.nil_append] at hassigned
      rw [← hassigned] at hrest
      have hsame : key' = key := pairAt_unique hkey' hkey ⟨value', hrest⟩ (List.prefix_append _ _)
      rw [hsame] at hrest
      rwa [List.append_cancel_left hrest]
    · rw [List.concat_eq_append] at hassigned hprev
      rw [List.getLast?_concat, Option.some_or] at hprev
      obtain rfl | ⟨bs, e, rfl⟩ := List.eq_nil_or_concat bs
      · rw [List.append_nil, assigned] at hassigned
        have hc : '=' = c := List.singleton_inj.mp (List.append_inj_right' hassigned rfl)
        exact h [] key' value' hkey' (hc ▸ hprev) hrest.symm
      · rw [List.concat_eq_append, ← List.append_assoc, assigned] at hassigned
        have hkeyeq := List.append_inj_left' hassigned rfl
        have hmem : c ∈ key := by
          rw [hkeyeq]
          exact List.mem_append_left _ (List.mem_append_right _ (List.mem_singleton_self c))
        rw [(keys_are_words key hkey c hmem).1] at hprev
        cases hprev

/-! ## The first pass -/

/-- Until its sign, the first pass copies. -/
theorem prefix_of_scanPairs (prev : Option Char) (text w : List Char) (hw : '=' ∉ w)
    (h : w ++ ['='] <+: scanPairs prev text) : w ++ ['='] <+: text := by
  match text with
  | [] =>
    rw [scanPairs] at h
    exact absurd (List.prefix_nil.mp h) (by simp)
  | c :: cs =>
    cases hkey : pairKey prev (c :: cs) with
    | none =>
      rw [scanPairs_of_none hkey] at h
      cases w with
      | nil =>
        rw [List.nil_append, List.cons_prefix_cons] at h ⊢
        exact ⟨h.1, List.nil_prefix⟩
      | cons d w =>
        rw [List.cons_append, List.cons_prefix_cons] at h ⊢
        rw [List.mem_cons, not_or] at hw
        exact ⟨h.1, prefix_of_scanPairs (some c) cs w hw.2 h.2⟩
    | some key =>
      obtain ⟨hsensitive, ⟨rest, hrest⟩, hprev⟩ := pairKey_eq_some hkey
      obtain ⟨more, hmore⟩ := h
      rw [← hrest, scanPairs_assigned hsensitive hprev, assigned, List.append_assoc,
        List.append_assoc, List.append_assoc, List.singleton_append, List.singleton_append] at hmore
      have hunseparated : ∀ xs : List Char, '=' ∉ xs → Unseparated (· == '=') xs := by
        intro xs hxs x hx
        exact beq_false_of_ne fun heq => hxs (heq ▸ hx)
      have hkeyno : '=' ∉ key := fun hmem => (keys_are_words key hsensitive '=' hmem).2.2.1 rfl
      have hw' : w = key := (append_cons_inj_of_unseparated (hunseparated w hw)
        (hunseparated key hkeyno) rfl rfl hmore).1
      rw [hw', ← hrest]
      exact List.prefix_append _ _

/-- What is left after a value is empty or begins with an ampersand. -/
theorem nextPair_cases (rest : List Char) :
    nextPair rest = [] ∨ ∃ more, nextPair rest = '&' :: more := by
  by_cases hmem : '&' ∈ rest
  · obtain ⟨before, after, rfl, hbefore⟩ := List.eq_append_cons_of_mem hmem
    exact Or.inr ⟨after, nextPair_ampersand hbefore after⟩
  · exact Or.inl (nextPair_eq_nil hmem)

/-- After the first pass every sensitive pair has the marker. -/
theorem pairsMasked_scanPairs (prev : Option Char) (text : List Char) :
    PairsMasked prev (scanPairs prev text) := by
  match text with
  | [] =>
    rw [scanPairs]
    exact pairsMasked_of_no_sign (by simp)
  | c :: cs =>
    cases hkey : pairKey prev (c :: cs) with
    | none =>
      have hrest := pairsMasked_scanPairs (some c) cs
      rw [scanPairs_of_none hkey]
      refine pairsMasked_cons.mpr ⟨fun key value hsensitive hprev heq => ?_, hrest⟩
      have hout : key ++ ['='] <+: scanPairs prev (c :: cs) := by
        rw [scanPairs_of_none hkey, heq]
        exact List.prefix_append _ _
      have hno : '=' ∉ key := fun hmem => (keys_are_words key hsensitive '=' hmem).2.2.1 rfl
      exact absurd ⟨prefix_of_scanPairs prev (c :: cs) key hno hout, hprev⟩
        (pairKey_eq_none_iff.mp hkey key hsensitive)
    | some key =>
      obtain ⟨hsensitive, ⟨rest, hrest⟩, hprev⟩ := pairKey_eq_some hkey
      have hlen : rest.length < (c :: cs).length := by
        rw [← hrest, List.length_append, assigned, List.length_append, List.length_singleton]
        omega
      have hshorter := length_nextPair_le rest
      have hmore := pairsMasked_scanPairs none (nextPair rest)
      rw [← hrest, scanPairs_assigned hsensitive hprev, List.append_assoc]
      obtain hnext | ⟨more, hnext⟩ := nextPair_cases rest
      · rw [hnext, scanPairs, List.append_nil]
        exact pairsMasked_assigned hsensitive isMarker_redacted
          (pairsMasked_of_no_sign (by decide))
      · rw [hnext, scanPairs_cons_of_inNoPair (by decide)] at hmore ⊢
        refine pairsMasked_assigned hsensitive (isMarker_ampersand _) ?_
        rw [pairsMasked_stretch (by decide) (by decide)]
        rwa [pairsMasked_skip (by decide)] at hmore
  termination_by text.length
  decreasing_by
  · exact Nat.lt_succ_self _
  · exact Nat.lt_of_le_of_lt hshorter hlen

/-! ## The second pass -/

/-- Up to a quote, the second pass copies. -/
theorem scanMembers_eq_append {w : List Char} (hw : '"' ∉ w) {text value : List Char}
    (h : scanMembers text = w ++ value) :
    ∃ rest, text = w ++ rest ∧ value = scanMembers rest := by
  induction w generalizing text with
  | nil => exact ⟨text, rfl, h.symm⟩
  | cons d w ih =>
    rw [List.mem_cons, not_or] at hw
    match text with
    | [] =>
      rw [scanMembers] at h
      cases h
    | c :: cs =>
      cases hkey : memberKey (c :: cs) with
      | none =>
        rw [scanMembers_of_none hkey] at h
        obtain ⟨rfl, hcs⟩ := List.cons.inj h
        obtain ⟨rest, rfl, hvalue⟩ := ih hw.2 hcs
        exact ⟨rest, rfl, hvalue⟩
      | some key =>
        obtain ⟨hsensitive, rest, hrest⟩ := memberKey_eq_some hkey
        rw [← hrest, scanMembers_quoted hsensitive, quoted] at h
        exact absurd (List.cons.inj h).1 hw.1

theorem isMarker_scanMembers {value : List Char} (h : IsMarker value) :
    IsMarker (scanMembers value) := by
  obtain rfl | ⟨more, rfl⟩ := isMarker_cases h
  · have hscan : scanMembers (redacted ++ []) = _ := scanMembers_of_no_quote (by decide) []
    rw [List.append_nil, scanMembers, List.append_nil] at hscan
    rw [hscan]
    exact isMarker_redacted
  · rw [List.append_cons, scanMembers_of_no_quote (by decide), ← List.append_cons]
    exact isMarker_ampersand _

/-- A gap has no sign. -/
theorem no_sign_gap {gap : List Char} (h : IsGap gap) : '=' ∉ gap := by
  obtain ⟨before, after, rfl, hbefore, hafter⟩ := h
  have hwhite : ∀ spaces : List Char, spaces.all isWhiteSpace = true → '=' ∉ spaces := by
    intro spaces hall hmem
    exact absurd (List.all_eq_true.mp hall '=' hmem) (by decide)
  rw [List.mem_append, List.mem_cons, not_or, not_or]
  exact ⟨hwhite before hbefore, by decide, hwhite after hafter⟩

/-- No pair begins in a quoted key. -/
theorem pairsMasked_quoted {prev : Option Char} {key : List Char}
    (hkey : key ∈ sensitiveFormKeys) {rest : List Char} :
    PairsMasked prev (quoted key ++ rest) ↔ PairsMasked (some '"') rest := by
  have hsplit : quoted key ++ rest = ('"' :: key) ++ '"' :: rest := by
    rw [quoted, List.cons_append, List.cons_append, List.append_assoc, List.singleton_append,
      List.cons_append]
  rw [hsplit, pairsMasked_stretch ?_ (by decide)]
  rw [List.mem_cons, not_or]
  exact ⟨by decide, fun hmem => (keys_are_words key hkey '=' hmem).2.2.1 rfl⟩

/-- The second pass keeps the markers, and makes no pair. -/
theorem pairsMasked_scanMembers {prev : Option Char} {text : List Char}
    (h : PairsMasked prev text) : PairsMasked prev (scanMembers text) := by
  revert prev
  refine scanMembers_induction
    (P := fun text out => ∀ {prev}, PairsMasked prev text → PairsMasked prev out)
    (fun h => h) ?_ ?_ ?_ text
  · intro c cs ih prev h
    obtain ⟨hhere, hrest⟩ := pairsMasked_cons.mp h
    refine pairsMasked_cons.mpr ⟨fun key value hkey hprev heq => ?_, ih hrest⟩
    obtain ⟨d, key', hdecomposed⟩ := List.exists_cons_of_ne_nil (keys_apart key hkey).1
    have hquote : '"' ∉ assigned key := by
      rw [assigned, List.mem_append, not_or]
      exact ⟨fun hmem => (keys_are_words key hkey '"' hmem).2.2.2.1 rfl, by decide⟩
    have hassigned : assigned key = d :: (key' ++ ['=']) := by
      rw [assigned, hdecomposed, List.cons_append]
    rw [hassigned, List.mem_cons, not_or] at hquote
    rw [hassigned] at heq
    obtain ⟨rfl, hcs⟩ := List.cons.inj heq
    obtain ⟨rest, rfl, rfl⟩ := scanMembers_eq_append hquote.2 hcs
    exact isMarker_scanMembers (hhere key rest hkey hprev (by rw [hassigned, List.cons_append]))
  · intro key rest hkey ih prev h
    rw [pairsMasked_quoted hkey] at h ⊢
    exact ih h
  · intro key gap content rest hkey hgap _ ih prev h
    rw [pairsMasked_quoted hkey, pairsMasked_stretch (no_sign_gap hgap) (by decide)] at h
    have hrest : PairsMasked (some '"') rest := by
      have hsuffix := h.suffix
      rwa [pairsMasked_skip (by decide)] at hsuffix
    have hout : PairsMasked (some ']') (scanMembers ('"' :: rest)) := by
      refine ih ?_
      rwa [pairsMasked_skip (by decide)]
    have hred : redacted = "[REDACTED".toList ++ [']'] := by decide
    rw [List.append_assoc, pairsMasked_quoted hkey, List.append_assoc, List.cons_append,
      pairsMasked_stretch (no_sign_gap hgap) (by decide), hred, List.append_assoc,
      List.singleton_append, pairsMasked_stretch (by decide) (by decide)]
    exact hout

/-! ## The third pass -/

variable {lib : UpstreamLibrary}

theorem isMarker_maskRuns {value : List Char} (h : IsMarker value) :
    IsMarker (maskRuns lib none value) := by
  have hred : maskRuns lib none redacted = redacted :=
    maskRuns_of_no_dot lib none (by simp) (by decide)
  obtain rfl | ⟨more, rfl⟩ := isMarker_cases h
  · rw [hred]
    exact isMarker_redacted
  · rw [maskRuns_append lib none redacted (by decide), hred]
    exact isMarker_ampersand _

/-- Every key is a run. -/
theorem unseparated_key {key : List Char} (hkey : key ∈ sensitiveFormKeys) :
    Unseparated endsRun key :=
  fun c hc => endsRun_eq_false.mpr (keys_are_words key hkey c hc).2.1

/-- The third pass keeps the markers, and makes no pair. -/
theorem pairsMasked_maskRuns {prev : Option Char} {text : List Char}
    (h : PairsMasked prev text) : PairsMasked prev (maskRuns lib none text) := by
  induction text using runs_induction endsRun generalizing prev with
  | last run hrun =>
    rw [maskRuns_run hrun]
    obtain hpush | hpush := pushJwsChecked_eq lib run
    · rwa [hpush]
    · rw [hpush]
      exact pairsMasked_of_no_sign (by decide)
  | more run c rest hrun hc ih =>
    have hnokey : ∀ key ∈ sensitiveFormKeys, c ∉ key := by
      intro key hkey hmem
      have hfalse := unseparated_key hkey c hmem
      rw [hc] at hfalse
      cases hfalse
    have hrest : PairsMasked (some c) (maskRuns lib none rest) := by
      refine ih ?_
      have hsuffix := h.suffix
      rwa [pairsMasked_skip hnokey] at hsuffix
    rw [maskRuns_more hrun hc]
    intro before key value hkey hprev heq
    obtain ⟨d, key', hdecomposed⟩ := List.exists_cons_of_ne_nil (keys_apart key hkey).1
    obtain ⟨gap, hbefore, hcons⟩ | ⟨gap, hpush, hvalue⟩ := List.append_eq_append_iff.mp heq
    -- The pair begins after the run.
    · cases gap with
      | nil =>
        rw [hdecomposed, assigned, List.nil_append, List.cons_append, List.cons_append] at hcons
        have hmem : c ∈ key := by
          rw [hdecomposed, (List.cons.inj hcons).1]
          exact List.mem_cons_self
        exact absurd hmem (hnokey key hkey)
      | cons e gap =>
        obtain ⟨rfl, htail⟩ := List.cons.inj hcons
        refine hrest gap key value hkey ?_ htail
        rw [hbefore, List.getLast?_append, List.getLast?_cons, Option.some_or] at hprev
        cases hlast : gap.getLast? with
        | none =>
          rw [hlast] at hprev
          exact hprev
        | some x =>
          rw [hlast] at hprev
          exact hprev
    · obtain hkept | hmasked := pushJwsChecked_eq lib run
      -- The pair begins in a run that is kept: the key ends the run.
      · rw [hkept] at hpush
        have hgap : Unseparated endsRun gap :=
          hrun.of_infix ⟨before, [], by rw [hpush, List.append_nil]⟩
        rw [assigned, List.append_assoc, List.singleton_append] at hvalue
        obtain ⟨rfl, rfl, rfl⟩ := append_cons_inj_of_unseparated (unseparated_key hkey) hgap
          rfl hc hvalue
        refine isMarker_maskRuns (h before key rest hkey hprev ?_)
        rw [hpush, assigned, List.append_assoc, List.append_assoc, List.singleton_append]
      -- The pair begins in a marker: no key is there.
      · rw [hmasked] at hpush
        rw [hdecomposed, assigned, List.cons_append, List.cons_append] at hvalue
        cases gap with
        | nil =>
          have hmem : c ∈ key := by
            rw [hdecomposed, (List.cons.inj hvalue).1]
            exact List.mem_cons_self
          exact absurd hmem (hnokey key hkey)
        | cons e gap =>
          have hd : d = e := (List.cons.inj hvalue).1
          have hin : d ∈ redacted := by
            rw [hpush, hd]
            exact List.mem_append_right _ List.mem_cons_self
          have hmem : d ∈ key := by
            rw [hdecomposed]
            exact List.mem_cons_self
          exact absurd hin (keys_are_words key hkey d hmem).2.2.2.2

/-! ## Redaction -/

variable (lib) in
/-- Redaction succeeds on every text. -/
theorem redact_total (text : List Char) : ∃ out, redact lib text = .ok out ∧
    PairsMasked none out := by
  refine ⟨_, by rw [redact, maskCompactJws_eq], ?_⟩
  rw [maskFormPairs_eq, maskJsonValues_eq]
  exact pairsMasked_maskRuns (pairsMasked_scanMembers (pairsMasked_scanPairs none _))

variable (lib) in
/-- An excerpt of a text, as it is cut from the bytes of what redaction leaves. -/
def ExcerptOf (text : String) (excerpt : List Char) : Prop :=
  Sliced.excerptOf lib (bytes text) = .ok (utf8 excerpt) ∧ excerpt.length ≤ maxUpstreamExcerpt

variable (lib) in
/-- Every text has an excerpt. -/
theorem exists_excerpt (text : String) : ∃ excerpt, excerptOf lib text.toList = .ok excerpt ∧
    ExcerptOf lib text excerpt := by
  obtain ⟨out, hout, -⟩ := redact_total lib text.toList
  have hsliced := Sliced.excerptOf_utf8 hout
  rw [utf8_toList] at hsliced
  refine ⟨out.take maxUpstreamExcerpt, ?_, hsliced, List.length_take_le _ _⟩
  rw [excerptOf, hout]
  rfl

/-- What a detail is made of: an excerpt of the body, or excerpts of the members of an error
object. -/
inductive DetailOf (lib : UpstreamLibrary) (status : StatusCode) (body : String) :
    String → Prop
  | excerpt {excerpt : List Char} (h : ExcerptOf lib body excerpt) :
      DetailOf lib status body ("HTTP " ++ lib.statusText status ++ "; upstream returned " ++
        toString (bytes body).length ++ " bytes; excerpt: " ++ String.ofList excerpt)
  | error {parsed : Value} {errorCode : String} {code : List Char}
      (hparsed : lib.fromStr body = some parsed)
      (herror : parsed.textField "error" = some errorCode) (hcode : ExcerptOf lib errorCode code) :
      DetailOf lib status body (String.ofList code)
  | described {parsed : Value} {errorCode description : String} {code described : List Char}
      (hparsed : lib.fromStr body = some parsed)
      (herror : parsed.textField "error" = some errorCode) (hcode : ExcerptOf lib errorCode code)
      (hdescription : parsed.textField "error_description" = some description)
      (hdescribed : ExcerptOf lib description described) :
      DetailOf lib status body (String.ofList (code ++ ": ".toList ++ described))

theorem renderError_total (status : StatusCode) {body : String} {parsed : Value}
    {errorCode : String} (hparsed : lib.fromStr body = some parsed)
    (herror : parsed.textField "error" = some errorCode) :
    ∃ detail, renderError lib errorCode (parsed.textField "error_description") = .ok detail ∧
      DetailOf lib status body (String.ofList detail) := by
  obtain ⟨code, hcode, hexcerpt⟩ := exists_excerpt lib errorCode
  cases hdescription : parsed.textField "error_description" with
  | none =>
    refine ⟨code, ?_, .error hparsed herror hexcerpt⟩
    rw [renderError, hcode]
    rfl
  | some description =>
    obtain ⟨described, hdescribed, hexcerpt'⟩ := exists_excerpt lib description
    refine ⟨code ++ ": ".toList ++ described, ?_,
      .described hparsed herror hexcerpt hdescription hexcerpt'⟩
    simp only [renderError, hcode, bind, Except.bind, hdescribed, pure, Except.pure]

/-- A failure has a detail. -/
theorem errorDetail_total {status : StatusCode} (hstatus : status.isSuccess = false)
    (body : String) :
    ∃ detail, errorDetail lib status body = .ok detail ∧ DetailOf lib status body detail := by
  have hstart : errorDetail lib status body =
      (structuredErrorDetail lib body).elim (excerptDetail lib status body)
        fun structured => String.ofList <$> structured := by
    cases hstructured : structuredErrorDetail lib body with
    | none => exact errorDetail_of_unstructured hstatus hstructured
    | some structured =>
      rw [errorDetail, hstatus, hstructured]
      cases structured with
      | ok detail => rfl
      | error fault => rfl
  rw [hstart]
  by_cases hstructured : ∃ parsed errorCode, lib.fromStr body = some parsed ∧
      parsed.textField "error" = some errorCode
  · obtain ⟨parsed, errorCode, hparsed, herror⟩ := hstructured
    obtain ⟨detail, hrender, hdetail⟩ :=
      renderError_total status hparsed herror
    refine ⟨String.ofList detail, ?_, hdetail⟩
    rw [structuredErrorDetail, hparsed]
    dsimp only [Option.bind_eq_bind, Option.bind_some]
    rw [herror]
    change String.ofList <$> renderError lib errorCode _ = _
    rw [hrender]
    rfl
  · have hnone : structuredErrorDetail lib body = none := by
      rw [structuredErrorDetail]
      cases hparsed : lib.fromStr body with
      | none => rfl
      | some parsed =>
        dsimp only [Option.bind_eq_bind, Option.bind_some]
        cases herror : parsed.textField "error" with
        | none => rfl
        | some errorCode => exact absurd ⟨parsed, errorCode, hparsed, herror⟩ hstructured
    obtain ⟨out, hout, -⟩ := redact_total lib body.toList
    obtain ⟨excerpt, hexcerpt, hcut⟩ := exists_excerpt lib body
    have heq : excerpt = out.take maxUpstreamExcerpt := by
      rw [excerptOf, hout] at hexcerpt
      exact (Except.ok.inj hexcerpt).symm
    rw [hnone]
    refine ⟨_, excerptDetail_of_redact status hout, ?_⟩
    rw [← heq]
    exact .excerpt hcut

variable (lib) in
/-- **Redaction is total and bounded.** On every text it ends, no slice falls within a character
and no assertion fails; every sensitive pair of what comes out has exactly the marker as its value;
and the detail of a failure is made of excerpts of at most 256 characters. -/
theorem redaction_total_and_bounded :
    (∀ text, ∃ out, Sliced.redact lib (bytes text) = .ok (utf8 out) ∧
      ∀ before key value, key ∈ sensitiveFormKeys → boundaryBefore before = true →
        out = before ++ key ++ '=' :: value → value.takeWhile (fun c => c != '&') = redacted) ∧
    ∀ status body, status.isSuccess = false → ∃ detail,
      errorDetail lib status body = .ok detail ∧ DetailOf lib status body detail := by
  refine ⟨fun text => ?_, fun status body hstatus => errorDetail_total hstatus body⟩
  obtain ⟨out, hout, hmasked⟩ := redact_total lib text.toList
  have hsliced := Sliced.redact_utf8 hout
  rw [utf8_toList] at hsliced
  refine ⟨out, hsliced, fun before key value hkey hprev heq => ?_⟩
  refine hmasked before key value hkey ?_ ?_
  · rwa [boundaryBefore_eq, ← Option.or_none (o := before.getLast?)] at hprev
  · rw [heq, assigned, List.append_assoc, List.append_assoc, List.singleton_append]

/-- A failure whose body is no error object has a detail. -/
theorem redaction_total_and_bounded_page : ∃ detail,
    errorDetail assertionLibrary badRequest "token=s3cr3t" = .ok detail ∧
      DetailOf assertionLibrary badRequest "token=s3cr3t" detail :=
  (redaction_total_and_bounded assertionLibrary).2 badRequest "token=s3cr3t" rfl

end OidcExchange
