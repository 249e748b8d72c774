import OidcExchange.Analysis.LeakedCredentials
import OidcExchange.Texts.Base64Url
import OidcExchange.Texts.Bytewise
import OidcExchange.Texts.Runs
import OidcExchange.Texts.Slices

/-!
# When a bare assertion is masked

The pass that masks bare assertions looks at whole runs of the characters that assertions have. A
full stop is one of these, so that an assertion beside one is no run of its own, and is shown.
-/

set_option autoImplicit false

namespace OidcExchange

open Texts

/-- A character of a segment. -/
def inSegment (c : Char) : Bool := c.isAlphanum || c = '_' || c = '-'

/-- Three base64url segments of four characters or more, of which the first is the bytes of a text
that begins with a brace. -/
def CompactJws (lib : UpstreamLibrary) (token : List Char) : Prop :=
  ∃ header payload signature,
    token = header ++ '.' :: (payload ++ '.' :: signature) ∧
    (∀ segment ∈ [header, payload, signature], minJwsSegmentLen ≤ segment.length ∧
      ∀ c ∈ segment, inSegment c = true) ∧
    ∃ text, lib.decodeUrlSafe header = some (utf8 ('\x7b' :: text))

/-- No assertion goes on over the character. -/
def endsRun (c : Char) : Bool := !inJwsCharset c

/-- The runs that the pass looks at. -/
def jwsRuns (text : List Char) : List (List Char) := text.splitOnP endsRun

/-- No character of a segment stands next to the token. -/
abbrev Delimited : List Char → List Char → Prop := SeparatedBy fun c => !inSegment c

/-! ## Runs that are masked -/

theorem inJwsCharset_eq (c : Char) : inJwsCharset c = (inSegment c || decide (c = '.')) := rfl

theorem endsRun_eq_false {c : Char} : endsRun c = false ↔ inJwsCharset c = true := by
  rw [endsRun, Bool.not_eq_false']

theorem endsRun_eq_true {c : Char} : endsRun c = true ↔ inJwsCharset c = false := by
  rw [endsRun, Bool.not_eq_true']

theorem dot_notMem_segment {segment : List Char} (h : ∀ c ∈ segment, inSegment c = true) :
    '.' ∉ segment :=
  fun hmem => absurd (h '.' hmem) (by decide)

theorem ascii_segment {segment : List Char} (h : ∀ c ∈ segment, inSegment c = true) :
    Ascii segment := by
  intro c hc
  have hin := h c hc
  rw [inSegment] at hin
  delta Char.isAlphanum Char.isAlpha Char.isUpper Char.isLower Char.isDigit at hin
  simp only [Bool.or_eq_true, Bool.and_eq_true, decide_eq_true_eq, UInt32.le_iff_toNat_le] at hin
  obtain ((((h | h) | h) | rfl) | rfl) := hin
  · exact Nat.lt_of_le_of_lt h.2 (by decide)
  · exact Nat.lt_of_le_of_lt h.2 (by decide)
  · exact Nat.lt_of_le_of_lt h.2 (by decide)
  · decide
  · decide

theorem length_utf8_of_ascii {cs : List Char} (h : Ascii cs) : (utf8 cs).length = cs.length := by
  induction cs with
  | nil => rfl
  | cons c cs ih =>
    obtain ⟨hc, hcs⟩ := ascii_cons.mp h
    rw [utf8_cons_of_ascii hc, List.length_cons, List.length_cons, ih hcs]

/-- The parts between two full stops. -/
theorem splitOn_eq_three {candidate a b c : List Char} :
    candidate.splitOn '.' = [a, b, c] ↔
      candidate = a ++ '.' :: (b ++ '.' :: c) ∧ '.' ∉ a ∧ '.' ∉ b ∧ '.' ∉ c := by
  constructor
  · intro h
    have hno : ∀ part ∈ [a, b, c], '.' ∉ part := by
      intro part hpart hmem
      have hrun : part ∈ candidate.splitOnP (· == '.') := by
        rw [← List.splitOn_eq_splitOnP, h]
        exact hpart
      exact absurd ((exists_of_mem_runs hrun).1 '.' hmem) (by decide)
    have hwhole : ['.'].intercalate (candidate.splitOn '.') = candidate :=
      List.intercalate_splitOn '.'
    rw [h] at hwhole
    refine ⟨?_, hno a (by simp), hno b (by simp), hno c (by simp)⟩
    rw [← hwhole]
    simp [List.intercalate]
  · rintro ⟨rfl, ha, hb, hc⟩
    rw [List.splitOn_append_cons_self_of_not_mem ha, List.splitOn_append_cons_self_of_not_mem hb,
      List.splitOn_eq_singleton hc]

/-- Bytes are a text that begins with a brace exactly if they are those of one. -/
theorem opens_with_brace_iff {bs : List UInt8} :
    (isUtf8 bs && decide (bs.head? = some 0x7B)) = true ↔
      ∃ text, bs = utf8 ('\x7b' :: text) := by
  rw [Bool.and_eq_true, isUtf8_iff, decide_eq_true_eq]
  constructor
  · rintro ⟨⟨cs, rfl⟩, hhead⟩
    cases cs with
    | nil => cases hhead
    | cons c cs =>
      obtain ⟨b, rest, hchar, -⟩ := Lossy.begins_utf8EncodeChar c
      rw [utf8_cons, hchar, List.cons_append, List.head?_cons] at hhead
      have hmem : (0x7B : UInt8) ∈ String.utf8EncodeChar c := by
        rw [hchar, Option.some.inj hhead]
        exact List.mem_cons_self
      have hc := Lossy.eq_of_mem_utf8EncodeChar (by decide) hmem
      exact ⟨cs, by rw [hc]; rfl⟩
  · rintro ⟨text, rfl⟩
    refine ⟨⟨_, rfl⟩, ?_⟩
    rw [utf8_cons_of_ascii (by decide)]
    rfl

variable {lib : UpstreamLibrary}

/-- What the pass looks at in a run. -/
theorem shape_iff {segments : List (List Char)} :
    (∀ segment ∈ segments, minJwsSegmentLen ≤ segment.length ∧
      ∀ c ∈ segment, inSegment c = true) ↔
    (segments.all fun part => minJwsSegmentLen ≤ (utf8 part).length &&
      part.all fun c => c.isAlphanum || c = '_' || c = '-') = true := by
  rw [List.all_eq_true]
  refine forall₂_congr fun segment _ => ?_
  rw [Bool.and_eq_true, decide_eq_true_eq, List.all_eq_true]
  refine ⟨fun ⟨hlen, hin⟩ => ⟨?_, hin⟩, fun ⟨hlen, hin⟩ => ⟨?_, hin⟩⟩
  · rwa [length_utf8_of_ascii (ascii_segment hin)]
  · rwa [length_utf8_of_ascii (ascii_segment hin)] at hlen

theorem pushJwsChecked_of_compact {candidate : List Char} (h : CompactJws lib candidate) :
    pushJwsChecked lib candidate = redacted := by
  obtain ⟨header, payload, signature, hcandidate, hshape, text, hheader⟩ := h
  have hno : ∀ segment ∈ [header, payload, signature], '.' ∉ segment :=
    fun segment hmem => dot_notMem_segment (hshape segment hmem).2
  have hparts : candidate.splitOn '.' = [header, payload, signature] :=
    splitOn_eq_three.mpr ⟨hcandidate, hno header (by simp), hno payload (by simp),
      hno signature (by simp)⟩
  have hbrace := opens_with_brace_iff.mpr ⟨text, rfl⟩
  rw [pushJwsChecked, hparts]
  dsimp only
  rw [if_pos ⟨rfl, shape_iff.mp hshape⟩, List.head?_cons, Option.bind_some, hheader]
  dsimp only
  rw [if_pos hbrace]

theorem compact_of_pushJwsChecked {candidate : List Char}
    (h : pushJwsChecked lib candidate ≠ candidate) : CompactJws lib candidate := by
  rw [pushJwsChecked] at h
  dsimp only at h
  split at h
  · rename_i hshape
    obtain ⟨header, payload, signature, hparts⟩ := List.length_eq_three.mp hshape.1
    obtain ⟨hcandidate, -⟩ := splitOn_eq_three.mp hparts
    rw [hparts] at hshape h
    refine ⟨header, payload, signature, hcandidate, shape_iff.mpr hshape.2, ?_⟩
    rw [List.head?_cons, Option.bind_some] at h
    cases hheader : lib.decodeUrlSafe header with
    | none =>
      rw [hheader] at h
      exact absurd rfl h
    | some bs =>
      rw [hheader] at h
      dsimp only at h
      split at h
      · rename_i hbrace
        obtain ⟨text, rfl⟩ := opens_with_brace_iff.mp hbrace
        exact ⟨text, rfl⟩
      · exact absurd rfl h
  · exact absurd rfl h

/-! ## What an assertion consists of -/

theorem CompactJws.count_dot {token : List Char} (h : CompactJws lib token) :
    token.count '.' = 2 := by
  obtain ⟨header, payload, signature, rfl, hshape, -⟩ := h
  have hzero : ∀ segment ∈ [header, payload, signature], segment.count '.' = 0 :=
    fun segment hmem => List.count_eq_zero.mpr (dot_notMem_segment (hshape segment hmem).2)
  rw [List.count_append, List.count_cons_self, List.count_append, List.count_cons_self,
    hzero header (by simp), hzero payload (by simp), hzero signature (by simp)]

theorem CompactJws.unseparated {token : List Char} (h : CompactJws lib token) :
    Unseparated endsRun token := by
  obtain ⟨header, payload, signature, rfl, hshape, -⟩ := h
  have hsegment : ∀ segment ∈ [header, payload, signature], ∀ c ∈ segment,
      endsRun c = false := by
    intro segment hmem c hc
    rw [endsRun, inJwsCharset_eq, (hshape segment hmem).2 c hc]
    rfl
  intro c hc
  rw [List.mem_append, List.mem_cons, List.mem_append, List.mem_cons] at hc
  obtain hc | rfl | hc | rfl | hc := hc
  · exact hsegment header (by simp) c hc
  · rfl
  · exact hsegment payload (by simp) c hc
  · rfl
  · exact hsegment signature (by simp) c hc

/-- An assertion is longer than what it is replaced by. -/
theorem CompactJws.length_redacted_le {token : List Char} (h : CompactJws lib token) :
    redacted.length ≤ token.length := by
  obtain ⟨header, payload, signature, rfl, hshape, -⟩ := h
  have hheader := (hshape header (by simp)).1
  have hpayload := (hshape payload (by simp)).1
  have hsignature := (hshape signature (by simp)).1
  have hredacted : redacted.length = 10 := rfl
  simp only [List.length_append, List.length_cons, minJwsSegmentLen] at hheader hpayload hsignature ⊢
  omega

/-- No assertion is in what one is replaced by. -/
theorem CompactJws.not_infix_redacted {token : List Char} (h : CompactJws lib token) :
    ¬token <:+: redacted := by
  intro hin
  have hdot : '.' ∈ token := List.count_pos_iff.mp (by rw [h.count_dot]; decide)
  exact absurd (hin.subset hdot) (by decide)

/-- A longer word with another full stop is in no assertion. -/
theorem not_compact_of_infix {word run : List Char} (hdots : 2 < word.count '.')
    (hin : word <:+: run) : ¬CompactJws lib run := by
  intro hrun
  have hle : word.count '.' ≤ run.count '.' := hin.sublist.count_le '.'
  rw [hrun.count_dot] at hle
  exact absurd hdots (Nat.not_lt.mpr hle)

/-! ## The pass, run by run -/

theorem maskRuns_some (begun : List Char) {run : List Char}
    (hrun : Unseparated endsRun run) :
    maskRuns lib (some begun) run = pushJwsChecked lib (begun ++ run) := by
  induction run generalizing begun with
  | nil => rw [maskRuns, List.append_nil]
  | cons c run ih =>
    have hc : inJwsCharset c = true := endsRun_eq_false.mp (hrun c List.mem_cons_self)
    rw [maskRuns, if_pos hc, ih _ fun x hx => hrun x (List.mem_cons_of_mem c hx),
      Option.getD_some, List.append_assoc, List.singleton_append]

/-- A run is looked at as a whole. -/
theorem maskRuns_run {run : List Char} (hrun : Unseparated endsRun run) :
    maskRuns lib none run = pushJwsChecked lib run := by
  cases run with
  | nil => rw [maskRuns, pushJwsChecked_of_no_dot lib (by simp)]
  | cons c run =>
    have hc : inJwsCharset c = true := endsRun_eq_false.mp (hrun c List.mem_cons_self)
    rw [maskRuns, if_pos hc, maskRuns_some _ fun x hx => hrun x (List.mem_cons_of_mem c hx)]
    rfl

theorem maskRuns_more {run : List Char} (hrun : Unseparated endsRun run)
    {c : Char} (hc : endsRun c = true) (rest : List Char) :
    maskRuns lib none (run ++ c :: rest) =
      pushJwsChecked lib run ++ c :: maskRuns lib none rest := by
  rw [maskRuns_append lib none run (endsRun_eq_true.mp hc), maskRuns_run hrun]

theorem length_pushJwsChecked_le (candidate : List Char) :
    (utf8 (pushJwsChecked lib candidate)).length ≤ (utf8 candidate).length := by
  by_cases hsame : pushJwsChecked lib candidate = candidate
  · rw [hsame]
  · have hcompact : CompactJws lib candidate := compact_of_pushJwsChecked hsame
    rw [pushJwsChecked_of_compact hcompact]
    exact Nat.le_trans hcompact.length_redacted_le (length_le_utf8 candidate)

/-- The pass never makes a text longer. -/
theorem length_maskRuns_le (text : List Char) :
    (utf8 (maskRuns lib none text)).length ≤ (utf8 text).length := by
  induction text using runs_induction endsRun with
  | last run hrun =>
    rw [maskRuns_run hrun]
    exact length_pushJwsChecked_le run
  | more run c rest hrun hc ih =>
    rw [maskRuns_more hrun hc, utf8_append, utf8_append, List.length_append, List.length_append,
      length_utf8_cons, length_utf8_cons]
    exact Nat.add_le_add (length_pushJwsChecked_le run) (Nat.add_le_add_left ih _)

/-- The assertion of the pass holds for every text. -/
theorem maskCompactJws_eq (text : List Char) :
    maskCompactJws lib text = .ok (maskRuns lib none text) := by
  rw [maskCompactJws, assertThat, decide_eq_true (length_maskRuns_le text)]
  rfl

/-- An assertion is shown exactly in the runs that hold it and are none. -/
theorem infix_maskRuns_iff {token : List Char} (htoken : CompactJws lib token)
    (text : List Char) : token <:+: maskRuns lib none text ↔
      ∃ run ∈ jwsRuns text, token <:+: run ∧ ¬CompactJws lib run := by
  have hpush : ∀ run, token <:+: pushJwsChecked lib run ↔
      token <:+: run ∧ ¬CompactJws lib run := by
    intro run
    by_cases hrun : CompactJws lib run
    · rw [pushJwsChecked_of_compact hrun]
      exact iff_of_false htoken.not_infix_redacted fun h => h.2 hrun
    · have hsame : pushJwsChecked lib run = run :=
        not_not.mp fun hne => hrun (compact_of_pushJwsChecked hne)
      rw [hsame, and_iff_left hrun]
  induction text using runs_induction endsRun with
  | last run hrun =>
    rw [maskRuns_run hrun, hpush, jwsRuns, List.splitOnP_eq_singleton hrun]
    simp only [List.mem_singleton, exists_eq_left]
  | more run c rest hrun hc ih =>
    have hnot : c ∉ token := fun hmem => by
      have hfalse := htoken.unseparated c hmem
      rw [hc] at hfalse
      cases hfalse
    have hrest : token <:+: maskRuns lib none rest ↔
      ∃ run ∈ jwsRuns rest, token <:+: run ∧ ¬CompactJws lib run := ih
    rw [maskRuns_more hrun hc, infix_append_cons_iff hnot, hrest, hpush, jwsRuns, jwsRuns,
      List.splitOnP_append_cons_of_forall_mem hrun c hc]
    simp only [List.mem_cons, exists_eq_or_imp]

/-- A text whose runs are no assertions is kept. -/
theorem maskRuns_eq_self {text : List Char} (h : ∀ run ∈ jwsRuns text, ¬CompactJws lib run) :
    maskRuns lib none text = text := by
  have hpush : ∀ run, ¬CompactJws lib run → pushJwsChecked lib run = run :=
    fun run hrun => not_not.mp fun hne => hrun (compact_of_pushJwsChecked hne)
  induction text using runs_induction endsRun with
  | last run hrun =>
    rw [jwsRuns, List.splitOnP_eq_singleton hrun] at h
    rw [maskRuns_run hrun, hpush run (h run (List.mem_singleton_self run))]
  | more run c rest hrun hc ih =>
    rw [jwsRuns, List.splitOnP_append_cons_of_forall_mem hrun c hc] at h
    rw [maskRuns_more hrun hc, hpush run (h run List.mem_cons_self),
      ih fun piece hpiece => h piece (List.mem_cons_of_mem run hpiece)]

/-! ## Assertions in a text -/

/-- Beside a full stop, an assertion is shown. -/
theorem infix_maskRuns_of_stop {token word text : List Char} (htoken : CompactJws lib token)
    (hword : word = '.' :: token ∨ word = token ++ ['.']) (hin : word <:+: text) :
    token <:+: maskRuns lib none text := by
  have hdots : 2 < word.count '.' := by
    obtain rfl | rfl := hword
    · rw [List.count_cons_self, htoken.count_dot]
      decide
    · rw [List.count_append, htoken.count_dot]
      decide
  have hunseparated : Unseparated endsRun word := by
    intro c hc
    have hmem : c = '.' ∨ c ∈ token := by
      obtain rfl | rfl := hword
      · exact List.mem_cons.mp hc
      · exact (List.mem_append.mp hc).symm.imp_left List.mem_singleton.mp
    obtain rfl | hmem := hmem
    · rfl
    · exact htoken.unseparated c hmem
  have hsub : token <:+: word := by
    obtain rfl | rfl := hword
    · exact List.infix_cons (List.infix_refl token)
    · exact List.infix_append_left
  obtain ⟨run, hrun, hinrun⟩ := (infix_iff_run hunseparated text).mp hin
  exact (infix_maskRuns_iff htoken text).mpr
    ⟨run, hrun, hsub.trans hinrun, not_compact_of_infix hdots hinrun⟩

/-- Without full stops beside it, a delimited assertion is a run. -/
theorem Delimited.separatedBy {before after : List Char} (h : Delimited before after)
    (hbefore : before.getLast? ≠ some '.') (hafter : after.head? ≠ some '.') :
    SeparatedBy endsRun before after := by
  have hends : ∀ c, (!inSegment c) = true → c ≠ '.' → endsRun c = true := by
    intro c hc hne
    rw [endsRun, inJwsCharset_eq, (Bool.not_eq_true' _).mp hc, decide_eq_false hne]
    rfl
  refine ⟨fun c hc => hends c (h.before c hc) ?_, fun c hc => hends c (h.after c hc) ?_⟩
  · rintro rfl
    exact hbefore hc
  · rintro rfl
    exact hafter hc

/-- The pass leaves no token in the text. -/
def Hidden (lib : UpstreamLibrary) (token text : List Char) : Prop :=
  ∃ out, maskCompactJws lib text = .ok out ∧ ¬token <:+: out

theorem hidden_iff {token text : List Char} :
    Hidden lib token text ↔ ¬token <:+: maskRuns lib none text := by
  rw [Hidden, maskCompactJws_eq]
  exact ⟨fun ⟨_, hout, h⟩ => Except.ok.inj hout ▸ h, fun h => ⟨_, rfl, h⟩⟩

variable (lib) in
/-- **A delimited assertion is masked exactly if no full stop is beside it** and every other run
that holds it is an assertion; and a text without delimited assertions is kept. -/
theorem bare_assertion_hidden_iff :
    (∀ token before after, CompactJws lib token → Delimited before after →
      (Hidden lib token (before ++ token ++ after) ↔
        before.getLast? ≠ some '.' ∧ after.head? ≠ some '.' ∧
          ∀ run, run ∈ jwsRuns before ∨ run ∈ jwsRuns after → token <:+: run →
            CompactJws lib run)) ∧
    ∀ text, (∀ token before after, text = before ++ token ++ after → Delimited before after →
      ¬CompactJws lib token) → maskCompactJws lib text = .ok text := by
  constructor
  · intro token before after htoken hdelimited
    rw [hidden_iff]
    by_cases hbefore : before.getLast? = some '.'
    · refine iff_of_false (fun h => h ?_) fun h => h.1 hbefore
      obtain ⟨front, rfl⟩ := List.getLast?_eq_some_iff.mp hbefore
      refine infix_maskRuns_of_stop htoken (Or.inl rfl) ⟨front, after, ?_⟩
      rw [List.append_assoc front ['.'], List.singleton_append]
    by_cases hafter : after.head? = some '.'
    · refine iff_of_false (fun h => h ?_) fun h => h.2.1 hafter
      obtain ⟨rest, rfl⟩ := List.head?_eq_some_iff.mp hafter
      refine infix_maskRuns_of_stop htoken (Or.inr rfl) ⟨before, rest, ?_⟩
      rw [← List.append_assoc before, List.append_assoc, List.singleton_append]
    have haround := hdelimited.separatedBy hbefore hafter
    rw [infix_maskRuns_iff htoken, and_iff_right hbefore, and_iff_right hafter]
    have hruns : ∀ run, token <:+: run → (run ∈ jwsRuns (before ++ token ++ after) ↔
        run ∈ jwsRuns before ∨ run = token ∨ run ∈ jwsRuns after) := by
      intro run hin
      refine mem_runs_around htoken.unseparated haround ?_
      rintro rfl
      have hdots := htoken.count_dot
      rw [List.infix_nil.mp hin] at hdots
      cases hdots
    constructor
    · intro h run hrun hin
      by_contra hcompact
      exact h ⟨run, (hruns run hin).mpr (hrun.imp_right Or.inr), hin, hcompact⟩
    · rintro h ⟨run, hrun, hin, hcompact⟩
      obtain hrun | rfl | hrun := (hruns run hin).mp hrun
      · exact hcompact (h run (Or.inl hrun) hin)
      · exact hcompact htoken
      · exact hcompact (h run (Or.inr hrun) hin)
  · intro text hnone
    have hruns : ∀ run ∈ jwsRuns text, ¬CompactJws lib run := by
      intro run hrun
      obtain ⟨-, before, after, htext, haround⟩ := exists_of_mem_runs hrun
      refine hnone run before after htext ⟨fun c hc => ?_, fun c hc => ?_⟩
      · have hout := haround.before c hc
        rw [endsRun, inJwsCharset_eq, Bool.not_eq_true', Bool.or_eq_false_iff] at hout
        rw [hout.1]
        rfl
      · have hout := haround.after c hc
        rw [endsRun, inJwsCharset_eq, Bool.not_eq_true', Bool.or_eq_false_iff] at hout
        rw [hout.1]
        rfl
    rw [maskCompactJws_eq, maskRuns_eq_self hruns]

/-- The packages as they are for texts without numbers, the status 400 and short segments. -/
def assertionLibrary : UpstreamLibrary :=
  { plainLibrary with decodeUrlSafe := Base64Url.decode }

def bareAssertion : List Char := "eyJh.bbbb.cccc".toList

theorem bareAssertion_compact : CompactJws assertionLibrary bareAssertion := by
  refine ⟨"eyJh".toList, "bbbb".toList, "cccc".toList, rfl, by decide, "\"a".toList, ?_⟩
  decide

/-- An assertion in quotes is masked. -/
theorem bare_assertion_hidden_quoted :
    Hidden assertionLibrary bareAssertion (['"'] ++ bareAssertion ++ ['"']) := by
  refine ((bare_assertion_hidden_iff assertionLibrary).1 bareAssertion ['"'] ['"']
    bareAssertion_compact (separatedBy_singletons rfl rfl)).mpr ⟨by decide, by decide, ?_⟩
  intro run hrun hin
  exfalso
  have hempty : run = [] := by
    rw [or_self] at hrun
    have hruns : jwsRuns ['"'] = [[], []] := by decide
    rw [hruns] at hrun
    simpa using hrun
  rw [hempty, List.infix_nil] at hin
  cases hin

/-- An assertion at the end of a sentence is shown. -/
theorem bare_assertion_shown :
    CompactJws assertionLibrary bareAssertion ∧ Delimited [' '] ['.'] ∧
      ¬Hidden assertionLibrary bareAssertion ([' '] ++ bareAssertion ++ ['.']) := by
  refine ⟨bareAssertion_compact, separatedBy_singletons rfl rfl, ?_⟩
  rw [hidden_iff, not_not]
  exact infix_maskRuns_of_stop bareAssertion_compact (Or.inr rfl) ⟨[' '], [], by simp⟩

end OidcExchange
