import Mathlib.Tactic.IntervalCases
import OidcExchange.Texts.Json

/-!
# Writing JSON objects of strings

A string is written in quotes with its quotes, backslashes and control characters escaped, and an
object of strings without white space. Every reader of JSON texts reads what is written: the members
in their order, each with the name and the content it was written from.
-/

set_option autoImplicit false

namespace Texts

namespace Json

/-! ## Strings -/

/-- A hexadecimal digit. -/
def hexChar (n : ℕ) : Char := "0123456789abcdef".toList.getD n '0'

/-- A character within quotes. -/
def escape (c : Char) : List Char :=
  if c = '"' then ['\\', '"']
  else if c = '\\' then ['\\', '\\']
  else if c = '\x08' then ['\\', 'b']
  else if c = '\t' then ['\\', 't']
  else if c = '\n' then ['\\', 'n']
  else if c = '\x0C' then ['\\', 'f']
  else if c = '\r' then ['\\', 'r']
  else if c.val < 0x20 then
    ['\\', 'u', '0', '0', hexChar (c.toNat / 16), hexChar (c.toNat % 16)]
  else [c]

/-- A string in quotes. -/
def quote (content : List Char) : List Char := '"' :: (content.flatMap escape ++ ['"'])

/-- What is written in a string stands where the string began. -/
theorem lex_text_prefix (before : List Char) {done after : List Char} {e e' : Escape}
    {cs : List Char} (h : lex (.text done e) cs = some ([], .text after e')) :
    lex (.text (before ++ done) e) cs = some ([], .text (before ++ after) e') := by
  induction cs generalizing done e with
  | nil =>
    rw [lex] at h ⊢
    cases h
    rfl
  | cons c cs ih =>
    rw [lex, lexStep] at h ⊢
    cases hstep : inText e c with
    | none =>
      rw [hstep] at h
      cases h
    | some inside =>
      rw [hstep] at h
      rcases inside with _ | ⟨added, e''⟩
      · obtain ⟨r, -, hr⟩ := Option.map_eq_some_iff.mp h
        exact absurd (congrArg Prod.fst hr) (by simp)
      · have hinside : lex (.text (done ++ added) e'') cs = some ([], .text after e') := by
          simpa using h
        simpa [List.append_assoc] using ih hinside

theorem Literal.append {raw raw' content content' : List Char} (h : Literal raw content)
    (h' : Literal raw' content') : Literal (raw ++ raw') (content ++ content') := by
  have hsecond := lex_text_prefix content h'
  rw [List.append_nil] at hsecond
  rw [Literal, lex_append, h, Option.bind_some, hsecond]
  rfl

/-- The control characters. -/
theorem literal_control : ∀ n < 32, Literal (escape (Char.ofNat n)) [Char.ofNat n] := by
  intro n hn
  interval_cases n <;> rfl

/-- An escaped character stands for that character. -/
theorem literal_escape (c : Char) : Literal (escape c) [c] := by
  by_cases hcontrol : c.val < 0x20
  · have hc : c = Char.ofNat c.toNat := (Char.ofNat_toNat c).symm
    rw [hc]
    apply literal_control
    rw [UInt32.lt_iff_toNat_lt] at hcontrol
    exact hcontrol
  · by_cases hquote : c = '"'
    · rw [hquote]
      rfl
    · by_cases hslash : c = '\\'
      · rw [hslash]
        rfl
      · have hne : ∀ d : Char, d.val < 0x20 → c ≠ d := by
          intro d hd heq
          exact hcontrol (heq ▸ hd)
        rw [escape, if_neg hquote, if_neg hslash, if_neg (hne _ (by decide)),
          if_neg (hne _ (by decide)), if_neg (hne _ (by decide)), if_neg (hne _ (by decide)),
          if_neg (hne _ (by decide)), if_neg hcontrol]
        apply literal_of_plain
        intro d hd
        obtain rfl := List.mem_singleton.mp hd
        exact ⟨hquote, hslash, hcontrol⟩

theorem literal_flatMap_escape (content : List Char) :
    Literal (content.flatMap escape) content := by
  induction content with
  | nil => rfl
  | cons c content ih => exact (literal_escape c).append ih

/-- What is quoted is one token. -/
theorem tokens_quote (content rest : List Char) :
    tokens .gap (quote content ++ rest) = (tokens .gap rest).map (.text content :: ·) := by
  have htext := tokens_literal (literal_flatMap_escape content) rest
  simpa only [quote, List.cons_append, List.append_assoc, List.nil_append] using htext

/-! ## Objects -/

/-- A member: its name and its content in quotes. -/
def writeMember (m : List Char × List Char) : List Char := quote m.1 ++ ':' :: quote m.2

/-- An object of strings. -/
def writeObject : List (List Char × List Char) → List Char
  | [] => ['{', '}']
  | m :: ms => '{' :: (writeMember m ++ (ms.flatMap (fun m => ',' :: writeMember m) ++ ['}']))

/-- The tokens of a member. -/
def memberTokens (m : List Char × List Char) : List (Token (List Char)) :=
  [.text m.1, .colon, .text m.2]

theorem tokens_punctuation {c : Char} {token : Token (List Char)}
    (h : lexStep .gap c = some ([token], .gap)) (rest : List Char) :
    tokens .gap (c :: rest) = (tokens .gap rest).map (token :: ·) := by
  rw [tokens_cons, h]
  rfl

theorem tokens_writeMember (m : List Char × List Char) (rest : List Char) :
    tokens .gap (writeMember m ++ rest) = (tokens .gap rest).map (memberTokens m ++ ·) := by
  rw [writeMember, List.append_assoc, tokens_quote, List.cons_append, tokens_colon, tokens_quote,
    Option.map_map, Option.map_map]
  rfl

theorem tokens_members (ms : List (List Char × List Char)) (rest : List Char) :
    tokens .gap (ms.flatMap (fun m => ',' :: writeMember m) ++ rest) =
      (tokens .gap rest).map (ms.flatMap (fun m => .comma :: memberTokens m) ++ ·) := by
  induction ms with
  | nil => simp
  | cons m ms ih =>
    have hcomma : lexStep .gap ',' = some ([.comma], .gap) := rfl
    rw [List.flatMap_cons, List.cons_append, List.cons_append, List.append_assoc,
      tokens_punctuation hcomma, tokens_writeMember, ih, Option.map_map, Option.map_map]
    simp [Function.comp_def]

section Reading

variable {V : Type} (B : Builder (List Char) V) (limit : ℕ)

/-- The members of an object, one after another. -/
def buildMembers (ms : List (List Char × List Char)) (done : B.Members) : B.Members :=
  ms.foldl (fun done m => B.member done m.1 (B.text m.2)) done

/-- Reading members after others. -/
theorem foldlM_members (ms : List (List Char × List Char)) (done : B.Members) :
    (ms.flatMap fun m => .comma :: memberTokens m).foldlM (readStep limit)
        (.reading [.members done] .separator : State B) =
      some (.reading [.members (buildMembers B ms done)] .separator) := by
  induction ms generalizing done with
  | nil => rfl
  | cons m ms ih =>
    rw [List.flatMap_cons, List.foldlM_append]
    exact ih (B.member done m.1 (B.text m.2))

variable {limit}

/-- **What is written is read**: an object of strings, with its members in their order. -/
theorem parse_writeObject (hlimit : 1 < limit) (ms : List (List Char × List Char)) :
    parse B limit (writeObject ms) = some (B.object (buildMembers B ms B.noMembers)) := by
  have hopen : lexStep .gap '{' = some ([.openObject], .gap) := rfl
  have hclose : tokens .gap ['}'] = some [.closeObject] := rfl
  have hopened : readStep limit (.reading [] .value : State B) .openObject =
      some (.reading [.members B.noMembers] .firstName) := if_pos hlimit
  cases ms with
  | nil =>
    have htokens : tokens .gap (writeObject []) = some [.openObject, .closeObject] := rfl
    rw [parse, htokens, Option.bind_some, read, List.foldlM_cons, hopened]
    rfl
  | cons m ms =>
    have htokens : tokens .gap (writeObject (m :: ms)) =
        some (.openObject :: (memberTokens m ++
          (ms.flatMap (fun m => .comma :: memberTokens m) ++ [.closeObject]))) := by
      rw [writeObject, tokens_punctuation hopen, tokens_writeMember, tokens_members, hclose]
      rfl
    have hfirst : (memberTokens m).foldlM (readStep limit)
        (.reading [.members B.noMembers] .firstName : State B) =
          some (.reading [.members (B.member B.noMembers m.1 (B.text m.2))] .separator) := rfl
    have hrest := foldlM_members B limit ms (B.member B.noMembers m.1 (B.text m.2))
    rw [parse, htokens, Option.bind_some, read, List.foldlM_cons, hopened, Option.bind_eq_bind,
      Option.bind_some, List.foldlM_append, hfirst, Option.bind_eq_bind, Option.bind_some,
      List.foldlM_append, hrest]
    rfl

end Reading

end Json

end Texts
