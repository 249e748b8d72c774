import Mathlib.Data.List.Basic

/-!
# JSON texts

A text is split into tokens character by character, and tokens are read by a machine with a stack
of the arrays and objects that are still open. What is read is given to a builder; a map between
two builders carries what one reads to what the other reads.
-/

set_option autoImplicit false

namespace Texts

namespace Json

/-! ## Tokens -/

/-- A token, with what stands for the content of a string. -/
inductive Token (σ : Type) : Type
  | openArray
  | closeArray
  | openObject
  | closeObject
  | colon
  | comma
  | word (letters : List Char)
  | text (content : σ)

/-- A token with the content of its string replaced. -/
def Token.map {σ τ : Type} (f : σ → τ) : Token σ → Token τ
  | openArray => openArray
  | closeArray => closeArray
  | openObject => openObject
  | closeObject => closeObject
  | colon => colon
  | comma => comma
  | word letters => word letters
  | text content => text (f content)

/-- The white space between tokens. -/
def isSpace (c : Char) : Bool := c = ' ' || c = '\t' || c = '\n' || c = '\r'

/-- The characters of numbers and of the words for truth values and null. -/
def isWordChar (c : Char) : Bool := c.isAlphanum || c = '+' || c = '-' || c = '.'

/-- The token of one character. -/
def punctuation {σ : Type} (c : Char) : Option (Token σ) :=
  if c = '[' then some .openArray
  else if c = ']' then some .closeArray
  else if c = '{' then some .openObject
  else if c = '}' then some .closeObject
  else if c = ':' then some .colon
  else if c = ',' then some .comma
  else none

/-- Where a string is: at a character, after a backslash, within the four digits of a code unit
(after a high surrogate or not), or before the backslash and the letter of the low surrogate that
a high one needs. -/
inductive Escape : Type
  | plain
  | backslash
  | unit (high : Option ℕ) (digits : List ℕ)
  | second (high : ℕ)
  | secondUnit (high : ℕ)

/-- The character that a letter after a backslash stands for. -/
def escaped (c : Char) : Option Char :=
  if c = '"' || c = '\\' || c = '/' then some c
  else if c = 'b' then some '\x08'
  else if c = 'f' then some '\x0C'
  else if c = 'n' then some '\n'
  else if c = 'r' then some '\r'
  else if c = 't' then some '\t'
  else none

/-- The value of a hexadecimal digit. -/
def hexDigit (c : Char) : Option ℕ :=
  if '0' ≤ c ∧ c ≤ '9' then some (c.toNat - 48)
  else if 'a' ≤ c ∧ c ≤ 'f' then some (c.toNat - 87)
  else if 'A' ≤ c ∧ c ≤ 'F' then some (c.toNat - 55)
  else none

/-- A whole code unit: a character, the first half of a pair or its second half. -/
def codeUnit (high : Option ℕ) (n : ℕ) : Option (List Char × Escape) :=
  match high with
  | none =>
    if 0xD800 ≤ n ∧ n < 0xDC00 then some ([], .second n)
    else if 0xDC00 ≤ n ∧ n < 0xE000 then none
    else some ([Char.ofNat n], .plain)
  | some h =>
    if 0xDC00 ≤ n ∧ n < 0xE000 then
      some ([Char.ofNat (0x10000 + 0x400 * (h - 0xD800) + (n - 0xDC00))], .plain)
    else none

/-- A character within a string: it is refused, it closes the string, or it adds characters. -/
def inText : Escape → Char → Option (Option (List Char × Escape))
  | .plain, c =>
    if c = '"' then some none
    else if c = '\\' then some (some ([], .backslash))
    else if c.val < 0x20 then none
    else some (some ([c], .plain))
  | .backslash, c =>
    if c = 'u' then some (some ([], .unit none []))
    else (escaped c).map fun d => some ([d], .plain)
  | .unit high digits, c =>
    match hexDigit c with
    | none => none
    | some d =>
      if digits.length < 3 then some (some ([], .unit high (digits ++ [d])))
      else (codeUnit high ((digits ++ [d]).foldl (fun n d => 16 * n + d) 0)).map some
  | .second high, c => if c = '\\' then some (some ([], .secondUnit high)) else none
  | .secondUnit high, c => if c = 'u' then some (some ([], .unit (some high) [])) else none

/-- Where a text is: between tokens, in a word, or in a string. -/
inductive Mode : Type
  | gap
  | word (letters : List Char)
  | text (done : List Char) (escape : Escape)

/-- A character between tokens. -/
def gapStep (c : Char) : Option (List (Token (List Char)) × Mode) :=
  if isSpace c then some ([], .gap)
  else if c = '"' then some ([], .text [] .plain)
  else if isWordChar c then some ([], .word [c])
  else (punctuation c).map fun token => ([token], .gap)

/-- One character: the tokens it completes and where the text is after it. -/
def lexStep : Mode → Char → Option (List (Token (List Char)) × Mode)
  | .gap, c => gapStep c
  | .word letters, c =>
    if isWordChar c then some ([], .word (letters ++ [c]))
    else (gapStep c).map fun r => (.word letters :: r.1, r.2)
  | .text done escape, c =>
    match inText escape c with
    | none => none
    | some none => some ([.text done], .gap)
    | some (some (added, escape)) => some ([], .text (done ++ added) escape)

/-- The tokens that characters complete, and where the text is after them. -/
def lex : Mode → List Char → Option (List (Token (List Char)) × Mode)
  | mode, [] => some ([], mode)
  | mode, c :: cs =>
    (lexStep mode c).bind fun r => (lex r.2 cs).map fun r' => (r.1 ++ r'.1, r'.2)

/-- The tokens that the end of the text completes. -/
def lexEnd : Mode → Option (List (Token (List Char)))
  | .gap => some []
  | .word letters => some [.word letters]
  | .text _ _ => none

/-- The tokens of the rest of a text. -/
def tokens (mode : Mode) (cs : List Char) : Option (List (Token (List Char))) :=
  (lex mode cs).bind fun r => (lexEnd r.2).map (r.1 ++ ·)

theorem lex_append (mode : Mode) (cs cs' : List Char) :
    lex mode (cs ++ cs') =
      (lex mode cs).bind fun r => (lex r.2 cs').map fun r' => (r.1 ++ r'.1, r'.2) := by
  induction cs generalizing mode with
  | nil =>
    rw [List.nil_append, lex, Option.bind_some]
    simp
  | cons c cs ih =>
    rw [List.cons_append, lex, lex]
    cases lexStep mode c with
    | none => rfl
    | some r =>
      rw [Option.bind_some, Option.bind_some, ih]
      cases lex r.2 cs with
      | none => rfl
      | some r' => simp [Function.comp_def]

theorem tokens_append (mode : Mode) (cs cs' : List Char) :
    tokens mode (cs ++ cs') =
      (lex mode cs).bind fun r => (tokens r.2 cs').map (r.1 ++ ·) := by
  rw [tokens, lex_append]
  cases lex mode cs with
  | none => rfl
  | some r =>
    rw [Option.bind_some, Option.bind_some, tokens]
    cases lex r.2 cs' with
    | none => rfl
    | some r' => simp [Function.comp_def]

theorem tokens_cons (mode : Mode) (c : Char) (cs : List Char) :
    tokens mode (c :: cs) = (lexStep mode c).bind fun r => (tokens r.2 cs).map (r.1 ++ ·) := by
  rw [← List.singleton_append, tokens_append, lex]
  cases lexStep mode c with
  | none => rfl
  | some r => simp [lex]

/-- A character that stands for itself in a string. -/
def Plain (c : Char) : Prop := c ≠ '"' ∧ c ≠ '\\' ∧ ¬c.val < 0x20

instance (c : Char) : Decidable (Plain c) :=
  inferInstanceAs (Decidable (c ≠ '"' ∧ c ≠ '\\' ∧ ¬c.val < 0x20))

/-- Plain characters are the content of a string. -/
theorem lex_plain {cs : List Char} (h : ∀ c ∈ cs, Plain c) (done : List Char) :
    lex (.text done .plain) cs = some ([], .text (done ++ cs) .plain) := by
  induction cs generalizing done with
  | nil => rw [List.append_nil, lex]
  | cons c cs ih =>
    obtain ⟨hquote, hslash, hcontrol⟩ := h c List.mem_cons_self
    rw [lex, lexStep, inText, if_neg hquote, if_neg hslash, if_neg hcontrol]
    simp only [Option.bind_some]
    rw [ih (fun c' hc' => h c' (List.mem_cons_of_mem c hc')), List.append_assoc]
    rfl

/-- White space between tokens leaves no trace. -/
theorem tokens_spaces {spaces : List Char} (h : spaces.all isSpace = true) (rest : List Char) :
    tokens .gap (spaces ++ rest) = tokens .gap rest := by
  induction spaces with
  | nil => rfl
  | cons c spaces ih =>
    rw [List.all_cons, Bool.and_eq_true] at h
    rw [List.cons_append, tokens_cons, lexStep, gapStep, if_pos h.1, Option.bind_some, ih h.2]
    simp

/-- The characters between the quotes of a string, and what they stand for. -/
def Literal (raw content : List Char) : Prop :=
  lex (.text [] .plain) raw = some ([], .text content .plain)

theorem Literal.unique {raw content content' : List Char} (h : Literal raw content)
    (h' : Literal raw content') : content = content' := by
  rw [Literal, h'] at h
  cases h
  rfl

theorem literal_of_plain {raw : List Char} (h : ∀ c ∈ raw, Plain c) : Literal raw raw :=
  lex_plain h []

/-- A string in quotes is one token. -/
theorem tokens_literal {raw content : List Char} (h : Literal raw content) (rest : List Char) :
    tokens .gap ('"' :: (raw ++ '"' :: rest)) = (tokens .gap rest).map (.text content :: ·) := by
  have hopen : lexStep .gap '"' = some ([], .text [] .plain) := rfl
  have hclose : lexStep (.text content .plain) '"' = some ([.text content], .gap) := rfl
  rw [tokens_cons, hopen, Option.bind_some, tokens_append, h, Option.bind_some, tokens_cons, hclose]
  simp [Function.comp_def]

theorem tokens_colon (rest : List Char) :
    tokens .gap (':' :: rest) = (tokens .gap rest).map (.colon :: ·) := by
  have hcolon : lexStep .gap ':' = some ([.colon], .gap) := rfl
  rw [tokens_cons, hcolon]
  rfl

/-! ## Strings that differ -/

/-- Two strings of which only the beginnings differ are closed by the same character, and the
tokens from there on are the same. -/
theorem tokens_text_map {τ : Type} {f : List Char → τ} {start start' : List Char}
    (cs added : List Char) (escape : Escape)
    (h : ∀ more, f (start ++ added ++ more) = f (start' ++ added ++ more)) :
    (tokens (.text (start ++ added) escape) cs).map (List.map (Token.map f)) =
      (tokens (.text (start' ++ added) escape) cs).map (List.map (Token.map f)) := by
  induction cs generalizing added escape with
  | nil => rfl
  | cons c cs ih =>
    rw [tokens_cons, tokens_cons, lexStep, lexStep]
    match inText escape c with
    | none => rfl
    | some none =>
      have hsame := h []
      rw [List.append_nil, List.append_nil] at hsame
      rw [Option.bind_some, Option.bind_some, Option.map_map, Option.map_map]
      simp only [Function.comp_def, List.map_append, List.map_cons, List.map_nil, Token.map, hsame]
    | some (some (more, escape')) =>
      have hmore := ih (added ++ more) escape' fun rest => by
        have := h (more ++ rest)
        simpa only [List.append_assoc] using this
      simpa only [Option.bind_some, List.nil_append, Option.map_id', List.append_assoc] using hmore

/-! ## Reading -/

/-- What tokens are read as: words and strings, and arrays and objects that are filled one item
and one member after the other. -/
structure Builder (σ V : Type) : Type 1 where
  Items : Type
  Members : Type
  word : List Char → Option V
  text : σ → V
  noItems : Items
  item : Items → V → Items
  array : Items → V
  noMembers : Members
  member : Members → σ → V → Members
  object : Members → V

section Reading

variable {σ V : Type} (B : Builder σ V)

/-- An array or an object that is open; the name of a member is read before its value. -/
inductive Frame : Type
  | items (done : B.Items)
  | members (done : B.Members)
  | named (done : B.Members) (name : σ)

/-- What may come next. -/
inductive Expects : Type
  | value
  | firstItem
  | firstName
  | name
  | colon
  | separator

/-- How far reading has come. -/
inductive State : Type
  | reading (frames : List (Frame B)) (expects : Expects)
  | finished (v : V)

variable {B}

/-- A whole value: it ends the text, or it goes where it belongs. -/
def put (v : V) : List (Frame B) → Option (State B)
  | [] => some (.finished v)
  | .items done :: rest => some (.reading (.items (B.item done v) :: rest) .separator)
  | .named done name :: rest =>
    some (.reading (.members (B.member done name v) :: rest) .separator)
  | .members _ :: _ => none

/-- A new array or object, within the limit on nesting. -/
def opened (limit : ℕ) (frame : Frame B) (expects : Expects) (frames : List (Frame B)) :
    Option (State B) :=
  if frames.length + 1 < limit then some (.reading (frame :: frames) expects) else none

/-- A token where a value may begin. -/
def valueStep (limit : ℕ) (frames : List (Frame B)) : Token σ → Option (State B)
  | .text s => put (B.text s) frames
  | .word letters => (B.word letters).bind fun v => put v frames
  | .openArray => opened limit (.items B.noItems) .firstItem frames
  | .openObject => opened limit (.members B.noMembers) .firstName frames
  | _ => none

/-- A token where the name of a member may stand. -/
def nameStep : List (Frame B) → Token σ → Option (State B)
  | .members done :: rest, .text s => some (.reading (.named done s :: rest) .colon)
  | _, _ => none

/-- The end of an array or of an object. -/
def closeStep : List (Frame B) → Token σ → Option (State B)
  | .items done :: rest, .closeArray => put (B.array done) rest
  | .members done :: rest, .closeObject => put (B.object done) rest
  | _, _ => none

/-- A comma after a value. -/
def commaStep : List (Frame B) → Token σ → Option (State B)
  | .items done :: rest, .comma => some (.reading (.items done :: rest) .value)
  | .members done :: rest, .comma => some (.reading (.members done :: rest) .name)
  | _, _ => none

/-- A colon after a name. -/
def colonStep (frames : List (Frame B)) : Token σ → Option (State B)
  | .colon => some (.reading frames .value)
  | _ => none

/-- One token. -/
def readStep (limit : ℕ) : State B → Token σ → Option (State B)
  | .finished _, _ => none
  | .reading frames .value, token => valueStep limit frames token
  | .reading frames .firstItem, token =>
    (valueStep limit frames token).or (closeStep frames token)
  | .reading frames .firstName, token => (nameStep frames token).or (closeStep frames token)
  | .reading frames .name, token => nameStep frames token
  | .reading frames .colon, token => colonStep frames token
  | .reading frames .separator, token => (commaStep frames token).or (closeStep frames token)

/-- The value that has been read when the text ends. -/
def State.result : State B → Option V
  | .finished v => some v
  | .reading _ _ => none

variable (B)

/-- What tokens are read as. -/
def read (limit : ℕ) (ts : List (Token σ)) : Option V :=
  (ts.foldlM (readStep limit) (.reading [] .value : State B)).bind State.result

end Reading

/-- What a text is read as. -/
def parse {V : Type} (B : Builder (List Char) V) (limit : ℕ) (text : List Char) : Option V :=
  (tokens .gap text).bind (read B limit)

/-! ## Members -/

section Members

variable {σ V : Type} {B : Builder σ V}

theorem put_ne_colon (limit : ℕ) (v : V) (frames : List (Frame B)) :
    ((put v frames).bind fun s => readStep limit s .colon) = none := by
  match frames with
  | [] => rfl
  | .items done :: rest => rfl
  | .named done name :: rest => rfl
  | .members done :: rest => rfl

theorem valueStep_text_colon (limit : ℕ) (frames : List (Frame B)) (name : σ) :
    ((valueStep limit frames (.text name)).bind fun s => readStep limit s .colon) = none :=
  put_ne_colon limit _ frames

theorem nameStep_text_colon (limit : ℕ) (frames : List (Frame B)) (name : σ) (s : State B)
    (h : ((nameStep frames (.text name)).bind fun s => readStep limit s .colon) = some s) :
    ∃ done rest, s = .reading (.named done name :: rest) .value := by
  match frames with
  | [] => cases h
  | .items done :: rest => cases h
  | .named done name :: rest => cases h
  | .members done :: rest =>
    cases h
    exact ⟨done, rest, rfl⟩

theorem closeStep_text (frames : List (Frame B)) (name : σ) :
    closeStep frames (.text name) = none := by
  match frames with
  | [] => rfl
  | .items done :: rest => rfl
  | .named done name :: rest => rfl
  | .members done :: rest => rfl

theorem commaStep_text (frames : List (Frame B)) (name : σ) :
    commaStep frames (.text name) = none := by
  match frames with
  | [] => rfl
  | .items done :: rest => rfl
  | .named done name :: rest => rfl
  | .members done :: rest => rfl

/-- A string before a colon is the name of a member. -/
theorem readStep_name_colon (limit : ℕ) (start s : State B) (name : σ)
    (h : ((readStep limit start (.text name)).bind fun s => readStep limit s .colon) = some s) :
    ∃ done rest, s = .reading (.named done name :: rest) .value := by
  match start with
  | .finished v => cases h
  | .reading frames .value =>
    rw [readStep, valueStep_text_colon] at h
    cases h
  | .reading frames .firstItem =>
    rw [readStep, closeStep_text, Option.or_none, valueStep_text_colon] at h
    cases h
  | .reading frames .firstName =>
    rw [readStep, closeStep_text, Option.or_none] at h
    exact nameStep_text_colon limit frames name s h
  | .reading frames .name => exact nameStep_text_colon limit frames name s h
  | .reading frames .colon => cases h
  | .reading frames .separator =>
    rw [readStep, closeStep_text, commaStep_text] at h
    cases h

/-- The string of a member that leaves no trace in what is built leaves none in what is read. -/
theorem read_member_eq (limit : ℕ) (ts us : List (Token σ)) {name s s' : σ}
    (h : ∀ done, B.member done name (B.text s) = B.member done name (B.text s')) :
    read B limit (ts ++ .text name :: .colon :: .text s :: us) =
      read B limit (ts ++ .text name :: .colon :: .text s' :: us) := by
  rw [read, read, List.foldlM_append, List.foldlM_append]
  cases ts.foldlM (readStep limit) (.reading [] .value : State B) with
  | none => rfl
  | some start =>
    have hsteps : ∀ content : σ,
        (Token.text name :: .colon :: .text content :: us).foldlM (readStep limit) start =
          ((readStep limit start (.text name)).bind fun s => readStep limit s .colon).bind fun t =>
            (readStep limit t (.text content)).bind fun t' =>
              us.foldlM (readStep limit) t' := fun content => by
      simp only [List.foldlM_cons, Option.bind_eq_bind, Option.bind_assoc]
    simp only [Option.bind_eq_bind, Option.bind_some, hsteps]
    cases hname : (readStep limit start (.text name)).bind fun s => readStep limit s .colon with
    | none => rfl
    | some t =>
      obtain ⟨done, rest, rfl⟩ := readStep_name_colon limit start t name hname
      simp only [Option.bind_some]
      rw [readStep, readStep, valueStep, valueStep, put, put, h]

end Members

/-! ## Maps -/

/-- A map between what two builders build. -/
structure BuilderMap {σ τ V W : Type} (B : Builder σ V) (C : Builder τ W) : Type where
  content : σ → τ
  value : V → W
  items : B.Items → C.Items
  members : B.Members → C.Members
  word_eq : ∀ letters, C.word letters = (B.word letters).map value
  text_eq : ∀ s, C.text (content s) = value (B.text s)
  noItems_eq : C.noItems = items B.noItems
  item_eq : ∀ done v, C.item (items done) (value v) = items (B.item done v)
  array_eq : ∀ done, C.array (items done) = value (B.array done)
  noMembers_eq : C.noMembers = members B.noMembers
  member_eq : ∀ done s v,
    C.member (members done) (content s) (value v) = members (B.member done s v)
  object_eq : ∀ done, C.object (members done) = value (B.object done)

section Maps

variable {σ τ V W : Type} {B : Builder σ V} {C : Builder τ W} (f : BuilderMap B C)

def BuilderMap.frame : Frame B → Frame C
  | .items done => .items (f.items done)
  | .members done => .members (f.members done)
  | .named done name => .named (f.members done) (f.content name)

def BuilderMap.state : State B → State C
  | .reading frames expects => .reading (frames.map f.frame) expects
  | .finished v => .finished (f.value v)

theorem put_map (v : V) (frames : List (Frame B)) :
    put (f.value v) (frames.map f.frame) = (put v frames).map f.state := by
  match frames with
  | [] => rfl
  | .items done :: rest =>
    simp only [List.map_cons, BuilderMap.frame, put, f.item_eq]
    rfl
  | .named done name :: rest =>
    simp only [List.map_cons, BuilderMap.frame, put, f.member_eq]
    rfl
  | .members done :: rest => rfl

theorem opened_map (limit : ℕ) (frame : Frame B) (expects : Expects) (frames : List (Frame B)) :
    opened limit (f.frame frame) expects (frames.map f.frame) =
      (opened limit frame expects frames).map f.state := by
  rw [opened, opened, List.length_map]
  split <;> rfl

theorem valueStep_map (limit : ℕ) (frames : List (Frame B)) (token : Token σ) :
    valueStep limit (frames.map f.frame) (token.map f.content) =
      (valueStep limit frames token).map f.state := by
  match token with
  | .text s =>
    simp only [Token.map, valueStep, f.text_eq]
    exact put_map f _ frames
  | .word letters =>
    simp only [Token.map, valueStep, f.word_eq]
    cases B.word letters with
    | none => rfl
    | some v => exact put_map f v frames
  | .openArray =>
    simp only [Token.map, valueStep, f.noItems_eq]
    exact opened_map f limit (.items B.noItems) .firstItem frames
  | .openObject =>
    simp only [Token.map, valueStep, f.noMembers_eq]
    exact opened_map f limit (.members B.noMembers) .firstName frames
  | .closeArray => rfl
  | .closeObject => rfl
  | .colon => rfl
  | .comma => rfl

theorem nameStep_map (frames : List (Frame B)) (token : Token σ) :
    nameStep (frames.map f.frame) (token.map f.content) =
      (nameStep frames token).map f.state := by
  match frames with
  | [] => rfl
  | .items done :: rest => rfl
  | .named done name :: rest => rfl
  | .members done :: rest => cases token <;> rfl

theorem closeStep_map (frames : List (Frame B)) (token : Token σ) :
    closeStep (frames.map f.frame) (token.map f.content) =
      (closeStep frames token).map f.state := by
  match frames with
  | [] => rfl
  | .named done name :: rest => rfl
  | .items done :: rest =>
    cases token with
    | closeArray =>
      simp only [List.map_cons, BuilderMap.frame, Token.map, closeStep, f.array_eq]
      exact put_map f _ rest
    | _ => rfl
  | .members done :: rest =>
    cases token with
    | closeObject =>
      simp only [List.map_cons, BuilderMap.frame, Token.map, closeStep, f.object_eq]
      exact put_map f _ rest
    | _ => rfl

theorem commaStep_map (frames : List (Frame B)) (token : Token σ) :
    commaStep (frames.map f.frame) (token.map f.content) =
      (commaStep frames token).map f.state := by
  match frames with
  | [] => rfl
  | .items done :: rest => cases token <;> rfl
  | .named done name :: rest => rfl
  | .members done :: rest => cases token <;> rfl

/-- One step of two builders. -/
theorem readStep_map (limit : ℕ) (s : State B) (token : Token σ) :
    readStep limit (f.state s) (token.map f.content) =
      (readStep limit s token).map f.state := by
  match s with
  | .finished v => rfl
  | .reading frames .value => exact valueStep_map f limit frames token
  | .reading frames .firstItem =>
    simp only [BuilderMap.state, readStep, valueStep_map, closeStep_map, Option.map_or]
  | .reading frames .firstName =>
    simp only [BuilderMap.state, readStep, nameStep_map, closeStep_map, Option.map_or]
  | .reading frames .name => exact nameStep_map f frames token
  | .reading frames .colon => cases token <;> rfl
  | .reading frames .separator =>
    simp only [BuilderMap.state, readStep, commaStep_map, closeStep_map, Option.map_or]

theorem foldlM_readStep_map (limit : ℕ) (ts : List (Token σ)) (s : State B) :
    (ts.map (Token.map f.content)).foldlM (readStep limit) (f.state s) =
      (ts.foldlM (readStep limit) s).map f.state := by
  induction ts generalizing s with
  | nil => rfl
  | cons token ts ih =>
    rw [List.map_cons, List.foldlM_cons, List.foldlM_cons, readStep_map]
    cases readStep limit s token with
    | none => rfl
    | some s' => exact ih s'

/-- Two builders read the same texts, and the map takes what one reads to what the other reads. -/
theorem read_map (limit : ℕ) (ts : List (Token σ)) :
    read C limit (ts.map (Token.map f.content)) = (read B limit ts).map f.value := by
  have hrun := foldlM_readStep_map f limit ts (.reading [] .value)
  rw [read, read]
  rw [show (State.reading [] .value : State C) = f.state (.reading [] .value) from rfl, hrun]
  cases ts.foldlM (readStep limit) (.reading [] .value : State B) with
  | none => rfl
  | some s => cases s <;> rfl

end Maps

/-! ## Literals -/

/-- How many characters of an escape have been read. -/
def Escape.length : Escape → ℕ
  | .plain => 0
  | .backslash => 1
  | .unit none digits => 2 + digits.length
  | .second _ => 6
  | .secondUnit _ => 7
  | .unit (some _) digits => 8 + digits.length

/-- A code unit that is not whole has at most three digits. -/
def Escape.Short : Escape → Prop
  | .unit _ digits => digits.length ≤ 3
  | _ => True

theorem codeUnit_length {high : Option ℕ} {n : ℕ} {added : List Char} {after : Escape}
    (h : codeUnit high n = some (added, after)) :
    after.Short ∧ (Escape.unit high []).length + 4 ≤ 12 * added.length + after.length := by
  match high with
  | none =>
    rw [codeUnit] at h
    split at h
    · cases h
      exact ⟨trivial, by simp [Escape.length]⟩
    · split at h
      · cases h
      · cases h
        exact ⟨trivial, by simp [Escape.length]⟩
  | some high =>
    rw [codeUnit] at h
    split at h
    · cases h
      exact ⟨trivial, by simp [Escape.length]⟩
    · cases h

/-- A character within a string continues an escape, or it ends one of at most twelve characters
and adds what the escape stands for. -/
theorem inText_length {escape after : Escape} {c : Char} {added : List Char}
    (h : inText escape c = some (some (added, after))) (hshort : escape.Short) :
    after.Short ∧ escape.length + 1 ≤ 12 * added.length + after.length := by
  match escape with
  | .plain =>
    rw [inText] at h
    split at h
    · cases h
    · split at h
      · cases h
        exact ⟨trivial, by simp [Escape.length]⟩
      · split at h
        · cases h
        · cases h
          exact ⟨trivial, by simp [Escape.length]⟩
  | .backslash =>
    rw [inText] at h
    split at h
    · cases h
      exact ⟨Nat.zero_le 3, by simp [Escape.length]⟩
    · obtain ⟨d, -, hd⟩ := Option.map_eq_some_iff.mp h
      cases hd
      exact ⟨trivial, by simp [Escape.length]⟩
  | .unit high digits =>
    have hread : (Escape.unit high digits).length = (Escape.unit high []).length + digits.length := by
      cases high <;> simp [Escape.length]
    rw [inText] at h
    split at h
    · cases h
    · rename_i d hd
      split at h
      · rename_i hfew
        cases h
        have hmore : (Escape.unit high (digits ++ [d])).length =
            (Escape.unit high digits).length + 1 := by
          cases high <;> simp [Escape.length] <;> omega
        refine ⟨?_, by rw [hmore]; simp⟩
        rw [Escape.Short, List.length_append, List.length_singleton]
        exact hfew
      · obtain ⟨unit, hunit, heq⟩ := Option.map_eq_some_iff.mp h
        cases heq
        obtain ⟨hafter, hlen⟩ := codeUnit_length hunit
        rw [Escape.Short] at hshort
        exact ⟨hafter, by omega⟩
  | .second high =>
    rw [inText] at h
    split at h
    · cases h
      exact ⟨trivial, by simp [Escape.length]⟩
    · cases h
  | .secondUnit high =>
    rw [inText] at h
    split at h
    · cases h
      exact ⟨Nat.zero_le 3, by simp [Escape.length]⟩
    · cases h

/-- A character that stands for nothing but itself. -/
def Itself (c : Char) : Prop :=
  c ≠ '\\' ∧ c ≠ 'u' ∧ hexDigit c = none ∧ ∀ d ∈ escaped c, d = c

theorem inText_itself {escape after : Escape} {c : Char} {added : List Char} (hc : Itself c)
    (h : inText escape c = some (some (added, after))) : c ∈ added := by
  obtain ⟨hslash, hu, hdigit, hescaped⟩ := hc
  match escape with
  | .plain =>
    rw [inText, if_neg hslash] at h
    split at h
    · cases h
    · split at h
      · cases h
      · cases h
        exact List.mem_cons_self
  | .backslash =>
    rw [inText, if_neg hu] at h
    obtain ⟨d, hd, heq⟩ := Option.map_eq_some_iff.mp h
    cases heq
    rw [hescaped d hd]
    exact List.mem_cons_self
  | .unit high digits =>
    rw [inText, hdigit] at h
    cases h
  | .second high =>
    rw [inText, if_neg hslash] at h
    cases h
  | .secondUnit high =>
    rw [inText, if_neg hu] at h
    cases h

/-- Characters that stay within a string. -/
theorem lex_text {raw done done' : List Char} {escape after : Escape} (hshort : escape.Short)
    (h : lex (.text done escape) raw = some ([], .text done' after)) :
    ∃ added, done' = done ++ added ∧
      escape.length + raw.length ≤ 12 * added.length + after.length ∧
        ∀ c ∈ raw, Itself c → c ∈ added := by
  induction raw generalizing done escape with
  | nil =>
    rw [lex] at h
    cases h
    exact ⟨[], (List.append_nil _).symm, by simp, fun c hc => absurd hc (by simp)⟩
  | cons c raw ih =>
    rw [lex, lexStep] at h
    cases hstep : inText escape c with
    | none =>
      rw [hstep] at h
      cases h
    | some inside =>
      rw [hstep] at h
      match inside with
      | none =>
        obtain ⟨r, -, hr⟩ := Option.map_eq_some_iff.mp h
        exact absurd (congrArg Prod.fst hr) (by simp)
      | some (added, escape') =>
        obtain ⟨hshort', hlen⟩ := inText_length hstep hshort
        have hrest : lex (.text (done ++ added) escape') raw = some ([], .text done' after) := by
          simpa using h
        obtain ⟨more, rfl, hmore, hmem⟩ := ih hshort' hrest
        refine ⟨added ++ more, by rw [List.append_assoc], ?_, fun x hx hself => ?_⟩
        · rw [List.length_cons, List.length_append]
          omega
        · obtain rfl | hx := List.mem_cons.mp hx
          · exact List.mem_append_left _ (inText_itself hself hstep)
          · exact List.mem_append_right _ (hmem x hx hself)

/-- A literal is at most twelve times as long as what it stands for. -/
theorem Literal.length_le {raw content : List Char} (h : Literal raw content) :
    raw.length ≤ 12 * content.length := by
  obtain ⟨added, hadded, hlen, -⟩ := lex_text (show Escape.Short .plain from trivial) h
  rw [List.nil_append] at hadded
  rw [hadded]
  simpa [Escape.length] using hlen

/-- A character that stands for nothing but itself is in what a literal stands for. -/
theorem Literal.mem {raw content : List Char} (h : Literal raw content) {c : Char}
    (hc : c ∈ raw) (hself : Itself c) : c ∈ content := by
  obtain ⟨added, hadded, -, hmem⟩ := lex_text (show Escape.Short .plain from trivial) h
  rw [hadded]
  exact List.mem_append_right _ (hmem c hc hself)

end Json

end Texts
