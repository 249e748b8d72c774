import OidcExchange.Analysis.MemberMasking

/-!
# What an error detail depends on

Decoding splits at every character that is in no escape. Of a JSON document a detail depends only
on its strings, and of each string only on what is shown of it and on whether it is the name of
one of the two members of an error object.
-/

set_option autoImplicit false

namespace OidcExchange

open Texts

/-! ## Decoding -/

/-- The character is in no percent escape. -/
def OpaqueChar (c : Char) : Prop := ∀ b ∈ String.utf8EncodeChar c, Percent.Opaque b

instance (b : UInt8) : Decidable (Percent.Opaque b) :=
  inferInstanceAs (Decidable (b ≠ Percent.sign ∧ Percent.digitValue b = none))

instance (c : Char) : Decidable (OpaqueChar c) :=
  inferInstanceAs (Decidable (∀ b ∈ String.utf8EncodeChar c, Percent.Opaque b))

theorem percentDecode_append_char {c : Char} (hc : OpaqueChar c) (xs ys : List Char) :
    percentDecode (xs ++ c :: ys) = percentDecode xs ++ c :: percentDecode ys := by
  have hsign : Percent.sign ∉ String.utf8EncodeChar c := fun h => (hc _ h).1 rfl
  rw [percentDecode, utf8_append, utf8_cons]
  obtain ⟨b, bs, hbytes, -⟩ := Lossy.begins_utf8EncodeChar c
  have hdecode : Percent.decode (utf8 xs ++ (String.utf8EncodeChar c ++ utf8 ys)) =
      Percent.decode (utf8 xs) ++ (String.utf8EncodeChar c ++ Percent.decode (utf8 ys)) := by
    rw [OpaqueChar, hbytes] at hc
    rw [hbytes] at hsign ⊢
    rw [List.mem_cons, not_or] at hsign
    rw [List.cons_append, Percent.decode_append (hc b List.mem_cons_self),
      Percent.decode_append_of_no_sign hsign.2, List.cons_append]
  rw [hdecode, Lossy.decode_append_char]
  rfl

/-- Characters of which none is a percent sign stand for themselves. -/
theorem percentDecode_append_of_no_sign {xs : List Char} (h : Percent.sign ∉ utf8 xs)
    (ys : List Char) : percentDecode (xs ++ ys) = xs ++ percentDecode ys := by
  rw [percentDecode, utf8_append, Percent.decode_append_of_no_sign h, Lossy.decode_utf8_append]
  rfl

/-- A text without a percent sign stands for itself. -/
theorem percentDecode_of_no_sign {xs : List Char} (h : '%' ∉ xs) : percentDecode xs = xs := by
  have hsign : Percent.sign ∉ utf8 xs := by
    intro hmem
    obtain ⟨c, hc, hsign⟩ := List.mem_flatMap.mp hmem
    rw [Lossy.eq_of_mem_utf8EncodeChar (by decide) hsign] at hc
    exact h hc
  have hdecode := percentDecode_append_of_no_sign hsign []
  have hempty : percentDecode [] = [] := rfl
  rwa [List.append_nil, hempty, List.append_nil] at hdecode

/-- The white space characters. -/
def whiteSpaces : List Char :=
  [0x09, 0x0A, 0x0B, 0x0C, 0x0D, 0x20, 0x85, 0xA0, 0x1680, 0x2000, 0x2001, 0x2002, 0x2003, 0x2004,
    0x2005, 0x2006, 0x2007, 0x2008, 0x2009, 0x200A, 0x2028, 0x2029, 0x202F, 0x205F, 0x3000].map
      Char.ofNat

theorem mem_whiteSpaces {c : Char} (h : isWhiteSpace c = true) : c ∈ whiteSpaces := by
  simp only [isWhiteSpace, Bool.or_eq_true, Bool.and_eq_true, decide_eq_true_eq, beq_iff_eq,
    UInt32.le_iff_toNat_le, ← UInt32.toNat_inj] at h
  have hc : c = Char.ofNat c.val.toNat := (Char.ofNat_toNat c).symm
  rw [hc, whiteSpaces]
  apply List.mem_map_of_mem
  simp at h ⊢
  omega

/-! ## Documents -/

/-- A word is null, a truth value or a number. -/
def valueWord (number : List Char → Option (ℤ × ℕ)) (letters : List Char) : Option Value :=
  if letters = "null".toList then some .null
  else if letters = "true".toList then some (.bool true)
  else if letters = "false".toList then some (.bool false)
  else (number letters).map fun n => .number n.1 n.2

/-- A member replaces those with its name. -/
def insertMember (fields : List (String × Value)) (content : List Char) (v : Value) :
    List (String × Value) :=
  (String.ofList content, v) :: fields.filter fun e => e.1 ≠ String.ofList content

/-- Documents are built of tokens; of members with one name the last counts. -/
def valueBuilder (number : List Char → Option (ℤ × ℕ)) : Json.Builder (List Char) Value where
  Items := List Value
  Members := List (String × Value)
  word := valueWord number
  text := fun content => .string (String.ofList content)
  noItems := []
  item := fun done v => done ++ [v]
  array := .array
  noMembers := []
  member := insertMember
  object := .object

/-- SOURCE: `serde_json::de::Deserializer`, `remaining_depth` -/
def recursionLimit : ℕ := 128

/-- The package reads JSON texts; which numbers it can represent is its own matter. -/
def ReadsJson (fromStr : String → Option Value) : Prop :=
  ∃ number, ∀ text, fromStr text = Json.parse (valueBuilder number) recursionLimit text.toList

/-! ## Views -/

/-- What counts of a string: what is shown of it, and whether it is one of two names. -/
structure Mark : Type where
  shown : Except (Fault Empty) (List Char)
  isError : Bool
  isDescription : Bool

/-- What counts of a value: what is shown of it as a string, and of the two members of an error
object. -/
structure View : Type where
  text : Option (Except (Fault Empty) (List Char))
  error : Option (Except (Fault Empty) (List Char))
  description : Option (Except (Fault Empty) (List Char))

/-- What counts of a string. -/
def markOf (lib : UpstreamLibrary) (content : List Char) : Mark where
  shown := excerptOf lib content
  isError := content = "error".toList
  isDescription := content = "error_description".toList

/-- Only what counts is built. -/
def viewBuilder (number : List Char → Option (ℤ × ℕ)) : Json.Builder Mark View where
  Items := Unit
  Members := Option (Except (Fault Empty) (List Char)) × Option (Except (Fault Empty) (List Char))
  word := fun letters => (valueWord number letters).map fun _ => ⟨none, none, none⟩
  text := fun mark => ⟨some mark.shown, none, none⟩
  noItems := ()
  item := fun _ _ => ()
  array := fun _ => ⟨none, none, none⟩
  noMembers := (none, none)
  member := fun done name v =>
    (if name.isError then v.text else done.1, if name.isDescription then v.text else done.2)
  object := fun done => ⟨none, done.1, done.2⟩

/-- A member with another name than the two leaves no trace. -/
theorem viewBuilder_member (number : List Char → Option (ℤ × ℕ)) {name : Mark}
    (herror : name.isError = false) (hdescription : name.isDescription = false)
    (done : (viewBuilder number).Members) (v : View) :
    (viewBuilder number).member done name v = done := by
  simp only [viewBuilder]
  rw [herror, hdescription]
  rfl

/-- What is shown of the member of a list of members. -/
def shownMember (lib : UpstreamLibrary) (fields : List (String × Value)) (name : String) :
    Option (Except (Fault Empty) (List Char)) :=
  ((fields.lookup name).bind Value.asStr).map fun s => excerptOf lib s.toList

/-- Members with other names do not count. -/
theorem lookup_filter_ne {name name' : String} (h : name ≠ name')
    (fields : List (String × Value)) :
    (fields.filter fun e => e.1 ≠ name').lookup name = fields.lookup name := by
  induction fields with
  | nil => rfl
  | cons e fields ih =>
    by_cases he : e.1 = name'
    · have hbeq : (name == e.1) = false := beq_false_of_ne (he ▸ h)
      rw [List.filter_cons_of_neg (by simpa using he), ih, List.lookup_cons, hbeq]
    · rw [List.filter_cons_of_pos (by simpa using he), List.lookup_cons, List.lookup_cons, ih]

/-- What is shown of a member that has just been read. -/
theorem shownMember_insert (lib : UpstreamLibrary) (fields : List (String × Value))
    (content : List Char) (v : Value) (name : String) :
    shownMember lib (insertMember fields content v) name =
      if content = name.toList then v.asStr.map fun s => excerptOf lib s.toList
      else shownMember lib fields name := by
  have hname : content = name.toList ↔ name = String.ofList content :=
    ⟨fun h => by rw [h, String.ofList_toList], fun h => by rw [h, String.toList_ofList]⟩
  rw [shownMember, shownMember, insertMember, List.lookup_cons]
  by_cases h : name = String.ofList content
  · rw [if_pos (hname.mpr h), beq_iff_eq.mpr h]
    rfl
  · rw [if_neg (mt hname.mp h), beq_false_of_ne h]
    simp only
    rw [lookup_filter_ne h]

/-- What counts of a document. -/
def viewOf (lib : UpstreamLibrary) : Value → View
  | .string s => ⟨some (excerptOf lib s.toList), none, none⟩
  | .object fields =>
    ⟨none, shownMember lib fields "error", shownMember lib fields "error_description"⟩
  | _ => ⟨none, none, none⟩

theorem viewOf_text (lib : UpstreamLibrary) (v : Value) :
    (viewOf lib v).text = v.asStr.map fun s => excerptOf lib s.toList := by
  cases v <;> rfl

theorem viewOf_word (lib : UpstreamLibrary) (number : List Char → Option (ℤ × ℕ))
    (letters : List Char) :
    (valueWord number letters).map (fun _ => (⟨none, none, none⟩ : View)) =
      (valueWord number letters).map (viewOf lib) := by
  rw [valueWord]
  split
  · rfl
  · split
    · rfl
    · split
      · rfl
      · cases number letters <;> rfl

theorem view_insert (lib : UpstreamLibrary) (fields : List (String × Value))
    (content : List Char) (v : Value) :
    (if (markOf lib content).isError then (viewOf lib v).text
        else shownMember lib fields "error",
      if (markOf lib content).isDescription then (viewOf lib v).text
        else shownMember lib fields "error_description") =
      (shownMember lib (insertMember fields content v) "error",
        shownMember lib (insertMember fields content v) "error_description") := by
  rw [shownMember_insert, shownMember_insert, ← viewOf_text]
  simp only [markOf, decide_eq_true_eq]

/-- What counts of a document is built of what counts of its strings. -/
def viewMap (lib : UpstreamLibrary) (number : List Char → Option (ℤ × ℕ)) :
    Json.BuilderMap (valueBuilder number) (viewBuilder number) where
  content := markOf lib
  value := viewOf lib
  items := fun _ => ()
  members := fun fields =>
    (shownMember lib fields "error", shownMember lib fields "error_description")
  word_eq := viewOf_word lib number
  text_eq := fun content => by
    simp only [viewBuilder, valueBuilder, viewOf, markOf, String.toList_ofList]
  noItems_eq := rfl
  item_eq := fun _ _ => rfl
  array_eq := fun _ => rfl
  noMembers_eq := rfl
  member_eq := view_insert lib
  object_eq := fun _ => rfl

/-- What a detail shows of a view. -/
def renderView (view : View) : Option (Except (Fault Empty) (List Char)) :=
  view.error.map fun code => do
    let code ← code
    match view.description with
    | some description => do
      let description ← description
      return code ++ ": ".toList ++ description
    | none => return code

theorem renderError_eq (lib : UpstreamLibrary) (code : String) (description : Option String) :
    some (renderError lib code description) =
      renderView ⟨none, some (excerptOf lib code.toList),
        description.map fun s => excerptOf lib s.toList⟩ := by
  cases description <;> rfl

theorem renderView_viewOf (lib : UpstreamLibrary) (v : Value) :
    (v.textField "error").map (fun code => renderError lib code (v.textField "error_description")) =
      renderView (viewOf lib v) := by
  cases v with
  | object fields =>
    cases hcode : (Value.object fields).textField "error" with
    | none =>
      rw [renderView, viewOf, shownMember]
      rw [Value.textField, Value.field] at hcode
      rw [hcode]
      rfl
    | some code =>
      rw [Option.map_some, renderError_eq]
      rw [Value.textField, Value.field] at hcode
      rw [renderView, renderView, viewOf, shownMember, hcode]
      rfl
  | _ => rfl

/-- An error object is shown by what counts of its tokens. -/
theorem structuredErrorDetail_eq (lib : UpstreamLibrary) (hjson : ReadsJson lib.fromStr) :
    ∃ number, ∀ raw, structuredErrorDetail lib raw =
      (((Json.tokens .gap raw.toList).map (List.map (Json.Token.map (markOf lib)))).bind
        (Json.read (viewBuilder number) recursionLimit)).bind renderView := by
  obtain ⟨number, hread⟩ := hjson
  refine ⟨number, fun raw => ?_⟩
  rw [structuredErrorDetail, hread, Json.parse]
  cases Json.tokens .gap raw.toList with
  | none => rfl
  | some ts =>
    have hmap := Json.read_map (viewMap lib number) recursionLimit ts
    have hcontent : (viewMap lib number).content = markOf lib := rfl
    rw [hcontent] at hmap
    rw [Option.bind_some, Option.map_some, Option.bind_some, hmap]
    cases Json.read (valueBuilder number) recursionLimit ts with
    | none => rfl
    | some v =>
      have hview : (viewMap lib number).value v = viewOf lib v := rfl
      rw [Option.map_some, Option.bind_some, hview, ← renderView_viewOf]
      cases hcode : v.textField "error" <;> simp [hcode]

end OidcExchange
