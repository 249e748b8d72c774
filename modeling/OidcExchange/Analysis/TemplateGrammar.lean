import Mathlib.Data.List.TakeDrop
import OidcExchange.Program.Claims

/-!
# The grammar of claim templates

What a template should resolve to is stated apart from the resolver: the whole paths that exist,
and the leftmost bar that a default filter follows. The resolver agrees with it except on a path
that goes on after a complete one, whose value it signs for the longer path, and on a filter
behind an earlier bar, which it does not see.
-/

set_option autoImplicit false

namespace OidcExchange

open Storage

/-! ## What the grammar says -/

/-- The value at a whole path of the grammar. -/
def valueAt (user : User) : List String → Option Value
  | [root, field] =>
    if root ≠ "user" then none
    else if field = "id" then some (.string user.id)
    else if field = "email" then user.email.map .string
    else if field = "display_name" then user.displayName.map .string
    else if field = "provider" then some (.string user.provider)
    else if field = "external_id" then some (.string user.externalId)
    else none
  | [root, field, key] =>
    if root ≠ "user" then none
    else if field = "metadata" then user.metadata.lookup key
    else if field = "claims" then if isReservedClaim key then none else user.claims.lookup key
    else none
  | _ => none

def segments (path : List Char) : List String := (path.splitOn '.').map String.ofList

/-- What stands before the leftmost bar that a default filter follows, and the filter's text. -/
def splitAtFilter : List Char → Option (List Char × List Char)
  | [] => none
  | c :: rest =>
    match if c = '|' then (trimChars rest).dropPrefix? "default:".toList else none with
    | some value => some ([], value)
    | none => (splitAtFilter rest).map fun (path, value) => (c :: path, value)

/-- The text of a default value, without its quotes. -/
def unquote (text : List Char) : String :=
  let text := trimChars text
  if text.head? = some '\'' ∧ text.getLast? = some '\'' ∧ 2 ≤ text.length then
    String.ofList text.tail.dropLast
  else
    String.ofList text

/-- What stands between the braces of a field reference. -/
def fieldReference (template : String) : Option (List Char) :=
  let trimmed := trimChars template.toList
  if ['{', '{'].isPrefixOf trimmed && ['}', '}'].isSuffixOf trimmed then
    some (trimChars ((trimmed.drop 2).take (trimmed.length - 4)))
  else
    none

/-- What a field reference stands for. -/
def referenceValue (user : User) (inner : List Char) : Option Value :=
  match splitAtFilter inner with
  | some (path, value) =>
    (valueAt user (segments (trimChars path))).or (some (.string (unquote value)))
  | none => valueAt user (segments inner)

/-- What a template stands for. -/
def templateValue (template : String) (user : User) : Option Value :=
  match fieldReference template with
  | some inner => referenceValue user inner
  | none => some (.string template)

/-! ## What the resolver does -/

/-- The start of a path that the resolver reads. -/
def completePart : List String → List String
  | root :: field :: rest =>
    if field = "metadata" ∨ field = "claims" then root :: field :: rest.take 1 else [root, field]
  | path => path

/-- The path goes on after the part that the resolver reads. -/
def Overlong (path : List String) : Prop := completePart path ≠ path

/-- A field is read through the complete part of its path. -/
theorem resolveField_eq (path : List Char) (user : User) :
    resolveField path user = valueAt user (completePart (segments path)) := by
  unfold resolveField segments
  match (path.splitOn '.').map String.ofList with
  | [] => rfl
  | [_] => rfl
  | root :: field :: rest =>
    by_cases hmap : field = "metadata" ∨ field = "claims"
    · -- A map of the record: the key is the segment after its name.
      rw [completePart, if_pos hmap]
      obtain rfl | rfl := hmap <;> cases rest <;> simp [valueAt]
    · rw [completePart, if_neg hmap]
      rw [not_or] at hmap
      simp [valueAt, hmap]

/-- A path of the grammar is whole. -/
theorem completePart_of_valueAt {user : User} {path : List String} {value : Value}
    (h : valueAt user path = some value) : completePart path = path := by
  match path with
  | [] => rfl
  | [_] => rfl
  | [root, field] =>
    simp [completePart]
  | [root, field, key] =>
    by_cases hmap : field = "metadata" ∨ field = "claims"
    · rw [completePart, if_pos hmap]
      rfl
    · rw [not_or] at hmap
      simp [valueAt, hmap] at h
  | _ :: _ :: _ :: _ :: _ => simp [valueAt] at h

/-- There is no value at an overlong path. -/
theorem valueAt_of_overlong {user : User} {path : List String} (h : Overlong path) :
    valueAt user path = none := by
  cases hvalue : valueAt user path with
  | none => rfl
  | some value => exact absurd (completePart_of_valueAt hvalue) h

theorem splitAtBar_cons (c : Char) (rest : List Char) :
    splitAtBar (c :: rest) =
      if c = '|' then some ([], rest)
      else (splitAtBar rest).map fun (before, after) => (c :: before, after) := by
  unfold splitAtBar
  rw [List.span_eq_takeWhile_dropWhile, List.span_eq_takeWhile_dropWhile]
  by_cases hc : c = '|'
  · subst hc
    simp
  · have hpass : (c != '|') = true := by simpa using hc
    rw [if_neg hc, List.takeWhile_cons, List.dropWhile_cons, if_pos hpass, if_pos hpass]
    cases rest.dropWhile (· != '|') <;> rfl

/-- The resolver's filter is the text behind the first bar. -/
theorem parseDefaultFilter_of_bar (inner : List Char) :
    parseDefaultFilter inner =
      (splitAtBar inner).bind fun (path, filterPart) =>
        ((trimChars filterPart).dropPrefix? "default:".toList).map fun rest =>
          (path, unquote rest) := by
  unfold parseDefaultFilter unquote
  cases splitAtBar inner with
  | none => rfl
  | some pair =>
    obtain ⟨path, filterPart⟩ := pair
    simp only [Option.bind_eq_bind, Option.bind_some]
    generalize (trimChars filterPart).dropPrefix? "default:".toList = found
    cases found with
    | none => rfl
    | some rest =>
      simp only [Option.bind_some, Option.map_some]
      split <;> rfl

/-- The resolver sees the filter that the grammar means, unless a bar stands before it. -/
theorem parseDefaultFilter_eq (inner : List Char) :
    parseDefaultFilter inner =
      (splitAtFilter inner).bind fun (path, value) =>
        if '|' ∈ path then none else some (path, unquote value) := by
  rw [parseDefaultFilter_of_bar]
  induction inner with
  | nil => rfl
  | cons c rest ih =>
    rw [splitAtBar_cons, splitAtFilter]
    by_cases hc : c = '|'
    · subst hc
      rw [if_pos rfl, if_pos rfl, Option.bind_some]
      dsimp only
      generalize (trimChars rest).dropPrefix? "default:".toList = found
      cases found with
      | some value => simp
      | none => cases splitAtFilter rest <;> simp
    · -- A character that is no bar belongs to the path on both sides.
      have hbar : ((splitAtBar rest).map fun (before, after) => (c :: before, after)).bind
          (fun (path, filterPart) =>
            ((trimChars filterPart).dropPrefix? "default:".toList).map fun rest =>
              (path, unquote rest)) =
          ((splitAtBar rest).bind fun (path, filterPart) =>
            ((trimChars filterPart).dropPrefix? "default:".toList).map fun rest =>
              (path, unquote rest)).map fun (path, default) => (c :: path, default) := by
        cases splitAtBar rest with
        | none => rfl
        | some pair => simp only [Option.map_some, Option.bind_some, Option.map_map]; rfl
      rw [if_neg hc, if_neg hc, hbar, ih]
      cases splitAtFilter rest with
      | none => rfl
      | some pair =>
        obtain ⟨path, value⟩ := pair
        simp only [Option.map_some, Option.bind_some, List.mem_cons, Ne.symm hc, false_or]
        split <;> rfl

/-! ## Where the resolver follows the grammar -/

/-- What the resolver makes of a field reference. -/
theorem resolveTemplate_eq (template : String) (user : User) :
    resolveTemplate template user =
      match fieldReference template with
      | some inner =>
        match parseDefaultFilter inner with
        | some (path, default) =>
          (valueAt user (completePart (segments (trimChars path)))).or (some (.string default))
        | none => valueAt user (completePart (segments inner))
      | none => some (.string template) := by
  unfold resolveTemplate fieldReference
  simp only [resolveField_eq]
  by_cases hwrapped : (['{', '{'].isPrefixOf (trimChars template.toList) &&
    ['}', '}'].isSuffixOf (trimChars template.toList)) = true
  · cases hfilter : parseDefaultFilter (trimChars (((trimChars template.toList).drop 2).take
        ((trimChars template.toList).length - 4))) with
    | none => simp only [if_pos hwrapped, hfilter]
    | some pair => simp only [if_pos hwrapped, hfilter]
  · rw [if_neg hwrapped, if_neg hwrapped]

/-- A path with a default that is whole, or goes on after a complete one at which the record has
nothing or the default itself. -/
def DefaultsAlike (user : User) (path : List String) (default : String) : Prop :=
  Overlong path →
    valueAt user (completePart path) = none ∨
      valueAt user (completePart path) = some (.string default)

/-- A path without a default that is whole, or goes on after a complete one at which the record
has nothing. -/
def ReadsWhole (user : User) (path : List String) : Prop :=
  Overlong path → valueAt user (completePart path) = none

/-- The resolver follows the grammar on a template. -/
def FollowsGrammar (template : String) (user : User) : Prop :=
  ∀ inner, fieldReference template = some inner →
    match splitAtFilter inner with
    | some (path, value) =>
      if '|' ∈ path then
        -- The filter is missed: the whole reference is read as one path.
        valueAt user (completePart (segments inner)) = referenceValue user inner
      else DefaultsAlike user (segments (trimChars path)) (unquote value)
    | none => ReadsWhole user (segments inner)

theorem readsWhole_iff (user : User) (path : List String) :
    valueAt user (completePart path) = valueAt user path ↔ ReadsWhole user path := by
  unfold ReadsWhole
  by_cases hlong : Overlong path
  · rw [valueAt_of_overlong hlong]
    simp [hlong]
  · have hwhole : completePart path = path := by simpa [Overlong] using hlong
    simp [hlong, hwhole]

theorem defaultsAlike_iff (user : User) (path : List String) (default : String) :
    (valueAt user (completePart path)).or (some (.string default)) =
        (valueAt user path).or (some (.string default)) ↔
      DefaultsAlike user path default := by
  unfold DefaultsAlike
  by_cases hlong : Overlong path
  · rw [valueAt_of_overlong hlong]
    cases valueAt user (completePart path) <;> simp [hlong]
  · have hwhole : completePart path = path := by simpa [Overlong] using hlong
    simp [hlong, hwhole]

/-- **The grammar, exactly**: a template resolves to what the grammar says when no default filter
stands behind an earlier bar and its path is whole, or goes on after a complete one at which the
record has nothing or the default itself; a missed filter is harmless only where the record holds
the same under the whole reference. -/
theorem resolveTemplate_eq_value_iff (template : String) (user : User) :
    resolveTemplate template user = templateValue template user ↔
      FollowsGrammar template user := by
  rw [resolveTemplate_eq, templateValue]
  unfold FollowsGrammar
  cases hreference : fieldReference template with
  | none => simp
  | some inner =>
    simp only [Option.some.injEq, forall_eq']
    rw [parseDefaultFilter_eq]
    cases hfilter : splitAtFilter inner with
    | none =>
      simp only [referenceValue, hfilter, Option.bind_none]
      exact readsWhole_iff user (segments inner)
    | some pair =>
      obtain ⟨path, value⟩ := pair
      by_cases hbar : '|' ∈ path
      · simp only [Option.bind_some, if_pos hbar]
      · simp only [referenceValue, hfilter, Option.bind_some, if_neg hbar]
        exact defaultsAlike_iff user (segments (trimChars path)) (unquote value)

/-- A record with nothing but its identity. -/
def bareUser : User where
  id := "usr_1"
  externalId := "ext"
  provider := "github"
  email := none
  displayName := none
  metadata := ∅
  claims := ∅
  status := .active
  version := initialUserVersion
  createdAt := 0
  updatedAt := 0

/-- A path beyond the identifier is no path of the grammar, but it signs the identifier. -/
theorem overlong_path_signs_prefix :
    templateValue "{{ user.id.x }}" bareUser = none ∧
      resolveTemplate "{{ user.id.x }}" bareUser = some (.string "usr_1") := by
  have hinner : fieldReference "{{ user.id.x }}" = some "user.id.x".toList := by decide +kernel
  have hfilter : splitAtFilter "user.id.x".toList = none := by decide +kernel
  have hsegments : segments "user.id.x".toList = ["user", "id", "x"] := by decide +kernel
  constructor
  · rw [templateValue, hinner]
    simp only [referenceValue, hfilter, hsegments]
    rfl
  · have hparse : parseDefaultFilter "user.id.x".toList = none := by
      rw [parseDefaultFilter_eq, hfilter]
      rfl
    rw [resolveTemplate_eq, hinner]
    simp only [hparse, hsegments]
    rfl

end OidcExchange
