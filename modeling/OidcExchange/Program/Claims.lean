import OidcExchange.Model.Domain

/-!
# Custom claims

The claims of an access token that are not registered: configured templates resolved
against the user's record, with the user's own claims on top. The names that a verifier
reads as protocol claims are reserved and left out of both.
-/

set_option autoImplicit false

namespace OidcExchange

open Storage

/-- SOURCE: core/src/service/claims.rs:30-59 -/
def reservedClaims : List String :=
  ["iss", "sub", "aud", "exp", "nbf", "iat", "jti", "acr", "amr", "at_hash", "auth_time", "azp",
    "c_hash", "cnf", "nonce", "sid", "typ", "client_id", "scope", "scp", "roles", "groups",
    "entitlements", "permissions"]

/-- SOURCE: core/src/service/claims.rs:63-65 -/
def isReservedClaim (key : String) : Bool := reservedClaims.contains key

/-- What stands before and after the first bar. -/
def splitAtBar (text : List Char) : Option (List Char × List Char) :=
  match text.span (· != '|') with
  | (_, []) => none
  | (before, _ :: after) => some (before, after)

/-- The path and the default value of a template expression with a filter.
SOURCE: core/src/service/claims.rs:136-157 -/
def parseDefaultFilter (inner : List Char) : Option (List Char × String) := do
  let (path, filterPart) ← splitAtBar inner
  let rest ← (trimChars filterPart).dropPrefix? "default:".toList
  let rest := trimChars rest
  if rest.head? = some '\'' ∧ rest.getLast? = some '\'' ∧ 2 ≤ rest.length then
    some (path, String.ofList rest.tail.dropLast)
  else
    some (path, String.ofList rest)

/-- SOURCE: core/src/service/claims.rs:164-195 -/
def resolveField (path : List Char) (user : User) : Option Value :=
  match (path.splitOn '.').map String.ofList with
  | root :: field :: rest =>
    if root ≠ "user" then none
    else if field = "id" then some (.string user.id)
    else if field = "email" then user.email.map .string
    else if field = "display_name" then user.displayName.map .string
    else if field = "provider" then some (.string user.provider)
    else if field = "external_id" then some (.string user.externalId)
    else if field = "metadata" then rest.head?.bind fun key => user.metadata.lookup key
    else if field = "claims" then
      rest.head?.bind fun key => if isReservedClaim key then none else user.claims.lookup key
    else none
  | _ => none

/-- SOURCE: core/src/service/claims.rs:117-131 -/
def resolveTemplate (template : String) (user : User) : Option Value :=
  let trimmed := trimChars template.toList
  if ['{', '{'].isPrefixOf trimmed && ['}', '}'].isSuffixOf trimmed then
    let inner := trimChars ((trimmed.drop 2).take (trimmed.length - 4))
    match parseDefaultFilter inner with
    | some (path, default) => (resolveField (trimChars path) user).or (some (.string default))
    | none => resolveField inner user
  else
    some (.string template)

/-- What a configured template contributes. -/
def templateClaim (user : User) (key template : String) : Option Value :=
  if isReservedClaim key then none else resolveTemplate template user

/-- What a claim of the user contributes. -/
def userClaim (key : String) (value : Value) : Option Value :=
  if isReservedClaim key then none else some value

/-- SOURCE: core/src/service/claims.rs:84-111 -/
def resolveCustomClaims (configClaims : Option (Table String String)) (user : User) :
    Table String Value :=
  let result : Table String Value :=
    match configClaims with
    | some templates => Table.merge ∅ templates (templateClaim user)
    | none => ∅
  result.merge user.claims userClaim

/-! ## What the claims depend on -/

variable {user : User} {claims : Table String Value}

/-- The records agree on every claim that is not reserved. -/
def AgreeOffReserved (claims claims' : Table String Value) : Prop :=
  ∀ key, isReservedClaim key = false → claims.lookup key = claims'.lookup key

/-- What a name resolves to: the user's claim, or else the template. -/
theorem lookup_resolveCustomClaims (configClaims : Option (Table String String)) (key : String) :
    (resolveCustomClaims configClaims user).lookup key =
      ((user.claims.lookup key).bind (userClaim key)).or
        (configClaims.bind fun templates =>
          (templates.lookup key).bind (templateClaim user key)) := by
  unfold resolveCustomClaims
  rw [Table.lookup_merge]
  cases configClaims with
  | none => simp
  | some templates => simp [Table.lookup_merge]

/-- A field reads no reserved claim. -/
theorem resolveField_congr (hagree : AgreeOffReserved user.claims claims) (path : List Char) :
    resolveField path { user with claims := claims } = resolveField path user := by
  have hclaim : ∀ key : String, (if isReservedClaim key then none else claims.lookup key) =
      (if isReservedClaim key then none else user.claims.lookup key) := by
    intro key
    cases hkey : isReservedClaim key with
    | true => rfl
    | false => exact (hagree key hkey).symm
  unfold resolveField
  simp only [hclaim]

theorem resolveTemplate_congr (hagree : AgreeOffReserved user.claims claims) (template : String) :
    resolveTemplate template { user with claims := claims } = resolveTemplate template user := by
  unfold resolveTemplate
  simp only [resolveField_congr hagree]

/-- A reserved name contributes nothing. -/
theorem lookup_resolveCustomClaims_of_reserved (configClaims : Option (Table String String))
    {key : String} (hkey : isReservedClaim key = true) :
    (resolveCustomClaims configClaims user).lookup key = none := by
  have htemplate : templateClaim user key = fun _ => none := by
    funext template
    simp [templateClaim, hkey]
  have huser : userClaim key = fun _ => none := by
    funext value
    simp [userClaim, hkey]
  rw [lookup_resolveCustomClaims, htemplate, huser]
  simp

/-- **Reserved claims are out of reach**: what a user's record holds under reserved names
does not change the claims of a token, and no claim of a token has a reserved name. -/
theorem reserved_out_of_reach (configClaims : Option (Table String String)) (user : User) :
    (∀ claims, AgreeOffReserved user.claims claims → ∀ key,
      (resolveCustomClaims configClaims { user with claims := claims }).lookup key =
        (resolveCustomClaims configClaims user).lookup key) ∧
    ∀ key ∈ (resolveCustomClaims configClaims user).keys, isReservedClaim key = false := by
  constructor
  · intro claims hagree key
    cases hkey : isReservedClaim key with
    | true => simp only [lookup_resolveCustomClaims_of_reserved _ hkey]
    | false =>
      have htemplate : templateClaim { user with claims := claims } key =
          templateClaim user key := by
        funext template
        simp [templateClaim, resolveTemplate_congr hagree]
      rw [lookup_resolveCustomClaims, lookup_resolveCustomClaims, htemplate, ← hagree key hkey]
  · intro key hmem
    cases hkey : isReservedClaim key with
    | false => rfl
    | true =>
      have hsome := AList.lookup_isSome.mpr (AList.mem_keys.mpr hmem)
      rw [lookup_resolveCustomClaims_of_reserved _ hkey] at hsome
      exact absurd hsome (by simp)

end OidcExchange
