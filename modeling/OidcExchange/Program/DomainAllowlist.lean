import Mathlib.Data.List.Forall2
import OidcExchange.Program.Exchange

/-!
# The e-mail domain allow-list

What the configuration accepts as an allow-list entry, and the matcher that the
registration policy calls. The matcher lower-cases with the Unicode tables of the
standard library; what it needs of them is a structure, so that the results hold for
every version of the tables.
-/

set_option autoImplicit false

namespace OidcExchange

/-- U+212A, whose lower case is the ASCII letter `k`. -/
def kelvinSign : Char := Char.ofNat 0x212A

/-- U+0130, whose lower case is the ASCII letter `i` under a combining dot. -/
def dottedCapitalI : Char := Char.ofNat 0x0130

/-- U+0307, the combining dot. -/
def combiningDot : Char := Char.ofNat 0x0307

/-- What the standard library's tables say of text. `lowerOther` gives the lower case of a
character outside ASCII between the text before it and the text after it (a final sigma has
a lower case of its own); no such character but U+212A and U+0130 has ASCII in its lower
case. `debug` is the `{:?}` rendering. -/
structure UnicodeTables : Type where
  lowerOther : List Char → Char → List Char → List Char
  lowerOther_ne_nil : ∀ before c after, lowerOther before c after ≠ []
  lowerOther_outside : ∀ before c after, 128 ≤ c.toNat → c ≠ kelvinSign →
    c ≠ dottedCapitalI → ∀ x ∈ lowerOther before c after, 128 ≤ x.toNat
  debug : String → String

variable (tables : UnicodeTables)

/-- The lower case of one character. SOURCE: `str::to_lowercase` -/
def UnicodeTables.lowerChar (before : List Char) (c : Char) (after : List Char) : List Char :=
  if c.toNat < 128 then [c.toLower]
  else if c = kelvinSign then ['k']
  else if c = dottedCapitalI then ['i', combiningDot]
  else tables.lowerOther before c after

/-- The lower case of a part of a text. -/
def UnicodeTables.lowerBetween (before part after : List Char) : List Char :=
  match part with
  | [] => []
  | c :: rest =>
    tables.lowerChar before c (rest ++ after) ++ lowerBetween (before ++ [c]) rest after

/-- SOURCE: `str::to_lowercase` -/
def UnicodeTables.toLowercase (text : List Char) : List Char := tables.lowerBetween [] text []

/-- The text around the last separator. SOURCE: `str::rsplit_once` -/
def rsplitOnce (separator : Char) : List Char → Option (List Char × List Char)
  | [] => none
  | c :: rest =>
    match rsplitOnce separator rest with
    | some (before, after) => some (c :: before, after)
    | none => if c = separator then some ([], rest) else none

/-- What the parser requires of a trimmed entry. SOURCE: core/src/config.rs:2250-2255 -/
def isAllowlistEntry (trimmed : List Char) : Bool :=
  !trimmed.isEmpty && trimmed.all (·.toNat < 128) &&
    ((trimmed.dropPrefix? ['*', '.']).getD trimmed).contains '.' && !trimmed.contains '/'

/-- An allow-list entry that the parser has accepted. SOURCE: core/src/config.rs:2237-2238 -/
structure AsciiDomainPattern : Type where
  chars : List Char
  trimmed : trimChars chars = chars
  accepted : isAllowlistEntry chars = true

/-- A trimmed text has no white space in front. -/
theorem dropWhile_trimChars (text : List Char) :
    (trimChars text).dropWhile isWhiteSpace = trimChars text := by
  cases htrim : trimChars text with
  | nil => rfl
  | cons c rest =>
    have hbegins : c :: rest <+: text.dropWhile isWhiteSpace := by
      rw [← htrim]
      exact List.rdropWhile_prefix isWhiteSpace _
    obtain ⟨back, hback⟩ := hbegins
    have hne : text.dropWhile isWhiteSpace ≠ [] := by simp [← hback]
    have hc : isWhiteSpace c = false := by
      have hhead := List.head_dropWhile_not isWhiteSpace hne
      simpa [← hback] using hhead
    exact List.dropWhile_cons_of_neg (by simp [hc])

/-- Trimming twice is trimming once. -/
theorem trimChars_trimChars (text : List Char) : trimChars (trimChars text) = trimChars text := by
  rw [trimChars, dropWhile_trimChars]
  exact List.rdropWhile_idempotent isWhiteSpace _

/-- SOURCE: core/src/config.rs:2249-2263 -/
def AsciiDomainPattern.parseField (field value : String) : Except Error AsciiDomainPattern :=
  if h : isAllowlistEntry (trimChars value.toList) = true then
    .ok ⟨trimChars value.toList, trimChars_trimChars _, h⟩
  else
    .error (.configError (field ++ ": invalid allowlist entry " ++ tables.debug value))

/-- The allow-list of a configuration. SOURCE: core/src/config.rs:580-591 -/
def resolveDomainAllowlist (entries : Option (List String)) :
    Except Error (Option (List AsciiDomainPattern)) :=
  match entries with
  | none => .ok none
  | some entries =>
    some <$> entries.mapM (AsciiDomainPattern.parseField tables "registration.domain_allowlist")

/-- The length in bytes. SOURCE: `str::len` -/
def utf8Length (text : List Char) : ℕ := (text.map Char.utf8Size).sum

/-- Whether one entry admits a lower-cased domain. SOURCE: core/src/service/exchange.rs:77-91 -/
def AsciiDomainPattern.matchesLower (domainLower : List Char) (entry : AsciiDomainPattern) : Bool :=
  match tables.toLowercase entry.chars with
  | '*' :: suffix => suffix.isSuffixOf domainLower && utf8Length suffix < utf8Length domainLower
  | entryLower => domainLower == entryLower

/-- SOURCE: core/src/service/exchange.rs:69-95 -/
def matchesDomainAllowlist (allowlist : List AsciiDomainPattern) (email : String) : Bool :=
  match rsplitOnce '@' email.toList with
  | none => false
  | some (_, domain) => allowlist.any (·.matchesLower tables (tables.toLowercase domain))

end OidcExchange
