import Mathlib.Algebra.Group.Nat.Defs
import Mathlib.Data.Vector.Basic

/-!
# Network addresses

Addresses of both versions and their text form, read and written as the standard library of
the source does.
-/

set_option autoImplicit false

namespace OidcExchange

/-- An address of either version. -/
inductive IpAddr : Type
  | v4 (octets : Vector UInt8 4)
  | v6 (segments : Vector UInt16 8)
  deriving DecidableEq

/-- An address and a port. -/
structure SocketAddr : Type where
  ip : IpAddr
  port : UInt16
  deriving DecidableEq

namespace IpAddr

/-! ## Reading -/

/-- What a reader makes of a text: a value and the text after it, or nothing. -/
abbrev Reader (α : Type) : Type := List Char → Option (α × List Char)

/-- The value of a digit, in either case. -/
def digitOf (radix : ℕ) (c : Char) : Option ℕ :=
  let value :=
    if c.isDigit then c.toNat - '0'.toNat
    else if 'a' ≤ c ∧ c ≤ 'z' then c.toNat - 'a'.toNat + 10
    else if 'A' ≤ c ∧ c ≤ 'Z' then c.toNat - 'A'.toNat + 10
    else radix
  if value < radix then some value else none

/-- A number below a bound, of at most so many digits. -/
def readNumber (radix bound : ℕ) (maxDigits : Option ℕ) (allowZeroPrefix : Bool) : Reader ℕ :=
  fun text =>
    let digits := text.takeWhile fun c => (digitOf radix c).isSome
    let value := (digits.filterMap (digitOf radix)).foldl (fun n d => radix * n + d) 0
    if digits.isEmpty || maxDigits.any (· < digits.length) then none
    else if !allowZeroPrefix && digits.head? == some '0' && 1 < digits.length then none
    else if value < bound then some (value, text.drop digits.length)
    else none

def readGivenChar (c : Char) : Reader Unit
  | [] => none
  | c' :: rest => if c' = c then some ((), rest) else none

/-- A part after its separator, which the first part does not have. -/
def readSeparator {α : Type} (sep : Char) (index : ℕ) (inner : Reader α) : Reader α :=
  fun text =>
    if index = 0 then inner text
    else do
      let (_, rest) ← readGivenChar sep text
      inner rest

def readOctet (index : ℕ) : Reader ℕ :=
  readSeparator '.' index (readNumber 10 256 (some 3) false)

def readIpv4Addr : Reader (Vector UInt8 4) := fun text => do
  let (a, text) ← readOctet 0 text
  let (b, text) ← readOctet 1 text
  let (c, text) ← readOctet 2 text
  let (d, text) ← readOctet 3 text
  return (#v[UInt8.ofNat a, UInt8.ofNat b, UInt8.ofNat c, UInt8.ofNat d], text)

/-- The group of two octets. -/
def fromBeBytes (high low : UInt8) : UInt16 := high.toUInt16 * 256 + low.toUInt16

/-- Up to so many groups from a position on; whether they end in an embedded address of the
older version, which takes two groups; and the text after them. -/
def readGroups (index : ℕ) : ℕ → List Char → List UInt16 × Bool × List Char
  | 0, text => ([], false, text)
  | left + 1, text =>
    match if 1 ≤ left then readSeparator ':' index readIpv4Addr text else none with
    | some (octets, rest) =>
      ([fromBeBytes octets[0] octets[1], fromBeBytes octets[2] octets[3]], true, rest)
    | none =>
      match readSeparator ':' index (readNumber 16 65536 (some 4) true) text with
      | some (group, rest) =>
        let (groups, embedded, rest) := readGroups (index + 1) left rest
        (UInt16.ofNat group :: groups, embedded, rest)
      | none => ([], false, text)

def ofGroups (groups : List UInt16) : Vector UInt16 8 := Vector.ofFn fun i => groups.getD i 0

def readIpv6Addr : Reader (Vector UInt16 8) := fun text => do
  let (head, embedded, text) := readGroups 0 8 text
  if head.length = 8 then return (ofGroups head, text)
  if embedded then none
  let (_, text) ← readGivenChar ':' text
  let (_, text) ← readGivenChar ':' text
  let (tail, _, text) := readGroups 0 (7 - head.length) text
  return (ofGroups (head ++ List.replicate (8 - head.length - tail.length) 0 ++ tail), text)

def readIpAddr : Reader IpAddr := fun text =>
  match readIpv4Addr text with
  | some (octets, rest) => some (.v4 octets, rest)
  | none => (readIpv6Addr text).map fun (segments, rest) => (.v6 segments, rest)

def readPort : Reader UInt16 := fun text => do
  let (_, text) ← readGivenChar ':' text
  let (port, text) ← readNumber 10 65536 none true text
  return (UInt16.ofNat port, text)

/-- The zone of an address of the newer version, which may be left out. -/
def skipScopeId (text : List Char) : List Char :=
  match readGivenChar '%' text with
  | none => text
  | some (_, rest) =>
    match readNumber 10 (2 ^ 32) none true rest with
    | none => text
    | some (_, rest) => rest

def readSocketAddrV4 : Reader SocketAddr := fun text => do
  let (octets, text) ← readIpv4Addr text
  let (port, text) ← readPort text
  return (⟨.v4 octets, port⟩, text)

def readSocketAddrV6 : Reader SocketAddr := fun text => do
  let (_, text) ← readGivenChar '[' text
  let (segments, text) ← readIpv6Addr text
  let (_, text) ← readGivenChar ']' (skipScopeId text)
  let (port, text) ← readPort text
  return (⟨.v6 segments, port⟩, text)

/-- What is read of the whole text. -/
def parseWith {α : Type} (reader : Reader α) (text : List Char) : Option α :=
  match reader text with
  | some (value, []) => some value
  | _ => none

def parse (text : List Char) : Option IpAddr := parseWith readIpAddr text

end IpAddr

def SocketAddr.parse (text : List Char) : Option SocketAddr :=
  IpAddr.parseWith
    (fun text => (IpAddr.readSocketAddrV4 text).or (IpAddr.readSocketAddrV6 text)) text

namespace IpAddr

/-! ## Writing -/

def showIpv4 (octets : Vector UInt8 4) : List Char :=
  List.intercalate ['.'] (octets.toList.map fun octet => octet.toNat.repr.toList)

def showGroups (groups : List UInt16) : List Char :=
  List.intercalate [':'] (groups.map fun group => Nat.toDigits 16 group.toNat)

/-- Where the first longest run of zero groups starts, and its length. -/
def longestZeroRun (groups : List UInt16) : ℕ × ℕ :=
  let step (state : (ℕ × ℕ) × (ℕ × ℕ)) (entry : UInt16 × ℕ) : (ℕ × ℕ) × (ℕ × ℕ) :=
    let (longest, current) := state
    if entry.1 = 0 then
      let current := if current.2 = 0 then (entry.2, 1) else (current.1, current.2 + 1)
      (if longest.2 < current.2 then current else longest, current)
    else
      (longest, (0, 0))
  (groups.zipIdx.foldl step ((0, 0), (0, 0))).1

/-- The address of the older version that an address of the newer one stands for. -/
def toIpv4Mapped (segments : Vector UInt16 8) : Option (Vector UInt8 4) :=
  if segments.toList.take 6 = [0, 0, 0, 0, 0, 0xFFFF] then
    some #v[(segments[6] / 256).toUInt8, segments[6].toUInt8, (segments[7] / 256).toUInt8,
      segments[7].toUInt8]
  else
    none

def showIpv6 (segments : Vector UInt16 8) : List Char :=
  match toIpv4Mapped segments with
  | some octets => "::ffff:".toList ++ showIpv4 octets
  | none =>
    let groups := segments.toList
    let (start, length) := longestZeroRun groups
    if 1 < length then
      showGroups (groups.take start) ++ "::".toList ++ showGroups (groups.drop (start + length))
    else
      showGroups groups

/-- The text of an address. -/
def toText : IpAddr → String
  | .v4 octets => String.ofList (showIpv4 octets)
  | .v6 segments => String.ofList (showIpv6 segments)

example : (parse "2001:db8::0:1".toList).map toText = some "2001:db8::1" := by decide +kernel

example : (parse "::ffff:192.0.2.1".toList).map toText = some "::ffff:192.0.2.1" := by
  decide +kernel

example : parse "192.0.2.01".toList = none := by decide +kernel

example : (SocketAddr.parse "[2001:db8::1]:443".toList).map (fun s => s.ip.toText) =
    some "2001:db8::1" := by
  decide +kernel

end IpAddr

end OidcExchange
