import OidcExchange.Model.Domain
import OidcExchange.Texts.Decimal
import OidcExchange.Texts.Percent

/-!
# Requests of an embedding host

A host that embeds the service hands over a request as bytes; it is checked, its path is
decoded and encoded again, and a request for the router is built. The package that knows
methods, targets and header values is a parameter.

Left out: the warning about dropped headers, and the path that the conformance build records.
-/

set_option autoImplicit false

namespace OidcExchange

open Storage Texts

/-- The parts of a request target. -/
structure Uri : Type where
  scheme : Option (List UInt8)
  authority : Option (List UInt8)
  path : List UInt8
  query : Option (List UInt8)

/-- SOURCE: ffi/src/lib.rs:54-59 -/
structure WireLocation : Type where
  city : Option String
  region : Option String
  country : Option String

/-- SOURCE: ffi/src/lib.rs:46-49 -/
structure TransportHints : Type where
  pathIsRaw : Bool

/-- SOURCE: ffi/src/lib.rs:61-73 -/
structure WireRequest : Type where
  method : String
  rawPath : List UInt8
  query : Option (List UInt8)
  headers : List (String × String)
  body : List UInt8
  hints : TransportHints
  location : Option WireLocation

/-- SOURCE: ffi/src/lib.rs:75-78 -/
structure NormalisationLimits : Type where
  maxBodyBytes : UInt64

/-- What the boundary uses of the packages for requests and for percent encoding. -/
structure HttpLibrary (Method Name Value : Type) : Type where
  percentDecode : List UInt8 → List UInt8
  percentEncode : (UInt8 → Bool) → List UInt8 → List UInt8
  methodFromStr : String → Option Method
  uriFromStr : List UInt8 → Option Uri
  headerName : String → Option Name
  headerValue : String → Option Value
  toStr : Value → Option String
  contentLength : Name
  /-- Appending to these headers panics, whatever is appended. -/
  full : Table Name (List Value) → Bool

/-- The request the router is given. -/
structure HttpRequest (Method Name Value : Type) : Type where
  method : Method
  uri : Uri
  headers : Table Name (List Value)
  body : List UInt8
  suppliedLocation : Option SessionLocation

/-- Why no request is built: it is answered with a status, or building it panics. -/
inductive ShapingFailure : Type
  | status (code : ℕ)
  | panic
  deriving DecidableEq

/-- Answer with a status if a check fails. -/
def refuseIf (failed : Bool) (code : ℕ) : Except ShapingFailure Unit :=
  if failed then .error (.status code) else .ok ()

/-- Answer with a status if there is no value. -/
def orRefuse {α : Type} (code : ℕ) : Option α → Except ShapingFailure α
  | some x => .ok x
  | none => .error (.status code)

def slash : UInt8 := 0x2F

def questionMark : UInt8 := 0x3F

def numberSign : UInt8 := 0x23

/-- The bytes of a path that are not escaped. SOURCE: ffi/src/lib.rs:13-17 -/
def pathKeep (b : UInt8) : Bool :=
  (0x30 ≤ b && b ≤ 0x39) || (0x41 ≤ b && b ≤ 0x5A) || (0x61 ≤ b && b ≤ 0x7A) ||
    b == 0x2E || b == 0x2D || b == 0x5F || b == 0x7E

section

variable {Method Name Value : Type} [DecidableEq Name] (lib : HttpLibrary Method Name Value)

/-- The path as the host gave it, with the empty path read as the root. -/
def WireRequest.givenPath (request : WireRequest) : List UInt8 :=
  if request.rawPath.isEmpty then [slash] else request.rawPath

/-- The path that the host means. -/
def hostPath (request : WireRequest) : List UInt8 :=
  if request.hints.pathIsRaw then lib.percentDecode request.givenPath else request.givenPath

/-- The checks on the path as it was given. SOURCE: ffi/src/lib.rs:269-280 -/
def checkGivenPath (request : WireRequest) : Except ShapingFailure Unit := do
  let rawPath := request.givenPath
  refuseIf (rawPath.head? != some slash || [slash, slash].isPrefixOf rawPath) 400
  refuseIf (!isUtf8 rawPath) 400
  refuseIf (request.hints.pathIsRaw &&
    (rawPath.contains questionMark || rawPath.contains numberSign)) 400

/-- SOURCE: ffi/src/lib.rs:281-287 -/
def decodePath (request : WireRequest) : Except ShapingFailure (List UInt8) := do
  refuseIf (request.hints.pathIsRaw && !isUtf8 (hostPath lib request)) 400
  return hostPath lib request

/-- SOURCE: ffi/src/lib.rs:288-291 -/
def readQuery (request : WireRequest) : Except ShapingFailure (Option (List UInt8)) :=
  match request.query with
  | none | some [] => .ok none
  | some query => do
    refuseIf (!isUtf8 query) 400
    return some query

/-- The path written as part of a target. SOURCE: ffi/src/lib.rs:295-297 -/
def encodePath (path : List UInt8) : List UInt8 :=
  Percent.unescape slash (lib.percentEncode pathKeep path)

/-- SOURCE: ffi/src/lib.rs:298-301 -/
def pathAndQuery (encodedPath : List UInt8) : Option (List UInt8) → List UInt8
  | some query => encodedPath ++ questionMark :: query
  | none => encodedPath

/-- SOURCE: ffi/src/lib.rs:302-305 -/
def parseTarget (target : List UInt8) : Except ShapingFailure Uri := do
  let uri ← orRefuse 400 (lib.uriFromStr target)
  refuseIf (uri.scheme.isSome || uri.authority.isSome || uri.path.head? != some slash) 400
  return uri

/-- The name and the value of a header that the package accepts. -/
def validHeader (header : String × String) : Option (Name × Value) :=
  match lib.headerName header.1, lib.headerValue header.2 with
  | some name, some value => some (name, value)
  | _, _ => none

/-- The length that a header declares is the length of the body.
SOURCE: ffi/src/lib.rs:333-346 -/
def checkContentLength (limits : NormalisationLimits) (bodyLen : ℕ) (name : Name)
    (value : Value) : Except ShapingFailure Unit :=
  if name = lib.contentLength then do
    let declared ← orRefuse 400
      ((lib.toStr value).bind fun text => (parseBounded (2 ^ 64) text.toList).toOption)
    refuseIf (decide (limits.maxBodyBytes.toNat < declared)) 413
    refuseIf (declared != bodyLen) 400
  else
    .ok ()

/-- One more value under a name. -/
def insertValue (headers : Table Name (List Value)) (name : Name) (value : Value) :
    Table Name (List Value) :=
  headers.insert name ((headers.lookup name).getD [] ++ [value])

/-- SOURCE: ffi/src/lib.rs:347 -/
def appendValue (headers : Table Name (List Value)) (name : Name) (value : Value) :
    Except ShapingFailure (Table Name (List Value)) :=
  if lib.full headers then .error .panic else .ok (insertValue headers name value)

/-- One header of the host: one that the package does not accept is dropped.
SOURCE: ffi/src/lib.rs:326-351 -/
def appendHeader (limits : NormalisationLimits) (bodyLen : ℕ)
    (headers : Table Name (List Value)) (header : String × String) :
    Except ShapingFailure (Table Name (List Value)) :=
  match validHeader lib header with
  | none => .ok headers
  | some (name, value) => do
    checkContentLength lib limits bodyLen name value
    appendValue lib headers name value

/-- SOURCE: ffi/src/lib.rs:260-356 -/
def normaliseRequest (limits : NormalisationLimits) (request : WireRequest) :
    Except ShapingFailure (HttpRequest Method Name Value) := do
  refuseIf (decide (limits.maxBodyBytes.toNat < request.body.length)) 413
  let method ← orRefuse 400 (lib.methodFromStr request.method)
  checkGivenPath request
  let path ← decodePath lib request
  let query ← readQuery request
  let uri ← parseTarget lib (pathAndQuery (encodePath lib path) query)
  let headers ← request.headers.foldlM
    (appendHeader lib limits request.body.length) (∅ : Table Name (List Value))
  return {
    method := method
    uri := uri
    headers := headers
    body := request.body
    suppliedLocation := request.location.bind fun l =>
      SessionLocation.new l.city l.region l.country }

/-- What the packages document of these functions: a percent encoding writes every byte that is
not kept as an escape, decoding reads every escape, and a target that starts with a slash is a
path, a query after the first question mark, and a fragment that is dropped. -/
structure HttpLibrary.Documented (lib : HttpLibrary Method Name Value) : Prop where
  percentDecode : lib.percentDecode = Percent.decode
  percentEncode : ∀ keep bs, (∀ b, keep b = true → b < 128) →
    lib.percentEncode keep bs = Percent.encode keep bs
  originForm : ∀ text uri, text.head? = some slash → lib.uriFromStr text = some uri →
    let whole := text.takeWhile (· != numberSign)
    uri = {
      scheme := none
      authority := none
      path := whole.takeWhile (· != questionMark)
      query := if whole.contains questionMark then
        some (whole.dropWhile (· != questionMark)).tail else none }

end

end OidcExchange
