import OidcExchange.Program.Configuration
import OidcExchange.Program.WireRequest

/-!
# Requests below a mount prefix

A deployment may be mounted below a path. The prefix is taken off the path of every request
before it is routed, where the path goes on with a slash or ends there.

The package that takes addresses apart and puts them together is a parameter. Left out: the
warnings that tell why a request is routed as it came.
-/

set_option autoImplicit false

namespace OidcExchange

open Texts

/-- SOURCE: `http::uri::PathAndQuery` -/
structure PathAndQuery : Type where
  path : List UInt8
  query : Option (List UInt8)

/-- SOURCE: `http::uri::Parts` -/
structure UriParts : Type where
  scheme : Option (List UInt8)
  authority : Option (List UInt8)
  pathAndQuery : Option PathAndQuery

/-- What is used of the package: which values it hands over as addresses, the bytes it allows in
a path and in a query, and how many, and its functions. -/
structure UriLibrary : Type where
  IsUri : Uri → Prop
  pathByte : UInt8 → Bool
  queryByte : UInt8 → Bool
  maxLen : ℕ
  intoParts : Uri → UriParts
  parsePathAndQuery : List UInt8 → Option PathAndQuery
  fromParts : UriParts → Option Uri

/-- SOURCE: server/src/middleware/base_path.rs:314-317 -/
def stripPrefixAtSegmentBoundary (path mount : List UInt8) : Option (List UInt8) :=
  (path.dropPrefix? mount).filter fun rest => rest.isEmpty || rest.head? == some slash

/-- SOURCE: server/src/middleware/base_path.rs:283-298 -/
def rebuildUriWithPathAndQuery (lib : UriLibrary) (uri : Uri)
    (newPathAndQuery : List UInt8) : Option Uri := do
  let pathAndQuery ← lib.parsePathAndQuery newPathAndQuery
  let newUri ← lib.fromParts { lib.intoParts uri with pathAndQuery := some pathAndQuery }
  if newUri.path.isEmpty then none else some newUri

/-- A request whose path equals the bare prefix is one for the root. -/
def rootIfEmpty (stripped : List UInt8) : List UInt8 :=
  if stripped.isEmpty then [slash] else stripped

/-- The request with another address, if there is one and its path is another.
SOURCE: server/src/middleware/base_path.rs:229-275 -/
def routeTo {Method Name Value : Type} (request : HttpRequest Method Name Value) :
    Option Uri → Except (Fault Empty) (HttpRequest Method Name Value)
  | none => .ok request
  | some newUri =>
    if newUri.path = request.uri.path then .ok request
    else do
      assertThat !newUri.path.isEmpty
      .ok { request with uri := newUri }

/-- SOURCE: server/src/middleware/base_path.rs:202-276 -/
def stripBasePath (lib : UriLibrary) {Method Name Value : Type}
    (request : HttpRequest Method Name Value) (basePath : Option String) :
    Except (Fault Empty) (HttpRequest Method Name Value) :=
  match basePath.filter fun mount => !mount.isEmpty && mount != "/" with
  | none => .ok request
  | some mount =>
    match stripPrefixAtSegmentBoundary request.uri.path (bytes mount) with
    | none => .ok request
    | some stripped =>
      routeTo request (rebuildUriWithPathAndQuery lib request.uri
        (pathAndQuery (rootIfEmpty stripped) request.uri.query))

/-- The package allows the bytes of a path and of a query, and no more of them. -/
structure UriLibrary.Allows (lib : UriLibrary) (path : List UInt8) (query : Option (List UInt8)) :
    Prop where
  path_bytes : ∀ b ∈ path, lib.pathByte b = true
  query_bytes : ∀ q, query = some q → ∀ b ∈ q, lib.queryByte b = true
  is_text : isUtf8 (pathAndQuery path query) = true
  fits : (pathAndQuery path query).length ≤ lib.maxLen

/-- What the package documents of these functions. An address is made of what it allows, a slash
begins the path of one with a scheme and an authority or with neither, and parts are put together
as they are. -/
structure UriLibrary.Documented (lib : UriLibrary) : Prop where
  allows : ∀ uri, lib.IsUri uri → lib.Allows uri.path uri.query
  absolute : ∀ uri, lib.IsUri uri → uri.path.head? = some slash →
    uri.scheme.isSome = uri.authority.isSome
  intoParts : ∀ uri, lib.IsUri uri →
    (lib.intoParts uri).scheme = uri.scheme ∧ (lib.intoParts uri).authority = uri.authority
  parse : ∀ path query, path.head? = some slash → lib.Allows path query →
    lib.parsePathAndQuery (pathAndQuery path query) = some ⟨path, query⟩
  fromParts : ∀ scheme authority path query, path.head? = some slash →
    scheme.isSome = authority.isSome →
    lib.fromParts ⟨scheme, authority, some ⟨path, query⟩⟩ =
      some ⟨scheme, authority, path, query⟩

end OidcExchange
