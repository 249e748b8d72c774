import OidcExchange.Program.Assertion
import OidcExchange.Program.Upstream

/-!
# The transport of upstream responses

The status of a response decides how its body is read: that of a success is refused beyond the
ceiling, and that of a failure is cut there and made a text.

A body arrives in chunks, until it ends or the connection breaks. Left out: warnings.
-/

set_option autoImplicit false

namespace OidcExchange

open Texts

/-- SOURCE: adapters/src/shared/http.rs:27 -/
def maxUpstreamBodyBytes : ℕ := 65536

/-- What arrives of a response: its status, the length that it declares, the chunks of its body,
and what breaks the connection after them. SOURCE: `reqwest::Response` -/
structure UpstreamResponse : Type where
  status : StatusCode
  contentLength : Option UInt64
  chunks : List (List UInt8)
  broken : Option String

/-- A difference that must not be negative. -/
def subUsize {ε : Type} (a b : ℕ) : Except (Fault ε) ℕ :=
  if b ≤ a then .ok (a - b) else .error .panic

/-- The first bytes of a chunk that must be as long. -/
def chunkHead {ε : Type} (chunk : List UInt8) (n : ℕ) : Except (Fault ε) (List UInt8) :=
  if n ≤ chunk.length then .ok (chunk.take n) else .error .panic

/-! ## Failures -/

/-- The chunks that fit below the ceiling, the last of them cut.
SOURCE: adapters/src/shared/http.rs:80-97 -/
def bufferUpToCeiling (provider : String) (broken : Option String) :
    List UInt8 → List (List UInt8) → Except (Fault Error) (List UInt8)
  | buffered, [] =>
    match broken with
    | none => .ok buffered
    | some e => .error (.error (.providerError provider
        ("failed while reading upstream response body: " ++ e)))
  | buffered, chunk :: rest =>
    if maxUpstreamBodyBytes < buffered.length + chunk.length then do
      let remaining ← subUsize maxUpstreamBodyBytes buffered.length
      let head ← chunkHead chunk remaining
      .ok (buffered ++ head)
    else bufferUpToCeiling provider broken (buffered ++ chunk) rest

/-- SOURCE: adapters/src/shared/http.rs:71-116 -/
def readBounded (provider : String) (response : UpstreamResponse) : Except (Fault Error) String := do
  assertThat (!provider.isEmpty)
  let buffered ← bufferUpToCeiling provider response.broken [] response.chunks
  assertThat (buffered.length ≤ maxUpstreamBodyBytes)
  .ok (String.ofList (Lossy.decode buffered))

/-! ## Successes -/

/-- SOURCE: adapters/src/shared/http.rs:121-129 -/
inductive BoundedBodyError : Type
  | overLimit (limitBytes : ℕ)
  | network (e : String)

/-- The chunks, unless they go beyond the ceiling. SOURCE: adapters/src/shared/http.rs:168-177 -/
def bufferBelowCeiling (broken : Option String) :
    List UInt8 → List (List UInt8) → Except (Fault BoundedBodyError) (List UInt8)
  | buffer, [] =>
    match broken with
    | none => .ok buffer
    | some e => .error (.error (.network e))
  | buffer, chunk :: rest =>
    if maxUpstreamBodyBytes < buffer.length + chunk.length then
      .error (.error (.overLimit maxUpstreamBodyBytes))
    else bufferBelowCeiling broken (buffer ++ chunk) rest

/-- The body declares that it is too long. SOURCE: adapters/src/shared/http.rs:160-166 -/
def declaresOverLimit (response : UpstreamResponse) : Bool :=
  response.contentLength.any fun declared => maxUpstreamBodyBytes < declared.toNat

/-- SOURCE: adapters/src/shared/http.rs:156-185 -/
def readBoundedBytes (response : UpstreamResponse) :
    Except (Fault BoundedBodyError) (List UInt8) :=
  if declaresOverLimit response then .error (.error (.overLimit maxUpstreamBodyBytes))
  else do
    let buffer ← bufferBelowCeiling response.broken [] response.chunks
    assertThat (buffer.length ≤ maxUpstreamBodyBytes)
    .ok buffer

/-! ## Both -/

/-- A body that was read, with the status of its response.
SOURCE: adapters/src/shared/transport.rs:46-53 -/
structure UpstreamBody : Type where
  status : StatusCode
  bytes : List UInt8
  bounded : bytes.length ≤ maxUpstreamBodyBytes

/-- SOURCE: adapters/src/shared/transport.rs:121-135 -/
def bodyError (provider url : String) : Fault BoundedBodyError → Fault Error
  | .error (.overLimit limitBytes) => .error (.providerError provider
      ("response from " ++ url ++ " exceeded the " ++ toString limitBytes ++
        "-byte upstream limit"))
  | .error (.network e) =>
      .error (.providerError provider ("reading response body failed: " ++ e))
  | .panic => .panic

/-- The bytes of a body, read as its status says.
SOURCE: adapters/src/shared/transport.rs:120-141 -/
def readBody (provider url : String) (response : UpstreamResponse) :
    Except (Fault Error) (List UInt8) :=
  if response.status.isSuccess then
    (readBoundedBytes response).mapError (bodyError provider url)
  else bytes <$> readBounded provider response

/-- SOURCE: adapters/src/shared/transport.rs:106-149 -/
def collect (provider url : String) (response : UpstreamResponse) :
    Except (Fault Error) UpstreamBody := do
  let bytes ← readBody provider url response
  if bounded : bytes.length ≤ maxUpstreamBodyBytes then .ok ⟨response.status, bytes, bounded⟩
  else .error .panic

end OidcExchange
