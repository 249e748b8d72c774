import OidcExchange.Model.Audit
import OidcExchange.Model.IpAddr
import OidcExchange.Program.Configuration
import OidcExchange.Texts.Percent

/-!
# Where a request comes from

The address and the location of a client are put together from the observed peer, the forwarding
chain of trusted proxies, headers that an operator names, and what the platform or an embedding
host supplies.

A network is given by the addresses it contains. How a percent-encoded header is decoded to a
text is a parameter.

Left out: the layers that store the context in the request.
-/

set_option autoImplicit false

namespace OidcExchange

open Texts

def maxForwardedHeaderLen : ℕ := 1024

def maxUserAgentLen : ℕ := 256

def maxDeviceIdLen : ℕ := 256

def maxLocationHeaderLen : ℕ := 1024

def maxForwardedChainEntries : ℕ := maxTrustedProxyHops

/-- SOURCE: core/src/config.rs:488-494 -/
structure SessionLocationConfig : Type where
  cityHeader : Option String
  regionHeader : Option String
  countryHeader : Option String
  ipHeader : Option String
  trustHeadersFromAnyPeer : Bool

/-- SOURCE: core/src/config.rs:499-504 -/
def SessionLocationConfig.isEnabled (config : SessionLocationConfig) : Bool :=
  config.cityHeader.isSome || config.regionHeader.isSome || config.countryHeader.isSome ||
    config.ipHeader.isSome

/-- What a serverless platform says of a request, with the source address where it has one. -/
inductive RequestContext : Type
  | apiGatewayV2 (sourceIp : Option String)
  | apiGatewayV1 (sourceIp : Option String)
  | alb
  | webSocket (sourceIp : Option String)

/-- What is read of a request: its headers, with names in lower case, and its extensions. -/
structure SourceRequest : Type where
  headers : List (String × List UInt8)
  requestContext : Option RequestContext
  suppliedLocation : Option SessionLocation

/-- SOURCE: server/src/middleware/audit_context.rs:40-49 -/
structure AuditContext : Type where
  clientAddr : ClientAddr
  userAgent : Option String
  deviceId : Option String
  location : Option SessionLocation

/-- The first value under a name. -/
def SourceRequest.header (request : SourceRequest) (name : String) : Option (List UInt8) :=
  request.headers.lookup name.toLower

/-- A header value as a text: every byte is a printable character of the seven-bit range or a
tab. -/
def headerText (value : List UInt8) : Option (List Char) :=
  if value.all fun b => (0x20 ≤ b && b < 0x7F) || b == 0x09 then
    some (value.map fun b => Char.ofNat b.toNat)
  else
    none

/-- SOURCE: server/src/middleware/audit_context.rs:167-170 -/
def boundedHeader (request : SourceRequest) (name : String) (maxLen : ℕ) : Option String :=
  (request.header name).bind fun value =>
    (headerText value).map fun text => String.ofList (text.take maxLen)

/-- SOURCE: server/src/middleware/audit_context.rs:120-127 -/
def decodedHeader (percentDecode : List UInt8 → String) (request : SourceRequest)
    (name : Option String) : Option String := do
  let raw ← name.bind request.header
  let decoded := percentDecode (raw.take maxLocationHeaderLen)
  if (trimChars decoded.toList).isEmpty then none else some decoded

/-- A text between brackets. -/
def stripBrackets (text : List Char) : Option (List Char) :=
  match text with
  | '[' :: rest => if rest.getLast? = some ']' then some rest.dropLast else none
  | _ => none

/-- SOURCE: server/src/middleware/audit_context.rs:131-144 -/
def parseHeaderIp (value : String) : Option IpAddr :=
  let value := trimChars value.toList
  (IpAddr.parse value).or
    (((SocketAddr.parse value).map SocketAddr.ip).or ((stripBrackets value).bind IpAddr.parse))

/-- The address is in one of the networks. -/
def isTrusted (trusted : List (IpAddr → Bool)) (ip : IpAddr) : Bool :=
  trusted.any fun network => network ip

/-- SOURCE: server/src/middleware/audit_context.rs:172-185 -/
def selectForwarded (forwarded : List Char) (hops : ℕ) : Option IpAddr :=
  if 1 ≤ hops ∧ hops ≤ maxForwardedChainEntries then
    let entries := (forwarded.splitOn ',').map trimChars
    if entries.isEmpty || maxForwardedChainEntries < entries.length then none
    else entries.reverse[hops - 1]?.bind IpAddr.parse
  else
    none

/-- SOURCE: server/src/middleware/audit_context.rs:148-165 -/
def resolveClientAddr (peer : Option IpAddr) (forwarded : Option String)
    (trusted : List (IpAddr → Bool)) (hops : ℕ) : ClientAddr :=
  match peer with
  | none => .unknown
  | some peer =>
    let selected := forwarded.bind fun text => selectForwarded text.toList hops
    match if isTrusted trusted peer then selected else none with
    | some address => .forwarded address.toText
    | none => .peer peer.toText

/-- SOURCE: server/src/middleware/audit_context.rs:218-233 -/
def lambdaPlatformSourceIp (request : SourceRequest) : Option SocketAddr :=
  let sourceIp :=
    match request.requestContext with
    | some (.apiGatewayV2 sourceIp) => sourceIp
    | some (.apiGatewayV1 sourceIp) => sourceIp
    | some .alb => none
    | some (.webSocket sourceIp) => sourceIp
    | none => none
  (sourceIp.bind fun text => IpAddr.parse text.toList).map fun ip => ⟨ip, 0⟩

/-- SOURCE: core/src/domain/audit.rs:117-121 -/
def AssertedClientAddr.new (value : String) : Option AssertedClientAddr :=
  if h : value.utf8ByteSize ≤ maxAssertedClientAddrLen then some ⟨value, h⟩ else none

section

variable (percentDecode : List UInt8 → String)

/-- The address that the named header reports. -/
def reportedIp (request : SourceRequest) (config : SessionLocationConfig) : Option IpAddr :=
  (decodedHeader percentDecode request config.ipHeader).bind parseHeaderIp

/-- The peer that the trust decisions are about. -/
def peerIp (request : SourceRequest) (peer : Option SocketAddr) : Option IpAddr :=
  ((lambdaPlatformSourceIp request).or peer).map SocketAddr.ip

/-- The named headers of the request are read. -/
def readsNamedHeaders (request : SourceRequest) (peer : Option SocketAddr)
    (trusted : List (IpAddr → Bool)) (config : SessionLocationConfig) : Bool :=
  config.isEnabled &&
    ((peerIp request peer).any (isTrusted trusted) || config.trustHeadersFromAnyPeer)

/-- SOURCE: server/src/middleware/audit_context.rs:77-80 -/
def chainClientAddr (request : SourceRequest) (peer : Option SocketAddr)
    (trusted : List (IpAddr → Bool)) (hops : ℕ) : ClientAddr :=
  resolveClientAddr (peerIp request peer)
    (boundedHeader request "x-forwarded-for" maxForwardedHeaderLen) trusted hops

/-- The address, with a reported one in its place where the named headers are read: one from a
trusted peer is reported, any other is asserted.
SOURCE: server/src/middleware/audit_context.rs:83-105 -/
def namedClientAddr (request : SourceRequest) (peer : Option SocketAddr)
    (trusted : List (IpAddr → Bool)) (hops : ℕ) (config : SessionLocationConfig) : ClientAddr :=
  if readsNamedHeaders request peer trusted config then
    match reportedIp percentDecode request config with
    | some reported =>
      if (peerIp request peer).any (isTrusted trusted) then .reported reported.toText
      else ((AssertedClientAddr.new reported.toText).map ClientAddr.asserted).getD
        (chainClientAddr request peer trusted hops)
    | none => chainClientAddr request peer trusted hops
  else
    chainClientAddr request peer trusted hops

/-- SOURCE: server/src/middleware/audit_context.rs:81-90 -/
def namedLocation (request : SourceRequest) (peer : Option SocketAddr)
    (trusted : List (IpAddr → Bool)) (config : SessionLocationConfig) : Option SessionLocation :=
  if readsNamedHeaders request peer trusted config then
    SessionLocation.new (decodedHeader percentDecode request config.cityHeader)
      (decodedHeader percentDecode request config.regionHeader)
      (decodedHeader percentDecode request config.countryHeader)
  else
    none

/-- SOURCE: server/src/middleware/audit_context.rs:70-117 -/
def auditContextWithLocation (request : SourceRequest) (peer : Option SocketAddr)
    (trusted : List (IpAddr → Bool)) (hops : ℕ) (config : SessionLocationConfig) :
    AuditContext where
  clientAddr := namedClientAddr percentDecode request peer trusted hops config
  userAgent := boundedHeader request "user-agent" maxUserAgentLen
  deviceId := boundedHeader request "x-device-id" maxDeviceIdLen
  location := request.suppliedLocation.or
    (namedLocation percentDecode request peer trusted config)

end

end OidcExchange
