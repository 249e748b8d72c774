import OidcExchange.Program.AuditContext
import OidcExchange.Program.PublicThrottle

/-!
# Who chooses a client's address

A peer outside every trusted network speaks for itself with its own address only: its headers
reach neither the resolved address nor a rate limit, unless the operator lets any peer name a
location. Behind trusted proxies the address is read at a fixed distance from the right end of
the forwarding header, past whatever the client wrote to the left of it.
-/

set_option autoImplicit false

namespace OidcExchange

open Texts

variable {percentDecode : List UInt8 → String} {request : SourceRequest}
  {peer : Option SocketAddr} {trusted : List (IpAddr → Bool)} {hops : ℕ}
  {config : SessionLocationConfig}

/-! ## Untrusted peers -/

/-- The peer of the request is in no trusted network. -/
def Untrusted (trusted : List (IpAddr → Bool)) (peer : Option IpAddr) : Prop :=
  ∀ ip, peer = some ip → isTrusted trusted ip = false

/-- The address that the server observed. -/
def observedAddr : Option IpAddr → ClientAddr
  | none => .unknown
  | some ip => .peer ip.toText

theorem Untrusted.any_eq {ip : Option IpAddr} (h : Untrusted trusted ip) :
    ip.any (isTrusted trusted) = false := by
  cases ip with
  | none => rfl
  | some ip => exact h ip rfl

/-- The chain of an untrusted peer is not read. -/
theorem chainClientAddr_of_untrusted (h : Untrusted trusted (peerIp request peer)) :
    chainClientAddr request peer trusted hops = observedAddr (peerIp request peer) := by
  unfold chainClientAddr
  cases hpeer : peerIp request peer with
  | none => rfl
  | some ip =>
    have hip := h ip hpeer
    simp [resolveClientAddr, observedAddr, hip]

/-- Without the escape hatch the named headers of an untrusted peer are not read. -/
theorem readsNamedHeaders_of_untrusted (h : Untrusted trusted (peerIp request peer))
    (hhatch : config.trustHeadersFromAnyPeer = false) :
    readsNamedHeaders request peer trusted config = false := by
  simp [readsNamedHeaders, h.any_eq, hhatch]

/-- The context of an untrusted peer, without the escape hatch. -/
theorem context_of_untrusted (percentDecode : List UInt8 → String) (hops : ℕ)
    (h : Untrusted trusted (peerIp request peer))
    (hhatch : config.trustHeadersFromAnyPeer = false) :
    (auditContextWithLocation percentDecode request peer trusted hops config).clientAddr =
        observedAddr (peerIp request peer) ∧
      (auditContextWithLocation percentDecode request peer trusted hops config).location =
        request.suppliedLocation := by
  have hreads := readsNamedHeaders_of_untrusted h hhatch
  constructor
  · simp only [auditContextWithLocation, namedClientAddr, hreads, Bool.false_eq_true, if_false]
    exact chainClientAddr_of_untrusted h
  · simp [auditContextWithLocation, namedLocation, hreads]

/-- The address of an untrusted peer is the observed one, or an asserted one. -/
theorem namedClientAddr_of_untrusted (h : Untrusted trusted (peerIp request peer)) :
    namedClientAddr percentDecode request peer trusted hops config =
        observedAddr (peerIp request peer) ∨
      ∃ address, namedClientAddr percentDecode request peer trusted hops config =
        .asserted address := by
  unfold namedClientAddr
  rw [chainClientAddr_of_untrusted h]
  split
  · split
    · rename_i reported _
      simp only [h.any_eq, Bool.false_eq_true, if_false]
      cases AssertedClientAddr.new reported.toText with
      | none => exact Or.inl rfl
      | some address => exact Or.inr ⟨address, rfl⟩
    · exact Or.inl rfl
  · exact Or.inl rfl

/-- The rate-limit key of an untrusted peer is absent, or the text of the peer's address. -/
theorem rateLimitKey_of_untrusted (h : Untrusted trusted (peerIp request peer)) :
    (namedClientAddr percentDecode request peer trusted hops config).rateLimitKey = none ∨
      (namedClientAddr percentDecode request peer trusted hops config).rateLimitKey =
        (peerIp request peer).map IpAddr.toText := by
  have haddr : namedClientAddr percentDecode request peer trusted hops config = _ ∨ _ :=
    namedClientAddr_of_untrusted h
  obtain haddr | ⟨address, haddr⟩ := haddr
  · rw [haddr]
    cases peerIp request peer with
    | none => exact Or.inl rfl
    | some ip => exact Or.inr rfl
  · rw [haddr]
    exact Or.inl rfl

/-- **Untrusted peers speak for themselves only**: two requests of the same untrusted peer, that
differ in their headers, have the same address and location when the escape hatch is off, and
with any configuration the rate-limit key of each is absent or the text of the peer's address. -/
theorem untrusted_peers_alike (percentDecode : List UInt8 → String) (peer : Option SocketAddr)
    (trusted : List (IpAddr → Bool)) (hops : ℕ) (config : SessionLocationConfig)
    (requestContext : Option RequestContext) (suppliedLocation : Option SessionLocation)
    (headers headers' : List (String × List UInt8))
    (huntrusted : Untrusted trusted (peerIp ⟨headers, requestContext, suppliedLocation⟩ peer)) :
    let context := auditContextWithLocation percentDecode
      ⟨headers, requestContext, suppliedLocation⟩ peer trusted hops config
    let context' := auditContextWithLocation percentDecode
      ⟨headers', requestContext, suppliedLocation⟩ peer trusted hops config
    let own := (peerIp ⟨headers, requestContext, suppliedLocation⟩ peer).map IpAddr.toText
    (config.trustHeadersFromAnyPeer = false →
      context.clientAddr = context'.clientAddr ∧ context.location = context'.location) ∧
    (context.clientAddr.rateLimitKey = none ∨ context.clientAddr.rateLimitKey = own) ∧
    (context'.clientAddr.rateLimitKey = none ∨ context'.clientAddr.rateLimitKey = own) := by
  -- The peer that counts is read from the platform's context, not from the headers.
  have huntrusted' :
      Untrusted trusted (peerIp ⟨headers', requestContext, suppliedLocation⟩ peer) := huntrusted
  refine ⟨?_, rateLimitKey_of_untrusted huntrusted, rateLimitKey_of_untrusted huntrusted'⟩
  intro hhatch
  have hcontext := context_of_untrusted percentDecode hops huntrusted hhatch
  have hcontext' := context_of_untrusted percentDecode hops huntrusted' hhatch
  exact ⟨hcontext.1.trans hcontext'.1.symm, hcontext.2.trans hcontext'.2.symm⟩

/-- The private network of the examples. -/
def tenNet : IpAddr → Bool
  | .v4 octets => octets.get 0 == 10
  | .v6 _ => false

/-- A header line with a name in lower case. -/
def headerLine (name value : String) : String × List UInt8 := (name, bytes value)

/-- Two requests of an untrusted peer, one of them with forged headers. -/
theorem untrusted_peers_alike_forged :
    let config : SessionLocationConfig := ⟨some "x-city", none, none, some "x-ip", false⟩
    let forged := [headerLine "x-forwarded-for" "192.0.2.1", headerLine "x-ip" "192.0.2.2"]
    let context := auditContextWithLocation (fun _ => "192.0.2.2") ⟨forged, none, none⟩
      (some ⟨.v4 #v[198, 51, 100, 9], 443⟩) [tenNet] 1 config
    let context' := auditContextWithLocation (fun _ => "192.0.2.2") ⟨[], none, none⟩
      (some ⟨.v4 #v[198, 51, 100, 9], 443⟩) [tenNet] 1 config
    context.clientAddr = context'.clientAddr ∧ context.location = context'.location := by
  intro config forged
  have huntrusted : Untrusted [tenNet]
      (peerIp ⟨forged, none, none⟩ (some ⟨.v4 #v[198, 51, 100, 9], 443⟩)) := by
    intro ip hip
    cases hip
    decide +kernel
  exact (untrusted_peers_alike (fun _ => "192.0.2.2") _ [tenNet] 1 config none none forged []
    huntrusted).1 rfl

/-! ## Trusted proxies -/

def comma : UInt8 := 0x2C

/-- The header line that the proxies leave: what the client sent, if it sent one, and what each
proxy appended. -/
def forwardedLine (client : Option (List UInt8)) (appended : List (List UInt8)) : List UInt8 :=
  [comma].intercalate (client.toList ++ appended)

/-- The number of entries that the client wrote. -/
def clientEntries (client : Option (List UInt8)) : ℕ :=
  client.elim 0 fun text => (text.splitOn comma).length

/-- The text of printable bytes. -/
def asText (value : List UInt8) : List Char := value.map fun b => Char.ofNat b.toNat

theorem splitOn_forwardedLine {client : Option (List UInt8)} {appended : List (List UInt8)}
    (hne : appended ≠ []) (hcommas : ∀ a ∈ appended, comma ∉ a) :
    (forwardedLine client appended).splitOn comma =
      client.elim [] (List.splitOn comma) ++ appended := by
  cases client with
  | none => exact List.splitOn_intercalate comma hcommas hne
  | some text =>
    have hline : forwardedLine (some text) appended =
        text ++ comma :: [comma].intercalate appended := by
      obtain ⟨a, rest, rfl⟩ := List.exists_cons_of_ne_nil hne
      simp [forwardedLine, List.intercalate_cons_cons]
    rw [hline, List.splitOn_append_cons_self, List.splitOn_intercalate comma hcommas hne]
    rfl

/-- Entries are the same in bytes and in characters. -/
theorem splitOn_asText (value : List UInt8) :
    (asText value).splitOn ',' = (value.splitOn comma).map asText := by
  have hcomma (b : UInt8) : (Char.ofNat b.toNat == ',') = (b == comma) := by
    have hall : ∀ n : Fin 256,
        (Char.ofNat (UInt8.ofFin n).toNat == ',') = (UInt8.ofFin n == comma) := by
      decide +kernel
    exact hall b.toFin
  induction value with
  | nil => rfl
  | cons b value ih =>
    rw [asText, List.map_cons, List.splitOn_cons_eq_if_modifyHead,
      List.splitOn_cons_eq_if_modifyHead, hcomma, ← asText, ih]
    by_cases hb : (b == comma) = true
    · rw [if_pos hb, if_pos hb]
      rfl
    · rw [if_neg hb, if_neg hb]
      cases value.splitOn comma <;> rfl

/-- Behind proxies that append an entry each, the entry of the outermost one is selected, unless
there are too many entries. -/
theorem selectForwarded_line {client : Option (List UInt8)} {a : List UInt8}
    {rest : List (List UInt8)} (hhops : rest.length + 1 ≤ maxTrustedProxyHops)
    (hcommas : ∀ x ∈ a :: rest, comma ∉ x) :
    selectForwarded (asText (forwardedLine client (a :: rest))) (rest.length + 1) =
      if clientEntries client + (rest.length + 1) ≤ maxForwardedChainEntries then
        IpAddr.parse (trimChars (asText a))
      else none := by
  have hsplit : ((asText (forwardedLine client (a :: rest))).splitOn ',').map trimChars =
      ((client.elim [] (List.splitOn comma)) ++ a :: rest).map fun x => trimChars (asText x) := by
    rw [splitOn_asText, splitOn_forwardedLine (by simp) hcommas, List.map_map]
    rfl
  have hlength : (client.elim [] (List.splitOn comma)).length = clientEntries client := by
    cases client <;> rfl
  have hselected :
      (((client.elim [] (List.splitOn comma)) ++ a :: rest).map
        fun x => trimChars (asText x)).reverse[rest.length]? = some (trimChars (asText a)) := by
    rw [← List.map_reverse, List.reverse_append, List.reverse_cons, List.getElem?_map,
      List.getElem?_append_left (by simp), List.getElem?_append_right (by simp)]
    simp
  unfold selectForwarded
  rw [if_pos ⟨by omega, hhops⟩]
  simp only [hsplit, Nat.add_sub_cancel, hselected]
  by_cases hentries : clientEntries client + (rest.length + 1) ≤ maxForwardedChainEntries
  · rw [if_pos hentries, if_neg (by simp [hlength, hentries])]
    rfl
  · rw [if_neg hentries, if_pos (by simp [hlength]; omega)]

/-- **The client does not choose its address behind proxies**: for a request of a trusted peer
that reports no address in a named header, and whose forwarding header is a line that fits the
bound, the address is what the outermost of the configured proxies appended; it is the peer's own
where that is no address, the line is not plain text or there are too many entries. -/
theorem forwarded_past_client (percentDecode : List UInt8 → String) (request : SourceRequest)
    (peer : Option SocketAddr) (trusted : List (IpAddr → Bool)) (config : SessionLocationConfig)
    (ip : IpAddr) (client : Option (List UInt8)) (a : List UInt8) (rest : List (List UInt8))
    (hpeer : peerIp request peer = some ip) (htrusted : isTrusted trusted ip = true)
    (hhops : rest.length + 1 ≤ maxTrustedProxyHops) (hcommas : ∀ x ∈ a :: rest, comma ∉ x)
    (hline : request.header "x-forwarded-for" = some (forwardedLine client (a :: rest)))
    (hshort : (forwardedLine client (a :: rest)).length ≤ maxForwardedHeaderLen)
    (hreported : reportedIp percentDecode request config = none) :
    (auditContextWithLocation percentDecode request peer trusted (rest.length + 1)
        config).clientAddr =
      if (headerText (forwardedLine client (a :: rest))).isSome ∧
          clientEntries client + (rest.length + 1) ≤ maxForwardedChainEntries then
        match IpAddr.parse (trimChars (asText a)) with
        | some address => .forwarded address.toText
        | none => .peer ip.toText
      else
        .peer ip.toText := by
  have hnamed : namedClientAddr percentDecode request peer trusted (rest.length + 1) config =
      chainClientAddr request peer trusted (rest.length + 1) := by
    unfold namedClientAddr
    rw [hreported]
    split <;> rfl
  have hselect := @selectForwarded_line client _ _ hhops hcommas
  simp only [auditContextWithLocation, hnamed, chainClientAddr, boundedHeader, hline, hpeer,
    Option.bind_some, resolveClientAddr, htrusted, if_true]
  cases htext : headerText (forwardedLine client (a :: rest)) with
  | none => simp
  | some text =>
    have heq : text = asText (forwardedLine client (a :: rest)) := by
      unfold headerText at htext
      split at htext
      · exact (Option.some.inj htext).symm
      · cases htext
    have hall : (asText (forwardedLine client (a :: rest))).take maxForwardedHeaderLen =
        asText (forwardedLine client (a :: rest)) := by
      apply List.take_of_length_le
      rw [asText, List.length_map]
      exact hshort
    subst heq
    simp only [Option.map_some, Option.bind_some, String.toList_ofList, hall, hselect,
      Option.isSome_some, true_and]
    by_cases hentries : clientEntries client + (rest.length + 1) ≤ maxForwardedChainEntries
    · cases hparsed : IpAddr.parse (trimChars (asText a)) with
      | none => simp only [if_pos hentries, hparsed]
      | some addr => simp only [if_pos hentries, hparsed]
    · simp only [if_neg hentries]

/-- A request with one forwarding header, from a proxy in the private network. -/
def proxiedRequest (line : String) : SourceRequest where
  headers := [headerLine "x-forwarded-for" line]
  requestContext := none
  suppliedLocation := none

def proxyPeer : Option SocketAddr := some ⟨.v4 #v[10, 0, 0, 9], 443⟩

/-- Nothing is read from a header for the location. -/
def noLocation : SessionLocationConfig := ⟨none, none, none, none, false⟩

/-- An address that a client forges is not the one that is resolved. -/
theorem forwarded_past_client_forged :
    (auditContextWithLocation (fun _ => "") (proxiedRequest "192.0.2.1, 198.51.100.7") proxyPeer
      [tenNet] 1 noLocation).clientAddr = .forwarded "198.51.100.7" := by
  have hresolved := forwarded_past_client (fun _ => "") (proxiedRequest "192.0.2.1, 198.51.100.7")
    proxyPeer [tenNet] noLocation (.v4 #v[10, 0, 0, 9]) (some (bytes "192.0.2.1"))
    (bytes " 198.51.100.7") [] rfl rfl (by decide) (by decide +kernel) (by decide +kernel)
    (by decide +kernel) rfl
  rw [if_pos (by decide +kernel)] at hresolved
  have hparsed : IpAddr.parse (trimChars (asText (bytes " 198.51.100.7"))) =
      some (.v4 #v[198, 51, 100, 7]) := by
    decide +kernel
  rw [hparsed] at hresolved
  exact hresolved

/-- A client that writes sixteen entries makes the proxy's own address the resolved one, whatever
the proxy appended. -/
theorem many_entries_hide_client :
    (auditContextWithLocation (fun _ => "") (proxiedRequest ",,,,,,,,,,,,,,,, 198.51.100.7")
        proxyPeer [tenNet] 1 noLocation).clientAddr.auditAddress = some "10.0.0.9" ∧
      (IpAddr.parse (trimChars " 198.51.100.7".toList)).map IpAddr.toText =
        some "198.51.100.7" := by
  decide +kernel

end OidcExchange
