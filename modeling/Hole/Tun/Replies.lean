import Hole.Dns.Forwarder
import Hole.Tun.Emit
import Hole.Tun.Socks5Udp

/-!
# The replies of a flow

What the endpoints of the bridge pass to `UdpSender::send` (`crates/bridge/src/endpoint`), and that
all of it survives (`repliesSurvive`). `send` itself takes any payload: the bound is kept by where
the payloads come from, a socket that receives datagrams or a forwarder that bounds its replies. No
interceptor is configured, so none replies.
-/

namespace Hole.Dns

/-- A response is bounded. -/
theorem length_of_parseHttp {resp : List UInt8} {m : Message}
    (h : parseHttpDnsResponse resp = .ok m) : m.length ≤ maxReplySize := by
  unfold parseHttpDnsResponse at h
  simp only [bind, Except.bind, throw, throwThe, MonadExceptOf.throw, pure, Except.pure] at h
  repeat' split at h
  all_goals cases h
  -- the body is cut off at the length that was checked
  all_goals exact (List.length_take_le _ _).trans (by omega)

/-- A message that is brought is bounded, whatever brings it. -/
theorem Brings.length_le {protocol : Gui.DnsProtocol} {query m : Message} {u : Upstream}
    (h : Brings protocol query u m) : m.length ≤ maxReplySize := by
  obtain ⟨-, -, h⟩ := h
  cases protocol with
  | plainUdp =>
    obtain ⟨datagram, -, rfl⟩ := h
    exact List.length_take_le _ _
  | plainTcp => exact h.2.1
  | tls => exact h.2.2.1
  | https =>
    obtain ⟨-, resp, -, hparse⟩ := h
    exact length_of_parseHttp hparse

/-- A SERVFAIL is no longer than its query, or a header. -/
theorem length_of_synthesizeServfail {query reply : Message}
    (h : synthesizeServfail query = some reply) : reply.length ≤ max 12 query.length := by
  have hheader : (servfailHeader query).length = 12 := by
    obtain ⟨_, _, _, _, hheader, -⟩ := servfailHeader_eq query
    rw [hheader]
    rfl
  unfold synthesizeServfail at h
  split at h
  · split at h
    · obtain ⟨question, hslice, rfl⟩ := Option.map_eq_some_iff.1 h
      have hquestion := congrArg List.length (eq_of_slice hslice)
      rw [List.length_append, hheader]
      rw [List.length_take, List.length_drop] at hquestion
      omega
    · cases h
      omega
  · cases h
    omega

/-- An answer of the forwarder is a reply that it has bounded, or no longer than its query. -/
theorem Forwarder.length_of_forward {f : Forwarder} {query reply : Message}
    {upstreams : Nat → Upstream} (h : f.forward query upstreams = some reply) :
    reply.length ≤ max maxReplySize query.length := by
  have hservfail (h : synthesizeServfail query = some reply) :
      reply.length ≤ max maxReplySize query.length := by
    have hle := length_of_synthesizeServfail h
    have hsize : maxReplySize = 16384 := rfl
    omega
  unfold forward at h
  split at h
  · exact hservfail h
  · rename_i hlong
    split at h
    · rename_i m htry
      cases h
      obtain ⟨-, -, u, -, -, hbrings, -⟩ := (tryForward_eq_ok (Nat.not_lt.1 hlong)).1 htry
      exact hbrings.length_le.trans (Nat.le_max_left _ _)
    · exact hservfail h

end Hole.Dns

namespace Hole.Tun

/-! ### What is sent -/

/-- A payload that is sent on the flow from `dst` to `src`. A socket receives no datagram that the
packets of its family do not hold. -/
inductive Sent (c : WireChecks) (src dst : SocketAddr) : Packet → Prop
  /-- `Socks5Endpoint`: the relay is bound to an address of IPv4, and the payload is behind the
  header. -/
  | relayed {data : Packet} {sender : SocketAddr} {headerLen : Nat} (hlen : data.length ≤ 65507)
      (hdecoded : Socks5.decodeSocks5Udp data = some (some (sender, headerLen))) :
      Sent c src dst (data.drop headerLen)
  /-- `InterfaceEndpoint`: the socket is of the family of the flow's destination. -/
  | received {data : Packet} (hlen : data.length ≤ maxPayload src.ip) : Sent c src dst data
  /-- `LocalDnsEndpoint`: a query of the flow is forwarded. -/
  | answered {p query reply : Packet} {f : Dns.Forwarder} {upstreams : Nat → Dns.Upstream}
      (hquery : parseIpPacketFull c p = some (some ⟨dst, src, .udp, query⟩))
      (hreply : f.forward query upstreams = some reply) : Sent c src dst reply

section Sent

variable {e : WireEmit} {c : WireChecks} (he : e.Published) (hc : c.Published)
  {src dst : SocketAddr} {payload : Packet}

include hc in
/-- The payload of a packet that came in is one that a packet holds. -/
theorem length_of_parsed {p : Packet}
    (h : parseIpPacketFull c p = some (some ⟨src, dst, .udp, payload⟩)) :
    payload.length ≤ maxPayload dst.ip := by
  obtain ⟨hfits, proto, -, hl4, hparsed⟩ := (parsed_iff hc).1 h
  obtain rfl : proto = .udp := congrArg ParsedPacket.proto hparsed
  obtain rfl : l4Payload (segment p) .udp = payload := congrArg ParsedPacket.payload hparsed
  have hdst : ipDst p = dst.ip := congrArg (SocketAddr.ip ∘ ParsedPacket.dst) hparsed
  have hsegment := hfits.length_segment
  have hlength : (l4Payload (segment p) .udp).length ≤ (segment p).length - 8 := by
    rw [l4Payload, List.length_take, List.length_drop]
    omega
  rw [← hdst]
  rcases hfits with ⟨hv, -, hihl, -⟩ | ⟨hv, -⟩
  · have htotal : ipv4TotalLen p < 65536 := at16_lt p 2
    rw [ipDst, if_pos hv, IpAddr.ofV4Bytes, maxPayload]
    rw [ipTotalLen, ipHeaderLen, if_pos hv, if_pos hv] at hsegment
    omega
  · have hne : version p ≠ 4 := by omega
    have htotal : at16 p 4 < 65536 := at16_lt p 4
    rw [ipDst, if_neg hne, IpAddr.ofV6Bytes, maxPayload]
    rw [ipTotalLen, ipHeaderLen, if_neg hne, if_neg hne] at hsegment
    omega

theorem le_maxPayload (ip : IpAddr) : 65507 ≤ maxPayload ip := by
  cases ip with
  | v4 => exact Nat.le_refl _
  | v6 => exact Nat.le_of_ble_eq_true rfl

include hc in
/-- Nothing that is sent is too long. -/
theorem Sent.length_le (h : Sent c src dst payload) : payload.length ≤ maxPayload src.ip := by
  have hmax := le_maxPayload src.ip
  cases h with
  | relayed hlen =>
    rw [List.length_drop]
    omega
  | received hlen => exact hlen
  | answered hquery hreply =>
    have hle := length_of_parsed hc hquery
    have hforward := Dns.Forwarder.length_of_forward hreply
    have hsize : Dns.maxReplySize = 16384 := rfl
    omega

/-- What is asked of the replies of a flow. -/
structure RepliesSurvive (e : WireEmit) (c : WireChecks) (src dst : SocketAddr) : Prop where
  /-- A reply survives if and only if its payload fits under the 16-bit length of the IP header. -/
  exact : ∀ payload, Survives e c src dst payload ↔ payload.length ≤ maxPayload src.ip
  /-- What is sent survives. -/
  sent : ∀ payload, Sent c src dst payload → Survives e c src dst payload

include he hc in
/-- **Replies survive**, all that are sent. -/
theorem repliesSurvive (src dst : SocketAddr) (hfamily : src.ip.isIpv4 = dst.ip.isIpv4) :
    RepliesSurvive e c src dst where
  exact payload := survives_iff he hc src dst payload hfamily
  sent payload hsent := (survives_iff he hc src dst payload hfamily).2 (hsent.length_le hc)

end Sent

/-- A reply of a resolver. -/
def sampleSrc : SocketAddr := ⟨.ofOctets 9 9 9 9, 53⟩

@[inherit_doc sampleSrc] def sampleDst : SocketAddr := ⟨.ofOctets 10 0 0 2, 5000⟩

/-- What the relay reads of a datagram of SOCKS5 survives. -/
theorem repliesSurvive_sample : Survives wireEmit publishedChecks sampleSrc sampleDst [1, 2, 3] :=
  (repliesSurvive wireEmit_published published sampleSrc sampleDst rfl).sent _
    (@Sent.relayed _ _ _ [0, 0, 0, 1, 9, 9, 9, 9, 0, 53, 1, 2, 3] _ _ (by decide) rfl)

/-- One byte more than the IPv4 header counts, from a caller that is no endpoint. -/
theorem reply_cut_off :
    ¬Survives wireEmit publishedChecks sampleSrc sampleDst (List.replicate 65508 0) := by
  intro h
  have hle := le_of_survives wireEmit_published h
  rw [List.length_replicate] at hle
  exact absurd hle (by decide)

end Hole.Tun
