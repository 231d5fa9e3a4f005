import Hole.Tun.ParseAgree

/-!
# Reply packets

`build_udp_packet` of `crates/tun-engine/src/engine/emit.rs`: a datagram that comes back for a flow
is put behind headers of UDP and IP and written to the TUN. The headers are written by smoltcp,
which is a parameter (`WireEmit`): the lengths are 16-bit fields, and what does not fit in one is
cut off, or panics. So a reply survives if and only if its payload fits (`survives_iff`).
-/

namespace Hole.Tun

/-- `emit` of the wire types; nothing if it panics. -/
structure WireEmit where
  /-- `Ipv4Repr::emit` for UDP, over so many bytes. -/
  ipv4 : BitVec 32 → BitVec 32 → Nat → Option Packet
  /-- `Ipv6Repr::emit` for UDP, over so many bytes. -/
  ipv6 : BitVec 128 → BitVec 128 → Nat → Option Packet
  /-- `UdpRepr::emit`, between two sockets. -/
  udp : SocketAddr → SocketAddr → Packet → Option Packet

/-- A header of IPv4 over so many bytes. -/
structure IsIpv4Header (src dst : BitVec 32) (payloadLen : Nat) (h : Packet) : Prop where
  length : h.length = 20
  first : at8 h 0 = 0x45
  totalLen : at16 h 2 = (20 + payloadLen) % 65536
  whole : ¬IsFragment h
  protocol : at8 h 9 = 17
  src : (h.drop 12).take 4 = (IpAddr.v4 src).octetBytes
  dst : (h.drop 16).take 4 = (IpAddr.v4 dst).octetBytes

/-- A header of IPv6 over so many bytes. -/
structure IsIpv6Header (src dst : BitVec 128) (payloadLen : Nat) (h : Packet) : Prop where
  length : h.length = 40
  version : version h = 6
  payloadLen : at16 h 4 = payloadLen % 65536
  protocol : at8 h 6 = 17
  src : (h.drop 8).take 16 = (IpAddr.v6 src).octetBytes
  dst : (h.drop 24).take 16 = (IpAddr.v6 dst).octetBytes

/-- A datagram of UDP. -/
structure IsDatagram (src dst : SocketAddr) (payload u : Packet) : Prop where
  length : u.length = 8 + payload.length
  src : at16 u 0 = src.port.toNat
  dst : at16 u 2 = dst.port.toNat
  len : at16 u 4 = (8 + payload.length) % 65536
  payload : u.drop 8 = payload

/-- What is published of `emit`. -/
structure WireEmit.Published (e : WireEmit) : Prop where
  ipv4Fits : ∀ src dst n, 20 + n < 65536 → ∃ h, e.ipv4 src dst n = some h
  ipv4 : ∀ src dst n h, e.ipv4 src dst n = some h → IsIpv4Header src dst n h
  ipv6Fits : ∀ src dst n, n < 65536 → ∃ h, e.ipv6 src dst n = some h
  ipv6 : ∀ src dst n h, e.ipv6 src dst n = some h → IsIpv6Header src dst n h
  udpFits : ∀ src dst payload, 8 + payload.length < 65536 → ∃ u, e.udp src dst payload = some u
  udp : ∀ src dst payload u, e.udp src dst payload = some u → IsDatagram src dst payload u

/-- `build_udp_packet`; nothing if it panics. -/
def buildUdpPacket (e : WireEmit) (src dst : SocketAddr) (payload : Packet) : Option Packet :=
  match src.ip, dst.ip with
  | .v4 srcIp, .v4 dstIp => do
    let ip ← e.ipv4 srcIp dstIp (8 + payload.length)
    let udp ← e.udp src dst payload
    return ip ++ udp
  | .v6 srcIp, .v6 dstIp => do
    let ip ← e.ipv6 srcIp dstIp (8 + payload.length)
    let udp ← e.udp src dst payload
    return ip ++ udp
  -- `unreachable!`
  | _, _ => none

/-- A reply survives: it is built, with lengths that say how long it is, and parsed it is what was
sent. -/
def Survives (e : WireEmit) (c : WireChecks) (src dst : SocketAddr) (payload : Packet) : Prop :=
  ∃ p, buildUdpPacket e src dst payload = some p ∧ ipTotalLen p = p.length ∧
    at16 (segment p) 4 = 8 + payload.length ∧
    parseIpPacketFull c p = some (some ⟨src, dst, .udp, payload⟩)

/-- The longest payload under the 16-bit length of the IP header. -/
def maxPayload : IpAddr → Nat
  | .v4 _ => 65507
  | .v6 _ => 65527

/-! ### A header before a datagram -/

section Append

variable {h u : Packet}

theorem at8_append {i : Nat} (hi : i < h.length) : at8 (h ++ u) i = at8 h i := by
  rw [at8, at8, List.getD_eq_getElem?_getD, List.getElem?_append_left hi,
    List.getD_eq_getElem?_getD]

theorem part_append {first len : Nat} (hle : first + len ≤ h.length) :
    ((h ++ u).drop first).take len = (h.drop first).take len := by
  rw [List.drop_append_of_le_length (by omega), List.take_append_of_le_length]
  rw [List.length_drop]
  omega

theorem at16_append {i : Nat} (hi : i + 2 ≤ h.length) : at16 (h ++ u) i = at16 h i := by
  rw [at16, at16, part_append hi]

end Append

section Survive

variable {e : WireEmit} {c : WireChecks} (he : e.Published) (hc : c.Published)
  {src dst : SocketAddr} {payload : Packet}

include hc in
/-- A packet with its datagram behind its header is parsed, if the lengths fit. -/
theorem parse_built {p u : Packet} (hfits : IpFits p) (hprotocol : ipProtocol p = 17)
    (hsegment : segment p = u) (hsrc : ipSrc p = src.ip) (hdst : ipDst p = dst.ip)
    (hu : IsDatagram src dst payload u) (hlen : 8 + payload.length < 65536) :
    parseIpPacketFull c p = some (some ⟨src, dst, .udp, payload⟩) := by
  have hudp : at16 u 4 = 8 + payload.length := hu.len.trans (Nat.mod_eq_of_lt hlen)
  have hlength := hu.length
  refine (parsed_iff hc).2 ⟨hfits, .udp, by rw [hprotocol]; rfl, ?_, ?_⟩
  · rw [hsegment]
    exact ⟨by omega, by omega, by omega⟩
  · have hpayload : l4Payload u .udp = payload := by
      rw [l4Payload, hu.payload, hudp, Nat.add_sub_cancel_left, List.take_length]
    rw [parsedOf, hsegment, hsrc, hdst, hu.src, hu.dst, hpayload, BitVec.ofNat_toNat,
      BitVec.ofNat_toNat, BitVec.setWidth_eq, BitVec.setWidth_eq]

/-- The header of IPv4 in front says where the datagram is. -/
theorem ipv4_layout {srcIp dstIp : BitVec 32} {h u : Packet}
    (hh : IsIpv4Header srcIp dstIp u.length h)
    (hlen : 20 + u.length < 65536) :
    IpFits (h ++ u) ∧ ipProtocol (h ++ u) = 17 ∧ segment (h ++ u) = u ∧
      ipSrc (h ++ u) = .v4 srcIp ∧ ipDst (h ++ u) = .v4 dstIp ∧ ipTotalLen
      (h ++ u) = 20 + u.length := by
  have hlength := hh.length
  have hfirst : at8 (h ++ u) 0 = 0x45 := (at8_append (by omega)).trans hh.first
  have hv : version (h ++ u) = 4 := by rw [version, hfirst]; rfl
  have hheader : ipv4HeaderLen (h ++ u) = 20 := by rw [ipv4HeaderLen, hfirst]; rfl
  have htotal : ipv4TotalLen (h ++ u) = 20 + u.length := by
    rw [ipv4TotalLen, at16_append (by omega), hh.totalLen, Nat.mod_eq_of_lt hlen]
  have hfrag : ¬IsFragment (h ++ u) := by
    have hwhole := hh.whole
    rwa [IsFragment, at16_append (by omega)]
  refine ⟨.inl ⟨hv, ?_, ?_, ?_, ?_, hfrag⟩, ?_, ?_, ?_, ?_, ?_⟩
  · rw [List.length_append]
    omega
  · omega
  · omega
  · rw [htotal, List.length_append]
    omega
  · rw [ipProtocol, if_pos hv, at8_append (by omega), hh.protocol]
  · rw [segment, ipHeaderLen, ipTotalLen, if_pos hv, if_pos hv, hheader, htotal, ← hlength,
      List.drop_left, Nat.add_sub_cancel_left, List.take_length]
  · rw [ipSrc, if_pos hv, part_append (by omega), hh.src, ofV4Bytes_octetBytes]
  · rw [ipDst, if_pos hv, part_append (by omega), hh.dst, ofV4Bytes_octetBytes]
  · rw [ipTotalLen, if_pos hv, htotal]

/-- The header of IPv6 in front says where the datagram is. -/
theorem ipv6_layout {srcIp dstIp : BitVec 128} {h u : Packet}
    (hh : IsIpv6Header srcIp dstIp u.length h) (hlen : u.length < 65536) :
    IpFits (h ++ u) ∧ ipProtocol (h ++ u) = 17 ∧ segment (h ++ u) = u ∧
      ipSrc (h ++ u) = .v6 srcIp ∧ ipDst (h ++ u) = .v6 dstIp ∧ ipTotalLen
      (h ++ u) = 40 + u.length := by
  have hlength := hh.length
  have hv : version (h ++ u) = 6 := by
    rw [version, at8_append (by omega)]
    exact hh.version
  have hne : version (h ++ u) ≠ 4 := by omega
  have htotal : at16 (h ++ u) 4 = u.length := by
    rw [at16_append (by omega), hh.payloadLen, Nat.mod_eq_of_lt hlen]
  refine ⟨.inr ⟨hv, ?_, ?_⟩, ?_, ?_, ?_, ?_, ?_⟩
  · rw [List.length_append]
    omega
  · rw [htotal, List.length_append]
    omega
  · rw [ipProtocol, if_neg hne, at8_append (by omega), hh.protocol]
  · rw [segment, ipHeaderLen, ipTotalLen, if_neg hne, if_neg hne, htotal, ← hlength,
      List.drop_left, Nat.add_sub_cancel_left, List.take_length]
  · rw [ipSrc, if_neg hne, part_append (by omega), hh.src, ofV6Bytes_octetBytes]
  · rw [ipDst, if_neg hne, part_append (by omega), hh.dst, ofV6Bytes_octetBytes]
  · rw [ipTotalLen, if_neg hne, htotal]

include he in
/-- What was built over a payload has the length of its headers and the payload, and the length
field of its header says so only below 65536. -/
theorem le_of_survives (h : Survives e c src dst payload) : payload.length ≤ maxPayload src.ip := by
  obtain ⟨p, hbuilt, htotal, -, -⟩ := h
  unfold buildUdpPacket at hbuilt
  split at hbuilt
  · next srcIp dstIp hsrc hdst =>
    obtain ⟨ip, hip, hbuilt⟩ := Option.bind_eq_some_iff.1 hbuilt
    obtain ⟨udp, hudp, hbuilt⟩ := Option.bind_eq_some_iff.1 hbuilt
    cases hbuilt
    have hheader := he.ipv4 _ _ _ _ hip
    have hlength := hheader.length
    have hv : version (ip ++ udp) = 4 := by
      rw [version, at8_append (by omega), hheader.first]
      rfl
    have hudpLen := (he.udp _ _ _ _ hudp).length
    rw [ipTotalLen, if_pos hv, ipv4TotalLen, at16_append (by omega), hheader.totalLen,
      List.length_append] at htotal
    rw [hsrc, maxPayload]
    omega
  · next srcIp dstIp hsrc hdst =>
    obtain ⟨ip, hip, hbuilt⟩ := Option.bind_eq_some_iff.1 hbuilt
    obtain ⟨udp, hudp, hbuilt⟩ := Option.bind_eq_some_iff.1 hbuilt
    cases hbuilt
    have hheader := he.ipv6 _ _ _ _ hip
    have hlength := hheader.length
    have hne : version (ip ++ udp) ≠ 4 := by
      have hv := hheader.version
      rw [version, at8_append (by omega), ← version]
      omega
    have hudpLen := (he.udp _ _ _ _ hudp).length
    rw [ipTotalLen, if_neg hne, at16_append (by omega), hheader.payloadLen,
      List.length_append] at htotal
    rw [hsrc, maxPayload]
    omega
  · cases hbuilt

include he hc in
/-- A reply survives if and only if its payload fits under the 16-bit length of the IP
header. -/
theorem survives_iff (src dst : SocketAddr) (payload : Packet)
    (hfamily : src.ip.isIpv4 = dst.ip.isIpv4) :
    Survives e c src dst payload ↔ payload.length ≤ maxPayload src.ip := by
  refine ⟨le_of_survives he, fun hle ↦ ?_⟩
  cases hsrc : src.ip with
  | v4 srcIp =>
    cases hdst : dst.ip with
    | v4 dstIp =>
      rw [hsrc, maxPayload] at hle
      obtain ⟨h, hh⟩ := he.ipv4Fits srcIp dstIp (8 + payload.length) (by omega)
      obtain ⟨u, hu⟩ := he.udpFits src dst payload (by omega)
      have hdatagram := he.udp _ _ _ _ hu
      have hheader := he.ipv4 _ _ _ _ hh
      rw [← hdatagram.length] at hheader
      have hlen := hdatagram.length
      obtain ⟨hfits, hprotocol, hsegment, hsrc', hdst', htotal⟩ := ipv4_layout hheader (by omega)
      refine ⟨h ++ u, ?_, ?_, ?_, ?_⟩
      · simp [buildUdpPacket, hsrc, hdst, hh, hu]
      · rw [htotal, List.length_append, hheader.length]
      · rw [hsegment, hdatagram.len, Nat.mod_eq_of_lt (by omega)]
      · exact parse_built hc hfits hprotocol hsegment (hsrc'.trans hsrc.symm)
          (hdst'.trans hdst.symm) hdatagram (by omega)
    | v6 dstIp =>
      rw [hsrc, hdst] at hfamily
      cases hfamily
  | v6 srcIp =>
    cases hdst : dst.ip with
    | v4 dstIp =>
      rw [hsrc, hdst] at hfamily
      cases hfamily
    | v6 dstIp =>
      rw [hsrc, maxPayload] at hle
      obtain ⟨h, hh⟩ := he.ipv6Fits srcIp dstIp (8 + payload.length) (by omega)
      obtain ⟨u, hu⟩ := he.udpFits src dst payload (by omega)
      have hdatagram := he.udp _ _ _ _ hu
      have hheader := he.ipv6 _ _ _ _ hh
      rw [← hdatagram.length] at hheader
      have hlen := hdatagram.length
      obtain ⟨hfits, hprotocol, hsegment, hsrc', hdst', htotal⟩ := ipv6_layout hheader (by omega)
      refine ⟨h ++ u, ?_, ?_, ?_, ?_⟩
      · simp [buildUdpPacket, hsrc, hdst, hh, hu]
      · rw [htotal, List.length_append, hheader.length]
      · rw [hsegment, hdatagram.len, Nat.mod_eq_of_lt (by omega)]
      · exact parse_built hc hfits hprotocol hsegment (hsrc'.trans hsrc.symm)
          (hdst'.trans hdst.symm) hdatagram (by omega)

end Survive

/-! ### smoltcp -/

/-- The sum of the words of some bytes, the last padded. -/
def wordSum : Packet → Nat
  | [] => 0
  | [high] => high.toNat * 256
  | high :: low :: rest => high.toNat * 256 + low.toNat + wordSum rest

/-- The Internet checksum of a sum of words. -/
def checksum (sum : Nat) : Nat :=
  let folded := sum / 65536 + sum % 65536
  65535 - (folded / 65536 + folded % 65536)

/-- A header of IPv4 with a checksum. -/
def ipv4Header (src dst : BitVec 32) (payloadLen sum : Nat) : Packet :=
  [0x45, 0] ++ toBytes 2 (20 + payloadLen) ++ [0, 0, 0x40, 0, 64, 17] ++ toBytes 2 sum ++
    (IpAddr.v4 src).octetBytes ++ (IpAddr.v4 dst).octetBytes

/-- A header of IPv6. -/
def ipv6Header (src dst : BitVec 128) (payloadLen : Nat) : Packet :=
  [0x60, 0, 0, 0] ++ toBytes 2 payloadLen ++ [17, 64] ++ (IpAddr.v6 src).octetBytes ++
    (IpAddr.v6 dst).octetBytes

/-- A datagram of UDP with a checksum. -/
def datagram (src dst : SocketAddr) (payload : Packet) (sum : Nat) : Packet :=
  portBytes src.port ++ portBytes dst.port ++ toBytes 2 (8 + payload.length) ++ toBytes 2 sum ++
    payload

/-- `emit`, as it is without overflow checks. -/
def wireEmit : WireEmit where
  ipv4 src dst n := some (ipv4Header src dst n (checksum (wordSum (ipv4Header src dst n 0))))
  ipv6 src dst n := some (ipv6Header src dst n)
  udp src dst payload :=
    let pseudo := wordSum src.ip.octetBytes + wordSum dst.ip.octetBytes + 17 + (8 + payload.length)
    let sum := checksum (pseudo + wordSum (datagram src dst payload 0))
    -- The payload does not fit in the slice that a length that was cut off leaves for it.
    if 8 + payload.length < 65536 then
      some (datagram src dst payload (if sum = 0 then 65535 else sum))
    else none

theorem part_middle {before part after : Packet} {i k : Nat} (hbefore : before.length = i)
    (hpart : part.length = k) : ((before ++ (part ++ after)).drop i).take k = part := by
  rw [List.drop_left' hbefore, List.take_left' hpart]

theorem at16_toBytes (before : Packet) {after : Packet} {n i : Nat} (hbefore : before.length = i) :
    at16 (before ++ (toBytes 2 n ++ after)) i = n % 65536 := by
  rw [at16, part_middle hbefore (length_toBytes 2 n), ofBytes_toBytes,
    show (256 : Nat) ^ 2 = 65536 from rfl]

theorem isIpv4Header (src dst : BitVec 32) (n sum : Nat) :
    IsIpv4Header src dst n (ipv4Header src dst n sum) where
  length := rfl
  first := rfl
  totalLen := by
    rw [ipv4Header]
    simp only [List.append_assoc]
    exact at16_toBytes [0x45, 0] rfl
  whole := by
    have hflags : at16 (ipv4Header src dst n sum) 6 = 0x4000 := rfl
    rw [IsFragment, hflags]
    decide
  protocol := rfl
  src := rfl
  dst := rfl

theorem isIpv6Header (src dst : BitVec 128) (n : Nat) :
    IsIpv6Header src dst n (ipv6Header src dst n) where
  length := by simp [ipv6Header, IpAddr.octetBytes]
  version := by
    have hfirst : at8 (ipv6Header src dst n) 0 = 0x60 := rfl
    rw [version, hfirst]
    rfl
  payloadLen := by
    rw [ipv6Header]
    simp only [List.append_assoc]
    exact at16_toBytes [0x60, 0, 0, 0] rfl
  protocol := rfl
  src := by
    rw [ipv6Header, List.append_assoc]
    exact part_middle rfl (length_toBytes 16 _)
  dst := by
    have hlast : (ipv6Header src dst n).drop 24 = (IpAddr.v6 dst).octetBytes := by
      rw [ipv6Header]
      exact List.drop_left' (by simp [IpAddr.octetBytes])
    rw [hlast, List.take_of_length_le (by simp [IpAddr.octetBytes])]

theorem isDatagram (src dst : SocketAddr) (payload : Packet) (sum : Nat) :
    IsDatagram src dst payload (datagram src dst payload sum) where
  length := by
    simp [datagram, portBytes]
    omega
  src := by
    rw [datagram]
    simp only [List.append_assoc]
    exact (at16_toBytes [] rfl).trans (Nat.mod_eq_of_lt src.port.isLt)
  dst := by
    rw [datagram]
    simp only [List.append_assoc]
    exact (at16_toBytes (portBytes src.port) rfl).trans (Nat.mod_eq_of_lt dst.port.isLt)
  len := by
    rw [datagram, List.append_assoc, List.append_assoc]
    exact at16_toBytes (portBytes src.port ++ portBytes dst.port) rfl
  payload := rfl

theorem wireEmit_published : wireEmit.Published where
  ipv4Fits _ _ _ _ := ⟨_, rfl⟩
  ipv4 src dst n h hh := by
    cases hh
    exact isIpv4Header src dst n _
  ipv6Fits _ _ _ _ := ⟨_, rfl⟩
  ipv6 src dst n h hh := by
    cases hh
    exact isIpv6Header src dst n
  udpFits src dst payload hlen := ⟨_, if_pos hlen⟩
  udp src dst payload u hu := by
    simp only [wireEmit, Option.ite_none_right_eq_some] at hu
    cases hu.2
    exact isDatagram src dst payload _

end Hole.Tun
