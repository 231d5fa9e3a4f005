import Hole.Net.Octets

/-!
# The parsers of a packet

Every packet of the TUN is read three times: for its destination (`parse_ip_dst`, by hand), in full
(`parse_ip_packet_full`) and for a SYN (`parse_syn` of `socket_stack.rs`), the last two through the
checked wire types of smoltcp. What smoltcp checks is a parameter (`WireChecks`), with what it
publishes about it (`WireChecks.Published`). A field is read where its format has it, and a field
that is not there panics.
-/

namespace Hole.Tun

/-- A packet, or a part of one. -/
abbrev Packet := List UInt8

/-- `IpProto`. -/
inductive IpProto
  | tcp
  | udp
  deriving DecidableEq

/-! ### Fields -/

/-- A field of one byte. -/
def field8 (p : Packet) (i : Nat) : Option UInt8 := p[i]?

/-- A field of two bytes. -/
def field16 (p : Packet) (i : Nat) : Option Nat := (slice p i (i + 2)).map ofBytes

/-- The byte there. -/
def at8 (p : Packet) (i : Nat) : UInt8 := p.getD i 0

/-- The two bytes there. -/
def at16 (p : Packet) (i : Nat) : Nat := ofBytes ((p.drop i).take 2)

/-- The version of a packet. -/
def version (p : Packet) : Nat := (at8 p 0).toNat / 16

/-- The IHL field of IPv4, in bytes. -/
def ipv4HeaderLen (p : Packet) : Nat := (at8 p 0).toNat % 16 * 4

/-- The total length of IPv4. -/
def ipv4TotalLen (p : Packet) : Nat := at16 p 2

/-- The packet is a fragment of IPv4. -/
def IsFragment (p : Packet) : Prop := at16 p 6 / 0x2000 % 2 = 1 ∨ at16 p 6 % 0x2000 ≠ 0

instance (p : Packet) : Decidable (IsFragment p) := inferInstanceAs (Decidable (_ ∨ _))

/-- The data offset of TCP, in bytes. -/
def tcpHeaderLen (p : Packet) : Nat := (at8 p 12).toNat / 16 * 4

/-! ### smoltcp -/

/-- `new_checked` of the wire types, and what else of smoltcp `parse_syn` goes through. -/
structure WireChecks where
  ipv4 : Packet → Bool
  ipv6 : Packet → Bool
  tcp : Packet → Bool
  udp : Packet → Bool
  /-- `Ipv4Repr::parse` and `Ipv6Repr::parse`. -/
  ipv4Repr : Packet → Bool
  ipv6Repr : Packet → Bool
  /-- `Ipv6ExtHeader` and its representation: the next header, and the bytes before it. -/
  extHeader : Packet → Option (UInt8 × Nat)

/-- What is published of the checks. -/
structure WireChecks.Published (c : WireChecks) : Prop where
  ipv4 : ∀ p, c.ipv4 p = true ↔ 20 ≤ p.length ∧ 20 ≤ ipv4HeaderLen p ∧
    ipv4HeaderLen p ≤ ipv4TotalLen p ∧ ipv4TotalLen p ≤ p.length
  ipv6 : ∀ p, c.ipv6 p = true ↔ 40 ≤ p.length ∧ 40 + at16 p 4 ≤ p.length
  tcp : ∀ p, c.tcp p = true ↔ 20 ≤ p.length ∧ 20 ≤ tcpHeaderLen p ∧ tcpHeaderLen p ≤ p.length
  udp : ∀ p, c.udp p = true ↔ 8 ≤ p.length ∧ 8 ≤ at16 p 4 ∧ at16 p 4 ≤ p.length

/-! ### The destination -/

/-- The protocols that are carried. -/
def protoOf (protocol : UInt8) : Option IpProto :=
  if protocol = 6 then some .tcp else if protocol = 17 then some .udp else none

/-- `parse_ipv4_dst`. -/
def parseIpv4Dst (p : Packet) : Option (Option (Nat × IpProto)) := do
  if p.length < 20 then return none
  let ihl := ((← field8 p 0).toNat % 16) * 4
  if ihl < 20 then return none
  let flagsFragOffset ← field16 p 6
  if flagsFragOffset / 0x2000 % 2 = 1 ∨ flagsFragOffset % 0x2000 ≠ 0 then return none
  let protocol ← field8 p 9
  if p.length < ihl + 4 then return none
  let dstPort ← field16 p (ihl + 2)
  return (protoOf protocol).map (dstPort, ·)

/-- `parse_ipv6_dst`. -/
def parseIpv6Dst (p : Packet) : Option (Option (Nat × IpProto)) := do
  if p.length < 44 then return none
  let nextHeader ← field8 p 6
  let dstPort ← field16 p 42
  return (protoOf nextHeader).map (dstPort, ·)

/-- `parse_ip_dst`; nothing at all if it panics. -/
def parseIpDst (p : Packet) : Option (Option (Nat × IpProto)) := do
  if p = [] then return none
  let version := (← field8 p 0).toNat / 16
  if version = 4 then parseIpv4Dst p else if version = 6 then parseIpv6Dst p else return none

/-! ### In full -/

/-- `ParsedPacket`. -/
structure ParsedPacket where
  src : SocketAddr
  dst : SocketAddr
  proto : IpProto
  payload : Packet

variable (c : WireChecks)

/-- `TcpPacket`: the ports and the payload. -/
def tcpParts (l4 : Packet) : Option (Nat × Nat × Packet) := do
  let src ← field16 l4 0
  let dst ← field16 l4 2
  let headerLen := (← field8 l4 12).toNat / 16 * 4
  return (src, dst, ← slice l4 headerLen l4.length)

/-- `UdpPacket`: the ports and the payload. -/
def udpParts (l4 : Packet) : Option (Nat × Nat × Packet) := do
  let src ← field16 l4 0
  let dst ← field16 l4 2
  let len ← field16 l4 4
  return (src, dst, ← slice l4 8 len)

/-- `parse_l4`. -/
def parseL4 (protocol : UInt8) (srcIp dstIp : IpAddr) (l4 : Packet) :
    Option (Option ParsedPacket) := do
  let make (proto : IpProto) (parts : Nat × Nat × Packet) : ParsedPacket :=
    ⟨⟨srcIp, .ofNat 16 parts.1⟩, ⟨dstIp, .ofNat 16 parts.2.1⟩, proto, parts.2.2⟩
  match protoOf protocol with
  | some .tcp => if c.tcp l4 then return some (make .tcp (← tcpParts l4)) else return none
  | some .udp => if c.udp l4 then return some (make .udp (← udpParts l4)) else return none
  | none => return none

/-- `parse_ipv4_full`. -/
def parseIpv4Full (p : Packet) : Option (Option ParsedPacket) := do
  if c.ipv4 p = false then return none
  let flagsFragOffset ← field16 p 6
  if flagsFragOffset / 0x2000 % 2 = 1 ∨ flagsFragOffset % 0x2000 ≠ 0 then return none
  let src ← slice p 12 16
  let dst ← slice p 16 20
  let protocol ← field8 p 9
  let l4 ← slice p (ipv4HeaderLen p) (ipv4TotalLen p)
  parseL4 c protocol (.ofV4Bytes src) (.ofV4Bytes dst) l4

/-- `parse_ipv6_full`. -/
def parseIpv6Full (p : Packet) : Option (Option ParsedPacket) := do
  if c.ipv6 p = false then return none
  let src ← slice p 8 24
  let dst ← slice p 24 40
  let nextHeader ← field8 p 6
  let l4 ← slice p 40 (40 + at16 p 4)
  parseL4 c nextHeader (.ofV6Bytes src) (.ofV6Bytes dst) l4

/-- `parse_ip_packet_full`; nothing at all if it panics. -/
def parseIpPacketFull (p : Packet) : Option (Option ParsedPacket) := do
  if p = [] then return none
  let version := (← field8 p 0).toNat / 16
  if version = 4 then parseIpv4Full c p
  else if version = 6 then parseIpv6Full c p
  else return none

/-! ### A SYN -/

/-- The segment of a SYN, behind the addresses: its ports and its sequence number. -/
def synParts (srcIp dstIp : IpAddr) (l4 : Packet) :
    Option (Option (SocketAddr × SocketAddr × Nat)) := do
  if c.tcp l4 = false then return none
  let flags ← field8 l4 13
  if flags.toNat / 2 % 2 = 0 ∨ flags.toNat / 16 % 2 = 1 then return none
  let src ← field16 l4 0
  let dst ← field16 l4 2
  let isn ← slice l4 4 8
  return some (⟨srcIp, .ofNat 16 src⟩, ⟨dstIp, .ofNat 16 dst⟩, ofBytes isn)

/-- `parse_syn` of an IPv4 packet. -/
def parseIpv4Syn (p : Packet) : Option (Option (SocketAddr × SocketAddr × Nat)) := do
  if c.ipv4 p = false ∨ c.ipv4Repr p = false then return none
  if (← field8 p 9) ≠ 6 then return none
  let src ← slice p 12 16
  let dst ← slice p 16 20
  let l4 ← slice p (ipv4HeaderLen p) (ipv4TotalLen p)
  synParts c (.ofV4Bytes src) (.ofV4Bytes dst) l4

/-- The next header of an IPv6 packet and what is behind it, past one header of hop-by-hop
options. -/
def skipHopByHop (nextHeader : UInt8) (payload : Packet) : Option (Option (UInt8 × Packet)) :=
  if nextHeader = 0 then
    match c.extHeader payload with
    | none => some none
    | some (next, skip) => (slice payload skip payload.length).map fun l4 ↦ some (next, l4)
  else some (some (nextHeader, payload))

/-- `parse_syn` of an IPv6 packet. -/
def parseIpv6Syn (p : Packet) : Option (Option (SocketAddr × SocketAddr × Nat)) := do
  if c.ipv6 p = false ∨ c.ipv6Repr p = false then return none
  let src ← slice p 8 24
  let dst ← slice p 24 40
  let nextHeader ← field8 p 6
  let payload ← slice p 40 (40 + at16 p 4)
  match ← skipHopByHop c nextHeader payload with
  | none => return none
  | some (next, l4) =>
    if next ≠ 6 then return none
    synParts c (.ofV6Bytes src) (.ofV6Bytes dst) l4

/-- `parse_syn`. -/
def parseSyn (p : Packet) : Option (Option (SocketAddr × SocketAddr × Nat)) := do
  if p = [] then return none
  let version := (← field8 p 0).toNat / 16
  if version = 4 then parseIpv4Syn c p
  else if version = 6 then parseIpv6Syn c p
  else return none

end Hole.Tun
