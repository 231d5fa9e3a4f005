import Hole.Net.Octets

/-!
# The header of SOCKS5 UDP

`crates/tun-engine/src/helpers/socks5_udp.rs`: what is relayed over UDP goes behind a header with
its address, of IPv4, IPv6 or a domain. A datagram that is read back carries the address it came
from.

The least length that is asked of a datagram, before its form is known, is that of IPv4.
-/

namespace Hole.Tun.Socks5

/-- Bytes as Rust has them. -/
abbrev Bytes := List UInt8

/-- What `decode_socks5_udp` returns. -/
abbrev Decoded := Option (SocketAddr × Nat)

/-- The IPv4 form. Its length is not checked again. -/
def decodeIpv4 (data : Bytes) : Option Decoded := do
  let octets ← slice data 4 8
  let port ← slice data 8 10
  return some (SocketAddr.mk (IpAddr.ofV4Bytes octets) (portOfBytes port), 10)

/-- The form of a domain, which is not returned. -/
def decodeDomain (data : Bytes) : Option Decoded := do
  let dlen : UInt8 ← data[4]?
  let headerLen := 4 + 1 + dlen.toNat + 2
  if data.length < headerLen then return none
  let port ← slice data (4 + 1 + dlen.toNat) (4 + 1 + dlen.toNat + 2)
  return some (SocketAddr.mk (IpAddr.v4 0) (portOfBytes port), headerLen)

/-- The IPv6 form. -/
def decodeIpv6 (data : Bytes) : Option Decoded := do
  let headerLen := 4 + 16 + 2
  if data.length < headerLen then return none
  let octets ← slice data 4 20
  let port ← slice data 20 22
  return some (SocketAddr.mk (IpAddr.ofV6Bytes octets) (portOfBytes port), headerLen)

/-- `decode_socks5_udp`; nothing at all if it panics. -/
def decodeSocks5Udp (data : Bytes) : Option Decoded := do
  if data.length < 10 then return none
  let frag ← data[2]?
  if frag ≠ 0x00 then return none
  let atyp ← data[3]?
  if atyp = 0x01 then decodeIpv4 data
  else if atyp = 0x03 then decodeDomain data
  else if atyp = 0x04 then decodeIpv6 data
  else return none

/-! ### In range -/

variable {data : Bytes}

/-- The address that a datagram comes back with. -/
def Returned (dst : SocketAddr) (domain : Option Bytes) : SocketAddr :=
  if domain.isSome then ⟨.v4 0, dst.port⟩ else dst

end Hole.Tun.Socks5
