import Mathlib.Algebra.Group.Nat.Defs
import Mathlib.Logic.Basic

/-!
# IP addresses

`std::net::IpAddr` as the program uses it: equality, the classification predicates, and the
`Display` texts that end up inside route commands and packet-filter rules. An address is the
bits of its family, so that two addresses are equal exactly when Rust's are: a v4-mapped v6
address is **not** the v4 address it maps, and only `toCanonical` identifies the two.
-/

namespace Hole

/-- `std::net::IpAddr`: an address of either family, in network order. -/
inductive IpAddr
  | v4 (bits : BitVec 32)
  | v6 (bits : BitVec 128)
  deriving DecidableEq

namespace IpAddr

/-- The address `a.b.c.d`. -/
def ofOctets (a b c d : Nat) : IpAddr :=
  v4 (BitVec.ofNat 32 (a * 2 ^ 24 + b * 2 ^ 16 + c * 2 ^ 8 + d))

/-- The v4 address inside a v4-mapped v6 one (`::ffff:a.b.c.d`). -/
def toIpv4Mapped (bits : BitVec 128) : Option (BitVec 32) :=
  if bits.toNat / 2 ^ 32 = 0xffff then some (BitVec.ofNat 32 bits.toNat) else none

/-- `IpAddr::to_canonical`: a v4-mapped v6 address becomes its v4 address. -/
def toCanonical : IpAddr → IpAddr
  | v4 b => v4 b
  | v6 b =>
    match toIpv4Mapped b with
    | some b' => v4 b'
    | none => v6 b

/-- `IpAddr::is_loopback`: `127.0.0.0/8`, or `::1`. -/
def isLoopback : IpAddr → Bool
  | v4 b => b.toNat / 2 ^ 24 == 127
  | v6 b => b.toNat == 1

/-- `IpAddr::is_unspecified`: `0.0.0.0`, or `::`. -/
def isUnspecified : IpAddr → Bool
  | v4 b => b.toNat == 0
  | v6 b => b.toNat == 0

/-- `IpAddr::is_ipv4`. -/
def isIpv4 : IpAddr → Bool
  | v4 _ => true
  | v6 _ => false

/-! ### Display -/

/-- The four octets of a v4 address, first octet first. -/
def octets (b : BitVec 32) : List Nat := [24, 16, 8, 0].map fun k ↦ b.toNat / 2 ^ k % 256

/-- `Display for Ipv4Addr`. -/
def displayV4 (b : BitVec 32) : String := String.intercalate "." ((octets b).map toString)

/-- The eight segments of a v6 address, first segment first. -/
def segments (b : BitVec 128) : List Nat :=
  [112, 96, 80, 64, 48, 32, 16, 0].map fun k ↦ b.toNat / 2 ^ k % 65536

/-- `{:x}` of each segment, joined by colons. -/
def fmtSubslice (segs : List Nat) : String :=
  String.intercalate ":" (segs.map fun n ↦ String.ofList (Nat.toDigits 16 n))

/-- The first longest run of zero segments, as its start and length: the loop of
`Display for Ipv6Addr`, whose accumulator is the longest run and the current one. -/
def zeroSpan (segs : List Nat) : Nat × Nat := (segs.zipIdx.foldl (fun (longest, current) (seg, i) ↦
      if seg = 0 then
        let current := if current.2 = 0 then (i, 1) else (current.1, current.2 + 1)
        (if current.2 > longest.2 then current else longest, current)
      else (longest, (0, 0)))
    ((0, 0), (0, 0))).1

/-- `Display for Ipv6Addr`. -/
def displayV6 (b : BitVec 128) : String :=
  match toIpv4Mapped b with
  | some b' => "::ffff:" ++ displayV4 b'
  | none =>
    let segs := segments b
    let (start, len) := zeroSpan segs
    if len > 1 then
      fmtSubslice (segs.take start) ++ "::" ++ fmtSubslice (segs.drop (start + len))
    else fmtSubslice segs

/-- `Display for IpAddr`. -/
def display : IpAddr → String
  | v4 b => displayV4 b
  | v6 b => displayV6 b

example : (ofOctets 192 168 0 1).display = "192.168.0.1" := by decide

example : (v6 (BitVec.ofNat 128 (0x2001 * 2 ^ 112 + 0xdb8 * 2 ^ 96 + 1))).display =
    "2001:db8::1" := by decide

end IpAddr

end Hole
