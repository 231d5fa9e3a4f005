import Mathlib.Data.List.Induction
import Hole.Net.SocketAddr

/-!
# Numbers and addresses as bytes

Bytes in network order: what `to_be_bytes` and `octets` write, and `from_be_bytes` reads, for any
width. A slice of bytes that is not there panics.
-/

namespace Hole

/-- `bytes[first..last]`, which panics where it does not lie in the bytes. -/
def slice (bytes : List UInt8) (first last : Nat) : Option (List UInt8) :=
  if first ≤ last ∧ last ≤ bytes.length then some ((bytes.drop first).take (last - first)) else none

theorem slice_of_le (bytes : List UInt8) (first last : Nat) (hfirst : first ≤ last)
    (hlast : last ≤ bytes.length) :
    slice bytes first last = some ((bytes.drop first).take (last - first)) :=
  if_pos ⟨hfirst, hlast⟩

/-- What lies between two places of some bytes is what is in front of the second, from the first
on. -/
theorem slice_eq {bytes : List UInt8} {first last : Nat} (hfirst : first ≤ last)
    (hlast : last ≤ bytes.length) :
    slice bytes first last = some ((bytes.take last).drop first) := by
  rw [slice_of_le bytes first last hfirst hlast, List.drop_take]

theorem eq_of_slice {bytes part : List UInt8} {first last : Nat}
    (h : slice bytes first last = some part) : part = (bytes.drop first).take (last - first) := by
  unfold slice at h
  split at h
  · cases h
    rfl
  · cases h

/-- The number of bytes, the first of them the highest. -/
def ofBytes (bytes : List UInt8) : Nat := bytes.foldl (fun n b ↦ n * 256 + b.toNat) 0

/-- A number in so many bytes; what does not fit is cut off. -/
def toBytes : Nat → Nat → List UInt8
  | 0, _ => []
  | k + 1, n => toBytes k (n / 256) ++ [UInt8.ofNat n]

@[simp] theorem length_toBytes (k n : Nat) : (toBytes k n).length = k := by
  induction k generalizing n with
  | zero => rfl
  | succ k ih => simp [toBytes, ih]

theorem ofBytes_snoc (bytes : List UInt8) (b : UInt8) :
    ofBytes (bytes ++ [b]) = ofBytes bytes * 256 + b.toNat := by
  simp [ofBytes]

/-- A number comes back, as far as the bytes held it. -/
theorem ofBytes_toBytes (k n : Nat) : ofBytes (toBytes k n) = n % 256 ^ k := by
  induction k generalizing n with
  | zero => simp [toBytes, ofBytes, Nat.mod_one]
  | succ k ih =>
    have hsplit : n % 256 ^ (k + 1) = n % 256 + 256 * (n / 256 % 256 ^ k) := by
      rw [Nat.pow_succ', Nat.mod_mul]
    rw [toBytes, ofBytes_snoc, ih, UInt8.toNat_ofNat', hsplit]
    omega

theorem ofBytes_lt (bytes : List UInt8) : ofBytes bytes < 256 ^ bytes.length := by
  induction bytes using List.reverseRecOn with
  | nil => simp [ofBytes]
  | append_singleton bytes b ih =>
    have hb : b.toNat < 256 := b.toNat_lt
    rw [ofBytes_snoc, List.length_append, List.length_singleton, Nat.pow_succ]
    omega

theorem ofBytes_bitVec {w : Nat} (k : Nat) (hw : w = 8 * k) (b : BitVec w) :
    BitVec.ofNat w (ofBytes (toBytes k b.toNat)) = b := by
  have hpow : 256 ^ k = 2 ^ w := by
    rw [hw, Nat.pow_mul]
  rw [ofBytes_toBytes, hpow, Nat.mod_eq_of_lt b.isLt, BitVec.ofNat_toNat, BitVec.setWidth_eq]

/-- `octets`. -/
def IpAddr.octetBytes : IpAddr → List UInt8
  | .v4 bits => toBytes 4 bits.toNat
  | .v6 bits => toBytes 16 bits.toNat

/-- `Ipv4Addr::new`. -/
def IpAddr.ofV4Bytes (bytes : List UInt8) : IpAddr := .v4 (BitVec.ofNat 32 (ofBytes bytes))

/-- `Ipv6Addr::from`. -/
def IpAddr.ofV6Bytes (bytes : List UInt8) : IpAddr := .v6 (BitVec.ofNat 128 (ofBytes bytes))

/-- `u16::from_be_bytes`, of a port. -/
def portOfBytes (bytes : List UInt8) : BitVec 16 := BitVec.ofNat 16 (ofBytes bytes)

/-- `to_be_bytes`, of a port. -/
def portBytes (port : BitVec 16) : List UInt8 := toBytes 2 port.toNat

@[simp] theorem portOfBytes_portBytes (port : BitVec 16) : portOfBytes (portBytes port) = port :=
  ofBytes_bitVec 2 (by decide) port

@[simp] theorem ofV4Bytes_octetBytes (bits : BitVec 32) :
    IpAddr.ofV4Bytes (IpAddr.v4 bits).octetBytes = .v4 bits :=
  congrArg IpAddr.v4 (ofBytes_bitVec 4 (by decide) bits)

@[simp] theorem ofV6Bytes_octetBytes (bits : BitVec 128) :
    IpAddr.ofV6Bytes (IpAddr.v6 bits).octetBytes = .v6 bits :=
  congrArg IpAddr.v6 (ofBytes_bitVec 16 (by decide) bits)

end Hole
