import Hole.Net.IpAddr
import Mathlib.Algebra.Order.Ring.Nat

/-!
# Networks of addresses

The addresses of a family that share the first bits of one (`IpAddr.InNet`), and the v4 addresses in
their mapped form. A network of `n` bits in v4 is one of `96 + n` bits in the mapped form, and no
address in canonical form is in that (`not_inNet_toCanonical`).
-/

namespace Hole.IpAddr

/-- The number of bits of an address. -/
def width : IpAddr → Nat
  | v4 _ => 32
  | v6 _ => 128

/-- An address of the family of another that has its first `n` bits. -/
def InNet (net : IpAddr) (n : Nat) (ip : IpAddr) : Prop :=
  match net, ip with
  | v4 a, v4 b => a.toNat / 2 ^ (32 - n) = b.toNat / 2 ^ (32 - n)
  | v6 a, v6 b => a.toNat / 2 ^ (128 - n) = b.toNat / 2 ^ (128 - n)
  | _, _ => False

instance (net : IpAddr) (n : Nat) (ip : IpAddr) : Decidable (net.InNet n ip) := by
  cases net <;> cases ip <;> unfold InNet <;> infer_instance

/-- `Ipv4Addr::to_ipv6_mapped`. -/
def mapped (a : BitVec 32) : IpAddr := v6 (BitVec.ofNat 128 (0xffff * 2 ^ 32 + a.toNat))

theorem toNat_mapped (a : BitVec 32) :
    (BitVec.ofNat 128 (0xffff * 2 ^ 32 + a.toNat)).toNat = 0xffff * 2 ^ 32 + a.toNat := by
  rw [BitVec.toNat_ofNat]
  have := a.isLt
  omega

@[simp] theorem toCanonical_mapped (a : BitVec 32) : (mapped a).toCanonical = v4 a := by
  have hlt := a.isLt
  have hmapped : toIpv4Mapped (BitVec.ofNat 128 (0xffff * 2 ^ 32 + a.toNat)) = some a := by
    rw [toIpv4Mapped, toNat_mapped, if_pos (by omega)]
    refine congrArg some (BitVec.eq_of_toNat_eq ?_)
    rw [BitVec.toNat_ofNat]
    omega
  rw [mapped, toCanonical, hmapped]

/-- What is taken to another form is the mapped form of that. -/
theorem toCanonical_eq (ip : IpAddr) : ip.toCanonical = ip ∨ ∃ a, ip = mapped a := by
  match ip with
  | v4 a => exact .inl rfl
  | v6 b =>
    by_cases hhigh : b.toNat / 2 ^ 32 = 0xffff
    · refine .inr ⟨BitVec.ofNat 32 b.toNat, congrArg v6 (BitVec.eq_of_toNat_eq ?_)⟩
      rw [toNat_mapped, BitVec.toNat_ofNat]
      omega
    · refine .inl ?_
      rw [toCanonical, toIpv4Mapped, if_neg hhigh]

@[simp] theorem toCanonical_toCanonical (ip : IpAddr) :
    ip.toCanonical.toCanonical = ip.toCanonical := by
  rcases toCanonical_eq ip with h | ⟨a, rfl⟩
  · rw [h, h]
  · rw [toCanonical_mapped]
    rfl

/-- Of a network of all bits there is one address. -/
theorem inNet_width (net ip : IpAddr) : net.InNet net.width ip ↔ net = ip := by
  match net, ip with
  | v4 a, v4 b => simp [InNet, width, BitVec.toNat_inj]
  | v6 a, v6 b => simp [InNet, width, BitVec.toNat_inj]
  | v4 a, v6 b => simp [InNet]
  | v6 a, v4 b => simp [InNet]

/-- What is in a network in the mapped form is in that form too. -/
theorem eq_mapped_of_inNet {a : BitVec 32} {n : Nat} {ip : IpAddr} (hn : n ≤ 32)
    (h : (mapped a).InNet (96 + n) ip) : ∃ b, ip = mapped b := by
  match ip with
  | v4 b => exact absurd h (by simp [mapped, InNet])
  | v6 b =>
    rcases toCanonical_eq (v6 b) with hcanonical | hmapped
    · exfalso
      have hdiv (x : Nat) : x / 2 ^ 32 = x / 2 ^ (32 - n) / 2 ^ n := by
        rw [Nat.div_div_eq_div_mul, ← Nat.pow_add, Nat.sub_add_cancel hn]
      have hshift : 128 - (96 + n) = 32 - n := by omega
      simp only [mapped, InNet, toNat_mapped, hshift] at h
      have hhigh : b.toNat / 2 ^ 32 = 0xffff := by
        rw [hdiv, ← h, ← hdiv]
        have := a.isLt
        omega
      rw [toCanonical, toIpv4Mapped, if_pos hhigh] at hcanonical
      cases hcanonical
    · exact hmapped

/-- No address in canonical form is in a network in the mapped form. -/
theorem not_inNet_toCanonical {a : BitVec 32} {n : Nat} (hn : n ≤ 32) (ip : IpAddr) :
    ¬(mapped a).InNet (96 + n) ip.toCanonical := by
  intro h
  obtain ⟨b, hb⟩ := eq_mapped_of_inNet hn h
  have hagain := toCanonical_toCanonical ip
  rw [hb, toCanonical_mapped] at hagain
  cases hagain

end Hole.IpAddr
