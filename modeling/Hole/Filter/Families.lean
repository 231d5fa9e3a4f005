import Hole.Filter.Matcher
import Hole.Net.Subnet

/-!
# Rules for addresses, in two spellings

A v4 address, or a network of such, can be written in the mapped form too, and a connection can
have its destination in either. `Matcher::matches` takes the destination to its v4 form, and
`parse_exact` the address of the rule, but `parse_subnet` does not: a network in the mapped form
compiles and matches nothing. `families_agree_iff` says for which connections two spellings of one
rule agree all the same: those that the rule is not about.
-/

namespace Hole.Filter

open Text Gui

/-- The text of a network. -/
def netText (ip : IpAddr) (n : Nat) : List Char := ip.display.toList ++ '/' :: Nat.toDigits 10 n

/-- What is published of `ipnet`: an address and a number of bits are the text of a network, which
has, cut to its bits, the addresses of the family that share them. -/
structure Crates.Published (c : Crates) : Prop where
  parse : ∀ ip n, n ≤ ip.width → ∃ net, c.parseNet (netText ip n) = .ok net ∧
    ∀ ip', c.contains (c.trunc net) ip' = true ↔ ip.InNet n ip'

section Rules

variable (c : Crates)

/-- The rule for a network. -/
def subnetRule (ip : IpAddr) (n : Nat) : Except String (Matcher c) :=
  Matcher.compile c (String.ofList (netText ip n)) .subnet

/-- The rule for an address. -/
def exactRule (ip : IpAddr) : Except String (Matcher c) := Matcher.compile c ip.display .exactly

variable {c}

/-- Two rules compile, and match a connection both or neither. -/
def Agree (conn : ConnInfo) (rule rule' : Except String (Matcher c)) : Prop :=
  ∃ m m', rule = .ok m ∧ rule' = .ok m' ∧ m.matches conn = m'.matches conn

theorem agree_iff {conn : ConnInfo} {rule rule' : Except String (Matcher c)} {P P' : Prop}
    (h : ∃ m, rule = .ok m ∧ (m.matches conn = true ↔ P))
    (h' : ∃ m, rule' = .ok m ∧ (m.matches conn = true ↔ P')) : Agree conn rule rule' ↔
    (P ↔ P') := by
  obtain ⟨m, rfl, hm⟩ := h
  obtain ⟨m', rfl, hm'⟩ := h'
  rw [← hm, ← hm', ← Bool.eq_iff_iff]
  constructor
  · rintro ⟨_, _, ⟨⟩, ⟨⟩, heq⟩
    exact heq
  · exact fun heq ↦ ⟨m, m', rfl, rfl, heq⟩

theorem subnetRule_matches (hc : c.Published) {ip : IpAddr} {n : Nat} (hn : n ≤ ip.width)
    (conn : ConnInfo) : ∃ m, subnetRule c ip n = .ok m ∧
      (m.matches conn = true ↔ ip.InNet n conn.dst.ip.toCanonical) := by
  obtain ⟨net, hparse, hcontains⟩ := hc.parse ip n hn
  refine ⟨.subnet (c.trunc net), ?_, hcontains _⟩
  rw [subnetRule, Matcher.compile, String.toList_ofList, parseSubnet, hparse]

theorem exactRule_matches (ip : IpAddr) (conn : ConnInfo) : ∃ m, exactRule c ip = .ok m ∧
    (m.matches conn = true ↔ ip.toCanonical = conn.dst.ip.toCanonical) := by
  have hne : ip.display.toList ≠ [] := (IpAddr.isWord_display ip).nonempty
  refine ⟨.exactIp ip.toCanonical, ?_, ?_⟩
  · rw [exactRule, Matcher.compile, parseExact, if_neg hne, IpAddr.fromStr_display]
  · rw [Matcher.matches, beq_iff_eq, eq_comm]

/-- A network in the mapped form matches nothing. -/
theorem mapped_matches_nothing (hc : c.Published) (a : BitVec 32) {n : Nat} (hn : n ≤ 32)
    (conn : ConnInfo) : ∃ m, subnetRule c (.mapped a) (96 + n) = .ok m ∧
      (m.matches conn = true ↔ False) := by
  have hwidth : 96 + n ≤ (IpAddr.mapped a).width := Nat.add_le_add_left hn 96
  obtain ⟨m, hrule, hmatches⟩ := subnetRule_matches hc hwidth conn
  exact ⟨m, hrule, hmatches.trans (iff_false_intro (IpAddr.not_inNet_toCanonical hn _))⟩

/-- Where two spellings of a rule for addresses agree. -/
theorem families_agree_iff (c : Crates) (hc : c.Published) :
    (∀ (a : BitVec 32) (n : Nat), n ≤ 32 → ∀ conn : ConnInfo,
      (Agree conn (subnetRule c (.v4 a) n) (subnetRule c (.mapped a) (96 + n)) ↔
        ¬(IpAddr.v4 a).InNet n conn.dst.ip.toCanonical)) ∧
    ∀ ip ip' : IpAddr, ip.toCanonical = ip'.toCanonical → ∀ conn : ConnInfo,
      (Agree conn (exactRule c ip) (subnetRule c ip' ip'.width) ↔
        ip'.toCanonical = ip' ∨ conn.dst.ip.toCanonical ≠ ip'.toCanonical) := by
  constructor
  · intro a n hn conn
    rw [agree_iff (subnetRule_matches hc hn conn) (mapped_matches_nothing hc a hn conn), iff_false]
  · intro ip ip' hsame conn
    rw [agree_iff (exactRule_matches ip conn) (subnetRule_matches hc (Nat.le_refl _) conn),
      IpAddr.inNet_width, hsame]
    rcases IpAddr.toCanonical_eq ip' with hcanonical | ⟨a, rfl⟩
    · exact iff_of_true (by rw [hcanonical]) (.inl hcanonical)
    · -- The rule for the network has the mapped form, which no destination has.
      have hnever : ¬IpAddr.mapped a = conn.dst.ip.toCanonical := by
        intro heq
        have hagain := IpAddr.toCanonical_toCanonical conn.dst.ip
        rw [← heq, IpAddr.toCanonical_mapped] at hagain
        cases hagain
      rw [iff_false_right hnever, eq_comm]
      exact (or_iff_right fun heq ↦ by rw [IpAddr.toCanonical_mapped] at heq; cases heq).symm

end Rules

/-! ### The networks of `ipnet` -/

/-- The first `n` bits of an address. -/
def cut (n : Nat) : IpAddr → IpAddr
  | .v4 a => .v4 (BitVec.ofNat 32 (a.toNat / 2 ^ (32 - n) * 2 ^ (32 - n)))
  | .v6 a => .v6 (BitVec.ofNat 128 (a.toNat / 2 ^ (128 - n) * 2 ^ (128 - n)))

theorem inNet_cut (n : Nat) (net ip : IpAddr) : (cut n net).InNet n ip ↔ net.InNet n ip := by
  have hcut {w : Nat} (a : BitVec w) :
      (BitVec.ofNat w (a.toNat / 2 ^ (w - n) * 2 ^ (w - n))).toNat / 2 ^ (w - n) =
        a.toNat / 2 ^ (w - n) := by
    rw [BitVec.toNat_ofNat, Nat.mod_eq_of_lt (Nat.lt_of_le_of_lt (Nat.div_mul_le_self _ _) a.isLt),
      Nat.mul_div_cancel _ (Nat.two_pow_pos _)]
  match net, ip with
  | .v4 a, .v4 b => simp only [cut, IpAddr.InNet, hcut]
  | .v6 a, .v6 b => simp only [cut, IpAddr.InNet, hcut]
  | .v4 a, .v6 b => exact Iff.rfl
  | .v6 a, .v4 b => exact Iff.rfl

/-- An address and a number of bits. -/
def readNet (text : List Char) : Option (IpAddr × Nat) := do
  let (host, bits) ← splitOnce '/' text
  let ip ← IpAddr.fromStr host
  let n ← readUnsigned 256 bits
  if n ≤ ip.width then some (ip, n) else none

theorem readNet_netText {ip : IpAddr} {n : Nat} (hn : n ≤ ip.width) :
    readNet (netText ip n) = some (ip, n) := by
  have hslash : '/' ∉ ip.display.toList :=
    IpAddr.not_mem_display (by decide) (by decide) (by decide) ip
  have hlt : n < 256 := by
    cases ip <;> simp only [IpAddr.width] at hn <;> omega
  rw [readNet, netText, splitOnce_append hslash]
  simp [IpAddr.fromStr_display, readUnsigned_toDigits hlt, hn]

/-- `ipnet`; names are as they are in ASCII, and there are no patterns. -/
def ipnet : Crates where
  Net := IpAddr × Nat
  parseNet text := (readNet text).elim (.error "invalid IP address syntax") .ok
  trunc net := (cut net.2 net.1, net.2)
  contains net ip := decide (net.1.InNet net.2 ip)
  domainToAscii s := .ok (toAsciiLowercase s)
  Regex := Empty
  newRegex _ := .error "no patterns"
  isMatch := nofun
  plain c := ' ' ≤ c && c ≤ '~'

theorem ipnet_published : ipnet.Published where
  parse ip n hn := by
    refine ⟨(ip, n), ?_, fun ip' ↦ ?_⟩
    · change (readNet (netText ip n)).elim _ _ = _
      rw [readNet_netText hn]
      rfl
    · exact decide_eq_true_iff.trans (inNet_cut n ip ip')

/-- The address `10.0.0.0`. -/
def ten : BitVec 32 := 0x0a000000

/-- A connection to `10.0.0.1`. -/
def toTen : ConnInfo where
  dst := ⟨.v4 0x0a000001, 443⟩
  domain := none
  proto := .tcp

theorem families_agree_sample : ipnet.Published ∧
    (Agree toTen (subnetRule ipnet (.v4 ten) 8) (subnetRule ipnet (.mapped ten) (96 + 8)) ↔
      ¬(IpAddr.v4 ten).InNet 8 toTen.dst.ip.toCanonical) ∧
    (Agree toTen (exactRule ipnet (.v4 ten)) (subnetRule ipnet (.mapped ten) 128) ↔
      (IpAddr.mapped ten).toCanonical = .mapped ten ∨
        toTen.dst.ip.toCanonical ≠ (IpAddr.mapped ten).toCanonical) :=
  ⟨ipnet_published, (families_agree_iff ipnet ipnet_published).1 ten 8 (by decide) toTen,
    (families_agree_iff ipnet ipnet_published).2 (.v4 ten) (.mapped ten)
      (IpAddr.toCanonical_mapped ten).symm toTen⟩

/-- A rule for `::ffff:10.0.0.0/104` does not match a connection to `10.0.0.1`, which one for
`10.0.0.0/8` does. -/
theorem mapped_rule_never_fires : ¬∀ c : Crates, c.Published → ∀ (a : BitVec 32) (n : Nat),
    n ≤ 32 → ∀ conn : ConnInfo,
      Agree conn (subnetRule c (.v4 a) n) (subnetRule c (.mapped a) (96 + n)) := by
  intro h
  have hagree := h ipnet ipnet_published ten 8 (by decide) toTen
  rw [agree_iff (subnetRule_matches ipnet_published (by decide) toTen)
    (mapped_matches_nothing ipnet_published ten (by decide) toTen), iff_false] at hagree
  exact hagree (by decide)

end Hole.Filter
