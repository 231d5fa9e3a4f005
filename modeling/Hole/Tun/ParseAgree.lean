import Hole.Tun.Parse

/-!
# The parsers agree

What each parser reads of a packet, in terms of where the fields are, and from that that they agree
on every packet (`parsersAgree`). The check of smoltcp and the parser by hand both refuse an IPv4
header that is declared shorter than it is, so a segment never lies over fields of the header.
-/

namespace Hole.Tun

theorem field8_eq {p : Packet} {i : Nat} (h : i < p.length) : field8 p i = some (at8 p i) := by
  simp [field8, at8, h]

theorem field16_eq {p : Packet} {i : Nat} (h : i + 2 ≤ p.length) : field16 p i = some
    (at16 p i) := by
  rw [field16, slice_of_le _ _ _ (Nat.le_add_right i 2) h, Nat.add_sub_cancel_left]
  rfl

/-- Two bytes of a part of a packet. -/
theorem at16_part {p : Packet} {first len i : Nat} (h : i + 2 ≤ len) :
    at16 ((p.drop first).take len) i = at16 p (first + i) := by
  rw [at16, at16, List.drop_take, List.drop_drop, List.take_take, Nat.min_eq_left (by omega)]

/-! ### Where the fields are -/

section Layout

variable (p : Packet)

/-- The length of the IP header, as it is declared. -/
def ipHeaderLen : Nat := if version p = 4 then ipv4HeaderLen p else 40

/-- The length of the packet, as it is declared. -/
def ipTotalLen : Nat := if version p = 4 then ipv4TotalLen p else 40 + at16 p 4

/-- The protocol. -/
def ipProtocol : UInt8 := if version p = 4 then at8 p 9 else at8 p 6

/-- The addresses. -/
def ipSrc : IpAddr :=
  if version p = 4 then .ofV4Bytes ((p.drop 12).take 4) else .ofV6Bytes ((p.drop 8).take 16)

@[inherit_doc ipSrc] def ipDst : IpAddr :=
  if version p = 4 then .ofV4Bytes ((p.drop 16).take 4) else .ofV6Bytes ((p.drop 24).take 16)

/-- The segment behind the IP header. -/
def segment : Packet := (p.drop (ipHeaderLen p)).take (ipTotalLen p - ipHeaderLen p)

/-- The lengths of the IP header fit, and the packet is whole. -/
def IpFits : Prop :=
  version p = 4 ∧ 20 ≤ p.length ∧ 20 ≤ ipv4HeaderLen p ∧ ipv4HeaderLen p ≤ ipv4TotalLen p ∧
      ipv4TotalLen p ≤ p.length ∧ ¬IsFragment p ∨
    version p = 6 ∧ 40 ≤ p.length ∧ 40 + at16 p 4 ≤ p.length

instance : Decidable (IpFits p) := inferInstanceAs (Decidable (_ ∨ _))

end Layout

/-- The lengths of a segment fit. -/
def L4Fits (l4 : Packet) : IpProto → Prop
  | .tcp => 20 ≤ l4.length ∧ 20 ≤ tcpHeaderLen l4 ∧ tcpHeaderLen l4 ≤ l4.length
  | .udp => 8 ≤ l4.length ∧ 8 ≤ at16 l4 4 ∧ at16 l4 4 ≤ l4.length

instance (l4 : Packet) : (proto : IpProto) → Decidable (L4Fits l4 proto)
  | .tcp => inferInstanceAs (Decidable (_ ∧ _))
  | .udp => inferInstanceAs (Decidable (_ ∧ _))

/-- The length of the header of a segment. -/
def l4HeaderLen (l4 : Packet) : IpProto → Nat
  | .tcp => tcpHeaderLen l4
  | .udp => 8

/-- The payload of a segment. -/
def l4Payload (l4 : Packet) : IpProto → Packet
  | .tcp => l4.drop (tcpHeaderLen l4)
  | .udp => (l4.drop 8).take (at16 l4 4 - 8)

/-! ### What is read -/

section Read

variable {c : WireChecks} (hc : c.Published)

include hc in
theorem parseL4_eq (protocol : UInt8) (src dst : IpAddr) (l4 : Packet) :
    parseL4 c protocol src dst l4 = some ((protoOf protocol).bind fun proto ↦
      if L4Fits l4 proto then
        some ⟨⟨src, .ofNat 16 (at16 l4 0)⟩, ⟨dst, .ofNat 16 (at16 l4 2)⟩, proto, l4Payload l4 proto⟩
      else none) := by
  unfold parseL4
  cases protoOf protocol with
  | none => rfl
  | some proto =>
    cases proto with
    | tcp =>
      by_cases hfits : L4Fits l4 .tcp
      · obtain ⟨hmin, hheader, hlen⟩ := hfits
        have hcheck : c.tcp l4 = true := (hc.tcp l4).2 ⟨hmin, hheader, hlen⟩
        have hpayload : slice l4 ((at8 l4 12).toNat / 16 * 4) l4.length =
            some (l4.drop (tcpHeaderLen l4)) := by
          show slice l4 (tcpHeaderLen l4) l4.length = _
          rw [slice_of_le _ _ _ hlen (Nat.le_refl _), List.take_of_length_le (by simp)]
        have hparts : tcpParts l4 = some (at16 l4 0, at16 l4 2, l4.drop (tcpHeaderLen l4)) := by
          simp only [tcpParts, field16_eq (p := l4) (i := 0) (by omega),
            field16_eq (p := l4) (i := 2) (by omega), field8_eq (p := l4) (i := 12) (by omega),
            Option.bind_eq_bind, Option.bind_some, hpayload]
          rfl
        simp [hcheck, hparts, L4Fits, hmin, hheader, hlen, l4Payload]
      · have hcheck : c.tcp l4 = false := Bool.eq_false_iff.2 fun h ↦ hfits ((hc.tcp l4).1 h)
        simp [hcheck, hfits]
    | udp =>
      by_cases hfits : L4Fits l4 .udp
      · obtain ⟨hmin, hheader, hlen⟩ := hfits
        have hcheck : c.udp l4 = true := (hc.udp l4).2 ⟨hmin, hheader, hlen⟩
        have hparts : udpParts l4 =
            some (at16 l4 0, at16 l4 2, (l4.drop 8).take (at16 l4 4 - 8)) := by
          simp only [udpParts, field16_eq (p := l4) (i := 0) (by omega),
            field16_eq (p := l4) (i := 2) (by omega), field16_eq (p := l4) (i := 4) (by omega),
            Option.bind_eq_bind, Option.bind_some, slice_of_le _ _ _ hheader hlen]
          rfl
        simp [hcheck, hparts, L4Fits, hmin, hheader, hlen, l4Payload]
      · have hcheck : c.udp l4 = false := Bool.eq_false_iff.2 fun h ↦ hfits ((hc.udp l4).1 h)
        simp [hcheck, hfits]

/-- What the full parser returns of a packet that it takes. -/
def parsedOf (p : Packet) (proto : IpProto) : ParsedPacket :=
  ⟨⟨ipSrc p, .ofNat 16 (at16 (segment p) 0)⟩, ⟨ipDst p, .ofNat 16 (at16 (segment p) 2)⟩, proto,
    l4Payload (segment p) proto⟩

theorem isFragment_iff (p : Packet) :
    IsFragment p ↔ at16 p 6 / 0x2000 % 2 = 1 ∨ at16 p 6 % 0x2000 ≠ 0 := Iff.rfl

include hc in
theorem parseIpv4Full_eq {p : Packet} (hv : version p = 4) :
    parseIpv4Full c p = some (if IpFits p then (protoOf (ipProtocol p)).bind fun proto ↦
      if L4Fits (segment p) proto then some (parsedOf p proto) else none else none) := by
  have hfits : IpFits p ↔ (20 ≤ p.length ∧ 20 ≤ ipv4HeaderLen p ∧
      ipv4HeaderLen p ≤ ipv4TotalLen p ∧ ipv4TotalLen p ≤ p.length) ∧ ¬IsFragment p := by
    simp [IpFits, hv, and_assoc]
  unfold parseIpv4Full
  by_cases hcheck : c.ipv4 p = true
  · have hlens := (hc.ipv4 p).1 hcheck
    obtain ⟨hmin, hihl, hheader, htotal⟩ := hlens
    rw [if_neg (by simp [hcheck])]
    simp only [field16_eq (p := p) (i := 6) (by omega), Option.bind_eq_bind, Option.bind_some]
    by_cases hfrag : IsFragment p
    · rw [if_pos ((isFragment_iff p).1 hfrag), if_neg (fun h ↦ (hfits.1 h).2 hfrag)]
      rfl
    · have hsegment : slice p (ipv4HeaderLen p) (ipv4TotalLen p) = some (segment p) := by
        rw [slice_of_le _ _ _ hheader htotal, segment, ipHeaderLen, ipTotalLen,
          if_pos hv, if_pos hv]
      rw [if_neg (fun h ↦ hfrag ((isFragment_iff p).2 h)),
        if_pos (hfits.2 ⟨⟨hmin, hihl, hheader, htotal⟩, hfrag⟩)]
      simp only [slice_of_le p 12 16 (by omega) (by omega),
        slice_of_le p 16 20 (by omega) (by omega),
        field8_eq (p := p) (i := 9) (by omega), hsegment, Option.bind_some, parseL4_eq hc,
        parsedOf, ipProtocol, ipSrc, ipDst, if_pos hv]
  · rw [if_pos (by simpa using hcheck), if_neg fun h ↦ hcheck ((hc.ipv4 p).2 (hfits.1 h).1)]
    rfl

include hc in
theorem parseIpv6Full_eq {p : Packet} (hv : version p = 6) :
    parseIpv6Full c p = some (if IpFits p then (protoOf (ipProtocol p)).bind fun proto ↦
      if L4Fits (segment p) proto then some (parsedOf p proto) else none else none) := by
  have hne : version p ≠ 4 := by omega
  have hfits : IpFits p ↔ 40 ≤ p.length ∧ 40 + at16 p 4 ≤ p.length := by
    simp [IpFits, hv]
  unfold parseIpv6Full
  by_cases hcheck : c.ipv6 p = true
  · obtain ⟨hmin, htotal⟩ := (hc.ipv6 p).1 hcheck
    have hsegment : slice p 40 (40 + at16 p 4) = some (segment p) := by
      rw [slice_of_le _ _ _ (Nat.le_add_right _ _) htotal, segment, ipHeaderLen,
        ipTotalLen, if_neg hne,
        if_neg hne]
    rw [if_neg (by simp [hcheck]), if_pos (hfits.2 ⟨hmin, htotal⟩)]
    simp only [slice_of_le p 8 24 (by omega) (by omega), slice_of_le p 24 40 (by omega) (by omega),
      field8_eq (p := p) (i := 6) (by omega), hsegment, Option.bind_eq_bind, Option.bind_some,
      parseL4_eq hc, parsedOf, ipProtocol, ipSrc, ipDst, if_neg hne]
  · rw [if_pos (by simpa using hcheck), if_neg fun h ↦ hcheck ((hc.ipv6 p).2 (hfits.1 h))]
    rfl

/-- The version of a packet is in its first byte. -/
theorem field8_version {p : Packet} (hne : p ≠ []) : field8 p 0 = some (at8 p 0) :=
  field8_eq (List.length_pos_iff.2 hne)

include hc in
/-- What the full parser takes, and what it returns. It never panics. -/
theorem parseIpPacketFull_eq (p : Packet) :
    parseIpPacketFull c p = some (if IpFits p then (protoOf (ipProtocol p)).bind fun proto ↦
      if L4Fits (segment p) proto then some (parsedOf p proto) else none else none) := by
  unfold parseIpPacketFull
  by_cases hne : p = []
  · subst hne
    rfl
  rw [if_neg hne, field8_version hne]
  show (if version p = 4 then _ else if version p = 6 then _ else _) = _
  by_cases hv : version p = 4
  · rw [if_pos hv, parseIpv4Full_eq hc hv]
  rw [if_neg hv]
  by_cases hv6 : version p = 6
  · rw [if_pos hv6, parseIpv6Full_eq hc hv6]
  · rw [if_neg hv6, if_neg (by simp [IpFits, hv, hv6])]
    rfl

/-- The destination is read of a packet. -/
def DstFits (p : Packet) : Prop :=
  version p = 4 ∧ 20 ≤ ipv4HeaderLen p ∧ ipv4HeaderLen p + 4 ≤ p.length ∧ ¬IsFragment p ∨
    version p = 6 ∧ 44 ≤ p.length

instance (p : Packet) : Decidable (DstFits p) := inferInstanceAs (Decidable (_ ∨ _))

theorem parseIpv4Dst_eq {p : Packet} (hv : version p = 4) : parseIpv4Dst p = some (if DstFits p then
      (protoOf (ipProtocol p)).map (at16 p (ipHeaderLen p + 2), ·) else none) := by
  have hfits : DstFits p ↔
      20 ≤ ipv4HeaderLen p ∧ ipv4HeaderLen p + 4 ≤ p.length ∧ ¬IsFragment p := by
    simp [DstFits, hv]
  unfold parseIpv4Dst
  by_cases hmin : p.length < 20
  · rw [if_pos hmin, if_neg fun h ↦ absurd (hfits.1 h) (by omega)]
    rfl
  rw [if_neg hmin, field8_eq (by omega)]
  show (if ipv4HeaderLen p < 20 then _ else _) = _
  by_cases hihl : ipv4HeaderLen p < 20
  · rw [if_pos hihl, if_neg fun h ↦ absurd (hfits.1 h).1 (by omega)]
    rfl
  rw [if_neg hihl, field16_eq (by omega)]
  simp only [Option.bind_eq_bind, Option.bind_some]
  by_cases hfrag : IsFragment p
  · rw [if_pos ((isFragment_iff p).1 hfrag), if_neg fun h ↦ (hfits.1 h).2.2 hfrag]
    rfl
  rw [if_neg (fun h ↦ hfrag ((isFragment_iff p).2 h)), field8_eq (by omega), Option.bind_some]
  show (if p.length < ipv4HeaderLen p + 4 then _ else _) = _
  by_cases hshort : p.length < ipv4HeaderLen p + 4
  · rw [if_pos hshort, if_neg fun h ↦ absurd (hfits.1 h).2.1 (by omega)]
    rfl
  · rw [if_neg hshort, if_pos (hfits.2 ⟨by omega, by omega, hfrag⟩)]
    show (field16 p (ipv4HeaderLen p + 2)).bind _ = _
    rw [field16_eq (by omega), ipProtocol, ipHeaderLen, if_pos hv, if_pos hv]
    rfl

theorem parseIpv6Dst_eq {p : Packet} (hv : version p = 6) : parseIpv6Dst p = some (if DstFits p then
      (protoOf (ipProtocol p)).map (at16 p (ipHeaderLen p + 2), ·) else none) := by
  have hne : version p ≠ 4 := by omega
  have hfits : DstFits p ↔ 44 ≤ p.length := by
    simp [DstFits, hv]
  unfold parseIpv6Dst
  by_cases hmin : p.length < 44
  · rw [if_pos hmin, if_neg fun h ↦ absurd (hfits.1 h) (by omega)]
    rfl
  · rw [if_neg hmin, if_pos (hfits.2 (Nat.not_lt.1 hmin)), field8_eq (by omega),
      field16_eq (by omega), ipProtocol, ipHeaderLen, if_neg hne, if_neg hne]
    rfl

/-- What the parser of the destination takes, and what it returns. It never panics. -/
theorem parseIpDst_eq (p : Packet) : parseIpDst p = some (if DstFits p then
      (protoOf (ipProtocol p)).map (at16 p (ipHeaderLen p + 2), ·) else none) := by
  unfold parseIpDst
  by_cases hne : p = []
  · subst hne
    rfl
  rw [if_neg hne, field8_version hne]
  show (if version p = 4 then _ else if version p = 6 then _ else _) = _
  by_cases hv : version p = 4
  · rw [if_pos hv, parseIpv4Dst_eq hv]
  rw [if_neg hv]
  by_cases hv6 : version p = 6
  · rw [if_pos hv6, parseIpv6Dst_eq hv6]
  · rw [if_neg hv6, if_neg (by simp [DstFits, hv, hv6])]
    rfl

end Read

/-! ### Where they agree -/

section Agree

variable {c : WireChecks} (hc : c.Published) {p : Packet}

/-- What is asked of the parsers, for one packet. -/
structure ParsersAgree (c : WireChecks) (p : Packet) : Prop where
  dstInRange : ∃ read, parseIpDst p = some read
  fullInRange : ∃ read, parseIpPacketFull c p = some read
  /-- What is parsed in full has a destination, and it is the same. -/
  dst : ∀ f, parseIpPacketFull c p = some (some f) →
    parseIpDst p = some (some (f.dst.port.toNat, f.proto))
  headerLen : ∀ f, parseIpPacketFull c p = some (some f) → version p = 4 → 20 ≤ ipv4HeaderLen p
  /-- The payload lies in the packet, behind the headers. -/
  payload : ∀ f, parseIpPacketFull c p = some (some f) → ∃ before after,
    p = before ++ f.payload ++ after ∧
      ipHeaderLen p + l4HeaderLen (segment p) f.proto ≤ before.length
  /-- A SYN goes where the segment goes. -/
  syn : ∀ f src dst isn, parseIpPacketFull c p = some (some f) → f.proto = .tcp →
    parseSyn c p = some (some (src, dst, isn)) → dst.port = f.dst.port

include hc in
theorem parsed_iff {f : ParsedPacket} : parseIpPacketFull c p = some (some f) ↔
    IpFits p ∧ ∃ proto, protoOf (ipProtocol p) = some proto ∧ L4Fits (segment p) proto ∧
      parsedOf p proto = f := by
  rw [parseIpPacketFull_eq hc, Option.some_inj]
  split
  · next hfits =>
    rw [Option.bind_eq_some_iff]
    simp only [Option.ite_none_right_eq_some, Option.some.injEq, hfits, true_and]
  · next hfits => simp [hfits]

theorem IpFits.header_le (h : IpFits p) : ipHeaderLen p ≤ ipTotalLen p ∧
    ipTotalLen p ≤ p.length := by
  rcases h with ⟨hv, -, -, hheader, htotal, -⟩ | ⟨hv, -, htotal⟩
  · rw [ipHeaderLen, ipTotalLen, if_pos hv, if_pos hv]
    exact ⟨hheader, htotal⟩
  · have hne : version p ≠ 4 := by omega
    rw [ipHeaderLen, ipTotalLen, if_neg hne, if_neg hne]
    exact ⟨Nat.le_add_right _ _, htotal⟩

theorem IpFits.length_segment (h : IpFits p) :
    (segment p).length = ipTotalLen p - ipHeaderLen p := by
  have hle := h.header_le
  rw [segment, List.length_take_of_le]
  rw [List.length_drop]
  omega

/-- A packet is what is before its segment, the segment, and what is after it. -/
theorem packet_split (p : Packet) : ∃ after, p = p.take (ipHeaderLen p) ++ segment p ++ after := by
  refine ⟨(p.drop (ipHeaderLen p)).drop (ipTotalLen p - ipHeaderLen p), ?_⟩
  rw [List.append_assoc, segment, List.take_append_drop, List.take_append_drop]

theorem L4Fits.length_le {l4 : Packet} {proto : IpProto} (h : L4Fits l4 proto) : 8 ≤ l4.length := by
  cases proto with
  | tcp =>
    have hmin := h.1
    omega
  | udp => exact h.1

/-- The payload of a segment lies behind its header. -/
theorem L4Fits.split {l4 : Packet} {proto : IpProto} (h : L4Fits l4 proto) :
    ∃ header after, l4 = header ++ l4Payload l4 proto ++ after ∧
      header.length = l4HeaderLen l4 proto := by
  cases proto with
  | tcp =>
    refine ⟨l4.take (tcpHeaderLen l4), [], ?_, List.length_take_of_le h.2.2⟩
    rw [l4Payload, List.append_nil, List.take_append_drop]
  | udp =>
    refine ⟨l4.take 8, (l4.drop 8).drop (at16 l4 4 - 8), ?_, List.length_take_of_le h.1⟩
    rw [l4Payload, List.append_assoc, List.take_append_drop, List.take_append_drop]

theorem at16_lt (p : Packet) (i : Nat) : at16 p i < 65536 := by
  have hlt : at16 p i < 256 ^ ((p.drop i).take 2).length := ofBytes_lt _
  have hle : 256 ^ ((p.drop i).take 2).length ≤ 256 ^ 2 :=
    Nat.pow_le_pow_right (by decide) (List.length_take_le 2 _)
  omega

theorem toNat_port (p : Packet) (i : Nat) : (BitVec.ofNat 16 (at16 p i)).toNat = at16 p i := by
  rw [BitVec.toNat_ofNat]
  exact Nat.mod_eq_of_lt (at16_lt p i)

theorem eq_of_field8 {i : Nat} {b : UInt8} (h : field8 p i = some b) : b = at8 p i := by
  rw [field8] at h
  rw [at8, List.getD_eq_getElem?_getD, h]
  rfl

theorem eq_of_field16 {i n : Nat} (h : field16 p i = some n) : n = at16 p i := by
  obtain ⟨bytes, hslice, rfl⟩ := Option.map_eq_some_iff.1 h
  rw [eq_of_slice hslice, Nat.add_sub_cancel_left, at16]

/-- The port of a SYN is that of its segment. -/
theorem port_of_synParts {srcIp dstIp : IpAddr} {l4 : Packet} {src dst : SocketAddr} {isn : Nat}
    (h : synParts c srcIp dstIp l4 = some (some (src, dst, isn))) :
    dst.port = .ofNat 16 (at16 l4 2) := by
  unfold synParts at h
  split at h
  · cases h
  obtain ⟨flags, -, h⟩ := Option.bind_eq_some_iff.1 h
  split at h
  · cases h
  obtain ⟨srcPort, -, h⟩ := Option.bind_eq_some_iff.1 h
  obtain ⟨dstPort, hdst, h⟩ := Option.bind_eq_some_iff.1 h
  obtain ⟨isnBytes, -, h⟩ := Option.bind_eq_some_iff.1 h
  cases h
  rw [eq_of_field16 hdst]

/-- A SYN is in the segment, where that is one of TCP. -/
theorem port_of_parseSyn {src dst : SocketAddr} {isn : Nat}
    (hproto : protoOf (ipProtocol p) = some .tcp)
    (h : parseSyn c p = some (some (src, dst, isn))) :
    dst.port = .ofNat 16 (at16 (segment p) 2) := by
  unfold parseSyn at h
  by_cases hne : p = []
  · rw [if_pos hne] at h
    cases h
  rw [if_neg hne, field8_version hne] at h
  change (if version p = 4 then _ else if version p = 6 then _ else _) = _ at h
  by_cases hv : version p = 4
  · rw [if_pos hv] at h
    unfold parseIpv4Syn at h
    split at h
    · cases h
    obtain ⟨protocol, -, h⟩ := Option.bind_eq_some_iff.1 h
    split at h
    · cases h
    obtain ⟨srcBytes, -, h⟩ := Option.bind_eq_some_iff.1 h
    obtain ⟨dstBytes, -, h⟩ := Option.bind_eq_some_iff.1 h
    obtain ⟨l4, hl4, h⟩ := Option.bind_eq_some_iff.1 h
    rw [port_of_synParts h, eq_of_slice hl4, segment, ipHeaderLen, ipTotalLen, if_pos hv, if_pos hv]
  · rw [if_neg hv] at h
    split at h
    · unfold parseIpv6Syn at h
      split at h
      · cases h
      obtain ⟨srcBytes, -, h⟩ := Option.bind_eq_some_iff.1 h
      obtain ⟨dstBytes, -, h⟩ := Option.bind_eq_some_iff.1 h
      obtain ⟨nextHeader, hnext, h⟩ := Option.bind_eq_some_iff.1 h
      obtain ⟨payload, hpayload, h⟩ := Option.bind_eq_some_iff.1 h
      obtain ⟨skipped, hskip, h⟩ := Option.bind_eq_some_iff.1 h
      -- The next header is that of TCP, so there are no options to skip.
      have hplain : nextHeader ≠ 0 := by
        rintro rfl
        rw [ipProtocol, if_neg hv, ← eq_of_field8 hnext] at hproto
        cases hproto
      rw [skipHopByHop, if_neg hplain, Option.some_inj] at hskip
      subst hskip
      change (if nextHeader ≠ 6 then _ else _) = _ at h
      split at h
      · cases h
      rw [port_of_synParts h, eq_of_slice hpayload, segment, ipHeaderLen, ipTotalLen, if_neg hv,
        if_neg hv]
    · cases h

/-- The destination lies in a packet that fits, behind its header. -/
theorem IpFits.dstFits {proto : IpProto} (h : IpFits p) (hl4 : L4Fits (segment p) proto) :
    DstFits p := by
  have hlen := hl4.length_le
  have hbounds := h.header_le
  rw [h.length_segment] at hlen
  rcases h with ⟨hv, -, hihl, -, -, hfrag⟩ | ⟨hv, -⟩
  · rw [ipHeaderLen, if_pos hv] at hlen hbounds
    exact .inl ⟨hv, hihl, by omega, hfrag⟩
  · have hne : version p ≠ 4 := by omega
    rw [ipHeaderLen, if_neg hne] at hlen hbounds
    exact .inr ⟨hv, by omega⟩

include hc in
/-- **The parsers agree** on every packet. -/
theorem parsersAgree (p : Packet) : ParsersAgree c p := by
  refine ⟨⟨_, parseIpDst_eq p⟩, ⟨_, parseIpPacketFull_eq hc p⟩, fun f hf ↦ ?_,
    fun f hf hv ↦ ?_, fun f hf ↦ ?_, fun f src dst isn hf htcp hsyn ↦ ?_⟩ <;>
    obtain ⟨hfits, proto, hproto, hl4, rfl⟩ := (parsed_iff hc).1 hf
  · have hlen := hl4.length_le
    rw [hfits.length_segment] at hlen
    rw [parseIpDst_eq, if_pos (hfits.dstFits hl4), hproto]
    simp only [parsedOf, Option.map_some, toNat_port]
    rw [segment, at16_part (by omega)]
  · rcases hfits with ⟨-, -, hihl, -⟩ | ⟨hv6, -⟩
    · exact hihl
    · omega
  · obtain ⟨after, hp⟩ := packet_split p
    obtain ⟨header, after', hsegment, hlength⟩ := hl4.split
    refine ⟨p.take (ipHeaderLen p) ++ header, after' ++ after, ?_, ?_⟩
    · have hpayload : (parsedOf p proto).payload = l4Payload (segment p) proto := rfl
      rw [hpayload]
      calc p = p.take (ipHeaderLen p) ++ segment p ++ after := hp
        _ = p.take (ipHeaderLen p) ++ (header ++ l4Payload (segment p) proto ++
        after') ++ after := by
          rw [← hsegment]
        _ = _ := by simp only [List.append_assoc]
    · have hbounds := hfits.header_le
      rw [List.length_append, hlength, List.length_take_of_le (by omega)]
      exact Nat.le_refl _
  · obtain rfl : proto = .tcp := htcp
    exact port_of_parseSyn hproto hsyn

end Agree

/-- The checks, as they are published. -/
def publishedChecks : WireChecks where
  ipv4 p := 20 ≤ p.length ∧ 20 ≤ ipv4HeaderLen p ∧ ipv4HeaderLen p ≤ ipv4TotalLen p ∧
    ipv4TotalLen p ≤ p.length
  ipv6 p := 40 ≤ p.length ∧ 40 + at16 p 4 ≤ p.length
  tcp p := 20 ≤ p.length ∧ 20 ≤ tcpHeaderLen p ∧ tcpHeaderLen p ≤ p.length
  udp p := 8 ≤ p.length ∧ 8 ≤ at16 p 4 ∧ at16 p 4 ≤ p.length
  ipv4Repr _ := true
  ipv6Repr _ := true
  extHeader _ := none

theorem published : publishedChecks.Published where
  ipv4 _ := decide_eq_true_iff
  ipv6 _ := decide_eq_true_iff
  tcp _ := decide_eq_true_iff
  udp _ := decide_eq_true_iff

/-- A packet of TCP from the source address and with the first byte that are given. -/
def samplePacket (first : UInt8) (source : Packet) : Packet :=
  first :: [0, 0, 40, 0, 0, 0, 0, 64, 6, 0, 0] ++ source ++ [192, 0, 2, 1] ++
    [0, 80, 0, 80, 0, 0, 0, 1, 0, 0, 0, 0, 0x50, 2, 0, 0, 0, 0, 0, 0]

/-- A SYN is read alike by all three, to the same port. -/
theorem parsersAgree_sample : ParsersAgree publishedChecks (samplePacket 0x45 [10, 0, 0, 2]) ∧
    parseIpDst (samplePacket 0x45 [10, 0, 0, 2]) = some (some (80, .tcp)) :=
  ⟨parsersAgree published _, by decide⟩

end Hole.Tun
