import Hole.Effect.Framing

/-!
# UDP over a stream

The framing of `galoshes` (`crates/galoshes/src/yamux.rs`): a datagram is sent as two bytes with its
length, the high one first, and then its payload. Both relays push what a read brought into a
`FrameAccumulator` and send on every datagram that is complete.
-/

open Effect

namespace Hole.Galoshes

/-- A payload as Rust has it. -/
abbrev Bytes := List UInt8

/-- `u16::to_be_bytes`. -/
def toBeBytes (n : UInt16) : Bytes := [.ofNat (n.toNat / 256), .ofNat n.toNat]

/-- `u16::from_be_bytes`. -/
def fromBeBytes (high low : UInt8) : UInt16 := .ofNat (high.toNat * 256 + low.toNat)

/-- `frame_udp_datagram`. -/
def frameUdpDatagram (payload : Bytes) : Bytes := toBeBytes payload.length.toUInt16 ++ payload

/-- `deframe_udp_datagram`. -/
def deframeUdpDatagram : Bytes → Option (Bytes × Bytes)
  | high :: low :: rest =>
    let len := (fromBeBytes high low).toNat
    if rest.length < len then none else some (rest.take len, rest.drop len)
  | _ => none

/-! ### One frame -/

theorem fromBeBytes_ofNat (n : UInt16) :
    fromBeBytes (.ofNat (n.toNat / 256)) (.ofNat n.toNat) = n := by
  have hlt : n.toNat < 65536 := n.toNat_lt
  apply UInt16.toNat_inj.1
  rw [fromBeBytes, UInt16.toNat_ofNat', UInt8.toNat_ofNat', UInt8.toNat_ofNat']
  omega

theorem toBeBytes_fromBeBytes (high low : UInt8) :
    toBeBytes (fromBeBytes high low) = [high, low] := by
  have hhigh : high.toNat < 256 := high.toNat_lt
  have hlow : low.toNat < 256 := low.toNat_lt
  have hn : (fromBeBytes high low).toNat = high.toNat * 256 + low.toNat := by
    rw [fromBeBytes, UInt16.toNat_ofNat']
    omega
  have hfirst : UInt8.ofNat ((fromBeBytes high low).toNat / 256) = high := by
    apply UInt8.toNat_inj.1
    rw [hn, UInt8.toNat_ofNat']
    omega
  have hsecond : UInt8.ofNat (fromBeBytes high low).toNat = low := by
    apply UInt8.toNat_inj.1
    rw [hn, UInt8.toNat_ofNat']
    omega
  rw [toBeBytes, hfirst, hsecond]

/-- The length of a datagram that the prefix can hold is not cut off. -/
theorem toNat_toUInt16 {n : Nat} (h : n < 65536) : n.toUInt16.toNat = n := by
  rw [Nat.toUInt16_eq, UInt16.toNat_ofNat']
  omega

/-- A payload of the length that the prefix says has it as its frame. -/
theorem frame_of_length {high low : UInt8} {payload : Bytes}
    (h : payload.length = (fromBeBytes high low).toNat) :
    frameUdpDatagram payload = high :: low :: payload := by
  rw [frameUdpDatagram, h, Nat.toUInt16_eq, UInt16.ofNat_toNat, toBeBytes_fromBeBytes]
  rfl

/-- A datagram that the length prefix can hold comes back from its frame. -/
theorem deframe_frame {payload : Bytes} (h : payload.length < 65536) (rest : Bytes) :
    deframeUdpDatagram (frameUdpDatagram payload ++ rest) = some (payload, rest) := by
  have hlen : (fromBeBytes (.ofNat (payload.length.toUInt16.toNat / 256))
      (.ofNat payload.length.toUInt16.toNat)).toNat = payload.length := by
    rw [fromBeBytes_ofNat, toNat_toUInt16 h]
  have hshort : ¬(payload ++ rest).length < payload.length := by
    rw [List.length_append]
    omega
  simp only [frameUdpDatagram, toBeBytes, List.cons_append, List.nil_append,
    deframeUdpDatagram, hlen]
  rw [if_neg hshort, List.take_left, List.drop_left]

/-- What is deframed is a frame, whoever sent it. -/
theorem eq_of_deframe {buf payload rest : Bytes}
    (h : deframeUdpDatagram buf = some (payload, rest)) :
    buf = frameUdpDatagram payload ++ rest ∧ payload.length < 65536 := by
  unfold deframeUdpDatagram at h
  split at h
  · next high low rest' =>
    obtain hshort | henough := Nat.lt_or_ge rest'.length (fromBeBytes high low).toNat
    · rw [if_pos hshort] at h
      cases h
    · rw [if_neg (Nat.not_lt.2 henough)] at h
      cases h
      have hlen : (rest'.take (fromBeBytes high low).toNat).length = (fromBeBytes high low).toNat :=
        List.length_take_of_le henough
      refine ⟨?_, Nat.lt_of_le_of_lt (Nat.le_of_eq hlen) (UInt16.toNat_lt _)⟩
      rw [frame_of_length hlen, List.cons_append, List.cons_append, List.take_append_drop]
  · cases h

/-- What no datagram can be taken off is the beginning of a frame, and not all of it. -/
theorem prefix_of_deframe_none {buf : Bytes} (h : deframeUdpDatagram buf = none) :
    ∃ payload missing, payload.length < 65536 ∧ missing ≠ [] ∧
      buf ++ missing = frameUdpDatagram payload := by
  -- What follows the prefix may be anything, so the payload is made up of zeros.
  have hpad (high low : UInt8) (rest : Bytes) (hle : rest.length ≤ (fromBeBytes high low).toNat) :
      ∃ zeros : Bytes, rest.length + zeros.length = (fromBeBytes high low).toNat ∧
        (rest ++ zeros).length < 65536 ∧
        high :: low :: (rest ++ zeros) = frameUdpDatagram (rest ++ zeros) := by
    have hlen : (rest ++ List.replicate ((fromBeBytes high low).toNat - rest.length) 0).length =
        (fromBeBytes high low).toNat := by
      rw [List.length_append, List.length_replicate]
      omega
    have hlt := Nat.lt_of_le_of_lt (Nat.le_of_eq hlen) (UInt16.toNat_lt _)
    exact ⟨_, List.length_append.symm.trans hlen, hlt, (frame_of_length hlen).symm⟩
  match buf with
  | [] => exact ⟨[], frameUdpDatagram [], by decide, by decide, rfl⟩
  | [high] =>
    obtain ⟨zeros, -, hlt, hframe⟩ := hpad high 0 [] (Nat.zero_le _)
    exact ⟨zeros, 0 :: zeros, hlt, List.cons_ne_nil _ _, hframe⟩
  | high :: low :: rest =>
    obtain hshort | henough := Nat.lt_or_ge rest.length (fromBeBytes high low).toNat
    · obtain ⟨zeros, hlen, hlt, hframe⟩ := hpad high low rest (Nat.le_of_lt hshort)
      refine ⟨rest ++ zeros, zeros, hlt, fun hnone ↦ ?_, hframe⟩
      rw [hnone, List.length_nil] at hlen
      omega
    · rw [deframeUdpDatagram, if_neg (Nat.not_lt.2 henough)] at h
      cases h

/-- The datagrams of a stream. -/
def udpFraming : Framing UInt8 Bytes where
  next := deframeUdpDatagram
  next_length h := by
    rw [(eq_of_deframe h).1, frameUdpDatagram, List.length_append, List.length_append, toBeBytes,
      List.length_cons]
    omega
  next_append h ys := by
    obtain ⟨rfl, hlt⟩ := eq_of_deframe h
    rw [List.append_assoc, deframe_frame hlt]

/-! ### The accumulator -/

/-- `FrameAccumulator`. -/
structure FrameAccumulator where
  buf : Bytes

namespace FrameAccumulator

variable (acc : FrameAccumulator)

/-- `FrameAccumulator::new`. -/
def new : FrameAccumulator := ⟨[]⟩

/-- `FrameAccumulator::push`. -/
def push (data : Bytes) : FrameAccumulator := ⟨acc.buf ++ data⟩

/-- `FrameAccumulator::next_frame`. -/
def nextFrame : Option (Bytes × FrameAccumulator) :=
  match deframeUdpDatagram acc.buf with
  | some (payload, rest) => some (payload, ⟨acc.buf.drop (acc.buf.length - rest.length)⟩)
  | none => none

/-- The bytes that are dropped are those before the rest. -/
theorem nextFrame_eq (buf : Bytes) :
    nextFrame ⟨buf⟩ = (deframeUdpDatagram buf).map fun r ↦ (r.1, ⟨r.2⟩) := by
  unfold nextFrame
  cases h : deframeUdpDatagram buf with
  | none => rfl
  | some r =>
    have hrest : buf.drop (buf.length - r.2.length) = r.2 := by
      rw [(eq_of_deframe h).1, List.length_append, Nat.add_sub_cancel, List.drop_left]
    simp only [hrest, Option.map_some]

theorem nextFrame_length {acc acc' : FrameAccumulator} {payload : Bytes}
    (h : acc.nextFrame = some (payload, acc')) : acc'.buf.length < acc.buf.length := by
  rw [nextFrame_eq] at h
  obtain ⟨r, hr, heq⟩ := Option.map_eq_some_iff.1 h
  cases heq
  exact udpFraming.next_length hr

/-- `while let Some(payload) = acc.next_frame()`. -/
def drain (acc : FrameAccumulator) : List Bytes × FrameAccumulator :=
  match h : acc.nextFrame with
  | none => ([], acc)
  | some (payload, acc') =>
    have := nextFrame_length h
    let r := acc'.drain
    (payload :: r.1, r.2)
termination_by acc.buf.length

theorem drain_none {acc : FrameAccumulator} (h : acc.nextFrame = none) : acc.drain = ([], acc) := by
  rw [drain]
  split
  · rfl
  · next hsome => exact absurd (h.symm.trans hsome) nofun

theorem drain_some {acc acc' : FrameAccumulator} {payload : Bytes}
    (h : acc.nextFrame = some (payload, acc')) :
    acc.drain = (payload :: acc'.drain.1, acc'.drain.2) := by
  rw [drain]
  split
  · next hnone => exact absurd (h.symm.trans hnone) nofun
  · next hsome =>
    obtain ⟨rfl, rfl⟩ := Prod.mk.inj (Option.mem_unique h hsome)
    rfl

/-- The loop drains the bytes. -/
theorem drain_eq (buf : Bytes) :
    drain ⟨buf⟩ = ((udpFraming.drain buf).1, ⟨(udpFraming.drain buf).2⟩) := by
  induction buf using udpFraming.drain_induction with
  | stuck buf h =>
    have hnext : nextFrame ⟨buf⟩ = none := (nextFrame_eq buf).trans (Option.map_eq_none_iff.2 h)
    rw [drain_none hnext, Framing.drain_none h]
  | frame buf payload rest h ih =>
    have hnext : nextFrame ⟨buf⟩ = some (payload, ⟨rest⟩) :=
      (nextFrame_eq buf).trans (Option.map_eq_some_iff.2 ⟨_, h, rfl⟩)
    rw [drain_some hnext, Framing.drain_some h, ih]

end FrameAccumulator

/-! ### A relay -/

/-- The loop of `relay_udp_server` and `run_udp_association` after a read: the datagrams sent on so
far, and the accumulator. -/
def relayRead (s : List Bytes × FrameAccumulator) (read : Bytes) : List Bytes × FrameAccumulator :=
  let r := (s.2.push read).drain
  (s.1 ++ r.1, r.2)

/-- All reads. -/
def relay (reads : List Bytes) : List Bytes × FrameAccumulator := reads.foldl relayRead ([], .new)

/-- The relay feeds the reads to the framing. -/
theorem relay_eq (reads : List Bytes) :
    relay reads = ((udpFraming.drain reads.flatten).1, ⟨(udpFraming.drain reads.flatten).2⟩) := by
  have hfeed (s : List Bytes × Bytes) : reads.foldl relayRead (s.1, ⟨s.2⟩) =
      ((reads.foldl udpFraming.feed s).1, ⟨(reads.foldl udpFraming.feed s).2⟩) := by
    induction reads generalizing s with
    | nil => rfl
    | cons read reads ih =>
      have hread : relayRead (s.1, ⟨s.2⟩) read =
          ((udpFraming.feed s read).1, ⟨(udpFraming.feed s read).2⟩) := by
        rw [relayRead, FrameAccumulator.push, FrameAccumulator.drain_eq]
        rfl
      rw [List.foldl_cons, List.foldl_cons, hread, ih]
  have hall := udpFraming.feedAll_eq rfl reads
  rw [← hall]
  exact hfeed ([], [])

/-- What a relay makes of the reads of a stream. -/
structure Transparent (reads : List Bytes) : Prop where
  /-- No datagram waits that is complete. -/
  stops : (relay reads).2.nextFrame = none
  /-- Nothing is lost, added or moved, whatever came. -/
  all : (relay reads).1.flatMap frameUdpDatagram ++ (relay reads).2.buf = reads.flatten
  left : ∃ payload missing, payload.length < 65536 ∧ missing ≠ [] ∧
    (relay reads).2.buf ++ missing = frameUdpDatagram payload
  bounded : (relay reads).2.buf.length < 65537
  datagrams : ∀ datagrams, (∀ d ∈ datagrams, d.length ≤ 65535) →
    reads.flatten = datagrams.flatMap frameUdpDatagram → relay reads = (datagrams, .new)
  /-- While datagrams come, what is left is the beginning of the next. -/
  waits : ∀ later datagrams, (∀ d ∈ datagrams, d.length ≤ 65535) →
    (reads ++ later).flatten = datagrams.flatMap frameUdpDatagram →
      ∃ waiting, datagrams = (relay reads).1 ++ waiting ∧
        (relay reads).2.buf ++ later.flatten = waiting.flatMap frameUdpDatagram ∧
        ∀ d more, waiting = d :: more →
          ∃ missing, missing ≠ [] ∧ (relay reads).2.buf ++ missing = frameUdpDatagram d

theorem length_frame (payload : Bytes) :
    (frameUdpDatagram payload).length = payload.length + 2 := by
  rw [frameUdpDatagram, List.length_append, toBeBytes]
  exact Nat.add_comm 2 _

/-- **A relay sends on the datagrams of the stream, however the reads cut it.** -/
theorem relay_transparent (reads : List Bytes) : Transparent reads := by
  have hleft : deframeUdpDatagram (relay reads).2.buf = none := by
    rw [relay_eq]
    exact udpFraming.next_drain reads.flatten
  have hsound : ∀ xs payload rest, udpFraming.next xs = some (payload, rest) →
      xs = frameUdpDatagram payload ++ rest := fun _ _ _ h ↦ (eq_of_deframe h).1
  have hcomplete {datagrams : List Bytes} (h : ∀ d ∈ datagrams, d.length ≤ 65535) :
      ∀ d ∈ datagrams, ∀ xs, udpFraming.next (frameUdpDatagram d ++ xs) = some (d, xs) :=
    fun d hd xs ↦ deframe_frame (Nat.lt_succ_of_le (h d hd)) xs
  obtain ⟨payload, missing, hlt, hmissing, hframe⟩ := prefix_of_deframe_none hleft
  exact {
    stops := (FrameAccumulator.nextFrame_eq _).trans (Option.map_eq_none_iff.2 hleft)
    all := by
      rw [relay_eq]
      exact Framing.encode_drain hsound reads.flatten
    left := ⟨payload, missing, hlt, hmissing, hframe⟩
    bounded := by
      have hlen := congrArg List.length hframe
      have hpos := List.length_pos_iff.2 hmissing
      rw [List.length_append, length_frame] at hlen
      omega
    datagrams := fun datagrams h heq ↦ by
      have hdrain := Framing.drain_encode (hcomplete h) []
      have hnil : udpFraming.drain [] = ([], []) := Framing.drain_none rfl
      rw [hnil, List.append_nil, List.append_nil, ← heq] at hdrain
      rw [relay_eq, hdrain]
      rfl
    waits := fun later datagrams h heq ↦ by
      rw [List.flatten_append] at heq
      rw [relay_eq]
      exact Framing.drain_of_prefix hsound (hcomplete h) rfl heq }

end Hole.Galoshes
