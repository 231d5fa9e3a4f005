import Hole.Tun.TcpFlow

/-!
# Half-close

When the client has sent its FIN, the Router's reads end once the connection leaves the driver's
map, since the end of the stream is the end of the channel. `decide_disposal` lets it leave in the
states in which both sides are done. A client that has finished while the Router has not is in
`CloseWait`.
-/

namespace Hole.Tun

namespace Flow

variable (s : Flow)

/-- The Router reads all that it was handed. -/
def readAll : Flow :=
  { s with
    read := s.read ++ s.readBuf ++ s.toHandler.flatten
    readBuf := []
    toHandler := [] }

/-- The Router's next read, after what it was handed, reports the end of the stream. -/
def Reports : Prop := ∀ cap, (s.readAll.pollRead cap).1 = .eof

end Flow

/-- Both halves of a close. -/
structure HalfCloses (s : Flow) : Prop where
  /-- After a pass that has handed over every byte before the client's FIN, the Router reads the end
  exactly if the client has acknowledged our FIN, or the connection is dead. -/
  eof : s.connected → s.finReceived → s.socket.rx = [] →
    ((s.step .cleanup).Reports ↔ s.finAcknowledged ∨ s.aborted)
  /-- Once the Router has shut down and its bytes are sent, the FIN goes. -/
  fin : s.connected → s.writing = false → s.pendingSend = [] → s.fromHandler = [] →
    s.socket.canSend → ∀ piece, (s.step (.relay piece)).socket.state.finSent
  /-- After it, client bytes still go to the Router. -/
  flows : s.connected → s.socket.state = .finWait1 ∨ s.socket.state = .finWait2 → s.reading →
    s.toHandler.length < channelCapacity → ∀ bytes ≠ [], ∀ piece, 0 < piece →
      ((s.step (.poll [.data bytes])).step (.relay piece)).toHandler =
        s.toHandler ++ [(s.socket.rx ++ bytes).take piece]

section HalfClose

variable {s : Flow}

/-- The end of the stream is the end of the channel. -/
theorem reports_iff : s.Reports ↔ s.connected = false := by
  have hnext (cap : Nat) : (s.readAll.pollRead cap).1 = if s.connected then .pending else .eof := by
    simp only [Flow.pollRead, Flow.readAll]
    by_cases hconnected : s.connected = true <;> simp [hconnected]
  constructor
  · intro h
    have hzero := h 0
    rw [hnext] at hzero
    cases hconnected : s.connected with
    | false => rfl
    | true =>
      rw [hconnected] at hzero
      cases hzero
  · intro h cap
    rw [hnext, h]
    rfl

/-- What the state of the socket says of the two FINs. -/
def Consistent (s : Flow) : Prop :=
  match s.socket.state with
  | .closed => s.finAcknowledged ∨ s.aborted
  | .listen => s.aborted
  | .synSent => False
  | .timeWait => s.finAcknowledged
  | .closeWait | .closing | .lastAck => ¬s.finAcknowledged ∧ ¬s.aborted
  | .synReceived | .established | .finWait1 => ¬s.finAcknowledged ∧ ¬s.finReceived ∧ ¬s.aborted
  | .finWait2 => s.finAcknowledged ∧ ¬s.finReceived ∧ ¬s.aborted

theorem consistent_admitted (room : Nat) : Consistent (.admitted room) := ⟨nofun, nofun, nofun⟩

theorem Consistent.event (h : Consistent s) (e : TcpEvent) : Consistent (s.event e) := by
  cases e <;> simp only [Flow.event] <;> unfold Consistent at h ⊢ <;>
    cases hstate : s.socket.state <;> simp_all [Flow.become, TcpState.receives]

theorem Consistent.poll (h : Consistent s) (events : List TcpEvent) : Consistent
    (s.poll events) := by
  induction events generalizing s with
  | nil => exact h
  | cons e events ih => exact ih (h.event e)

/-- What the driver takes from the socket changes nothing else. -/
theorem toRouter_eq (piece : Nat) :
    ∃ rx toHandler, s.toRouter piece =
      { s with socket := { s.socket with rx := rx }, toHandler := toHandler } := by
  unfold Flow.toRouter
  split
  · dsimp only
    split
    · exact ⟨_, _, rfl⟩
    · split <;> exact ⟨_, _, rfl⟩
  · exact ⟨_, _, rfl⟩

theorem Consistent.relay (h : Consistent s) (piece : Nat) : Consistent (s.relay piece) := by
  have hrouter : Consistent (s.toRouter piece) := by
    obtain ⟨rx, toHandler, heq⟩ := toRouter_eq (s := s) piece
    rw [heq]
    exact h
  unfold Flow.relay
  dsimp only
  split
  · generalize s.toRouter piece = r at hrouter
    have hframe : SendFrame r (r.sendPending.sendWritten r.sendPending.fromHandler) :=
      sendPending_frame.trans (sendWritten_frame _)
    unfold Consistent at hrouter ⊢
    rw [hframe.finReceived, hframe.finAcknowledged, hframe.aborted]
    obtain hsame | ⟨hmay, hclose, -, -, -⟩ := sendWritten_state r.sendPending.fromHandler
    · rw [hsame, sendPending_socket.1]
      exact hrouter
    · rw [sendPending_socket.1] at hmay hclose
      rw [hclose]
      cases hstate : r.socket.state <;> rw [hstate] at hmay hrouter <;> cases hmay
      · exact hrouter
      · exact hrouter
  · exact hrouter

theorem Consistent.step (h : Consistent s) (label : FlowLabel) : Consistent (s.step label) := by
  cases label with
  | poll events =>
    simp only [Flow.step]
    split
    · exact h.poll events
    · exact h
  | relay piece =>
    simp only [Flow.step]
    split
    · exact h.relay piece
    · exact h
  | cleanup =>
    simp only [Flow.step, Flow.cleanup]
    split
    · split <;> exact h
    · exact h
  | teardown =>
    simp only [Flow.step]
    split <;> exact h
  | peek n =>
    simp only [Flow.step, Flow.peek]
    split
    · split
      · split <;> exact h
      · exact h
    · exact h
  | read cap =>
    simp only [Flow.step]
    split
    · obtain ⟨_, _, _, heq, -⟩ | heq | ⟨-, -, -, -, heq⟩ := pollRead_cases (s := s) cap
      · rw [heq]
        exact h
      · rwa [heq]
      · rw [heq]
        exact h
    · exact h
  | write bytes =>
    simp only [Flow.step, Flow.write]
    split <;> exact h
  | shutdown => exact h
  | drop => exact h

theorem Consistent.run (h : Consistent s) (labels : List FlowLabel) : Consistent
    (s.run labels) := by
  induction labels generalizing s with
  | nil => exact h
  | cons label labels ih => exact ih (h.step label)

/-- A connection whose client has finished leaves the map if ours is acknowledged, or it is dead. -/
theorem Consistent.disposal_iff (h : Consistent s) (hfin : s.finReceived = true) :
    (decideDisposal s.socket.state).isSome ↔ s.finAcknowledged ∨ s.aborted := by
  unfold Consistent at h
  cases hstate : s.socket.state <;> rw [hstate] at h <;> simp_all [decideDisposal]

theorem close_finSent {state : TcpState} (h : state.maySend) : state.close.finSent := by
  cases state <;> cases h <;> rfl

theorem Consistent.halfCloses (h : Consistent s) : HalfCloses s where
  eof hconnected hfin _ := by
    rw [reports_iff, ← h.disposal_iff hfin]
    simp only [Flow.step, hconnected, if_true, Flow.cleanup]
    by_cases hfinished : (decideDisposal s.socket.state).isSome
    · rw [if_pos hfinished]
      exact ⟨fun _ ↦ hfinished, fun _ ↦ rfl⟩
    · rw [if_neg hfinished, hconnected]
      exact ⟨(by rintro ⟨⟩), fun hsome ↦ absurd hsome hfinished⟩
  fin hconnected hwriting hpending hqueue hcan piece := by
    obtain ⟨rx, toHandler, heq⟩ := toRouter_eq (s := s) piece
    obtain ⟨hmay, -⟩ := Bool.and_eq_true_iff.1 hcan
    have hcan' : Socket.canSend { s.socket with rx := rx } = true := hcan
    have hclosed : (s.step (.relay piece)).socket.state = s.socket.state.close := by
      simp only [Flow.step, hconnected, if_true, Flow.relay, heq, hmay, Flow.sendPending, hpending,
        ne_eq, not_true, false_and, if_false, hqueue, Flow.sendWritten, hcan', hwriting]
      simp [Flow.become]
    rw [hclosed]
    exact close_finSent hmay
  flows hconnected hstate hreading hroom bytes hbytes piece hpiece := by
    have hreceives : s.socket.state.receives = true := by
      obtain h | h := hstate <;> rw [h] <;> rfl
    have hmay : s.socket.state.maySend = false := by
      obtain h | h := hstate <;> rw [h] <;> rfl
    have hpoll : s.step (.poll [.data bytes]) =
        { s with
          socket := { s.socket with rx := s.socket.rx ++ bytes }
          delivered := s.delivered ++ bytes } := by
      simp [Flow.step, hconnected, Flow.poll, Flow.event, hreceives]
    have hpieces : (s.socket.rx ++ bytes).take piece ≠ [] := by
      rw [Ne, List.take_eq_nil_iff, not_or]
      exact ⟨Nat.ne_of_gt hpiece, List.append_ne_nil_of_right_ne_nil _ hbytes⟩
    rw [hpoll]
    simp only [Flow.step, hconnected, if_true, Flow.relay, Flow.toRouter, Socket.mayRecv, hreceives,
      Bool.true_or, if_neg hpieces, hreading, true_and, if_pos hroom, hmay]
    rfl

end HalfClose

/-- **How a half-close ends**, in every run. -/
theorem halfCloses_run (room : Nat) (labels : List FlowLabel) :
    HalfCloses ((Flow.admitted room).run labels) :=
  ((consistent_admitted room).run labels).halfCloses

/-- A client that is done before the Router is not reported. -/
theorem closeWait_unreported :
    ¬∀ room labels, (Flow.run (.admitted room) labels).connected →
      (Flow.run (.admitted room) labels).finReceived →
        (Flow.run (.admitted room) labels).socket.rx = [] →
          ((Flow.run (.admitted room) labels).step .cleanup).Reports := by
  intro h
  have hreports := h 1 [.poll [.handshake, .data [1], .fin], .relay 1] (by decide) (by decide)
    (by decide)
  exact absurd (reports_iff.1 hreports) (by decide)

end Hole.Tun
