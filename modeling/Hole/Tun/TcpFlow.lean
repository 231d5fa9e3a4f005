import Mathlib.Data.List.Basic

/-!
# A TCP connection of the engine

The data pump of the TUN driver (`crates/tun-engine/src/engine/driver.rs`) and the `TcpFlow` that
the Router has (`tcp_flow.rs`), for one connection. The driver moves bytes between the socket of
smoltcp and two channels. On their way to the Router they wait in the receive buffer of the socket,
in a channel and in `read_buf`; on their way to the client, in a channel and in `pending_send`.

smoltcp's turn is a list of what it makes of the packets and timers: it appends client bytes to the
receive buffer, changes the state of the socket, and makes room in the transmit buffer. It hands out
of the receive buffer what lies in one piece there, which may be less than all of it.
-/

namespace Hole.Tun

/-- Bytes of a stream. -/
abbrev Bytes := List UInt8

/-! ### The socket -/

/-- `tcp::State`. -/
inductive TcpState
  | closed
  | listen
  | synSent
  | synReceived
  | established
  | finWait1
  | finWait2
  | closeWait
  | closing
  | lastAck
  | timeWait
  deriving DecidableEq

namespace TcpState

/-- `tcp::Socket::may_send`. -/
def maySend : TcpState → Bool
  | established | closeWait => true
  | _ => false

/-- Client bytes may still come. -/
def receives : TcpState → Bool
  | established | finWait1 | finWait2 => true
  | _ => false

/-- `tcp::Socket::close`. -/
def close : TcpState → TcpState
  | listen | synSent => closed
  | synReceived | established => finWait1
  | closeWait => lastAck
  | s => s

end TcpState

/-- `Disposal`. -/
inductive Disposal
  | retire
  | remove

/-- `decide_disposal`. -/
def decideDisposal : TcpState → Option Disposal
  | .closed | .listen => some .retire
  | .timeWait => some .remove
  | _ => none

/-- A socket of smoltcp. -/
structure Socket where
  state : TcpState
  rx : Bytes
  /-- What the transmit buffer has room for. -/
  room : Nat

namespace Socket

variable (k : Socket)

/-- `tcp::Socket::may_recv`. -/
def mayRecv : Bool := k.state.receives || !k.rx.isEmpty

/-- `tcp::Socket::can_send`. -/
def canSend : Bool := k.state.maySend && 0 < k.room

end Socket

/-- What smoltcp makes of a packet or a timer. -/
inductive TcpEvent
  | handshake
  | data (bytes : Bytes)
  | fin
  | finAcked
  | acked (n : Nat)
  | reset
  | timeout

/-! ### The connection -/

/-- `CHANNEL_CAPACITY`. -/
def channelCapacity : Nat := 64

/-- A connection, and what has gone through it. -/
structure Flow where
  socket : Socket
  connected : Bool
  pendingSend : Bytes
  toHandler : List Bytes
  fromHandler : List Bytes
  readBuf : Bytes
  writing : Bool
  reading : Bool
  /-- The client bytes that smoltcp put into the receive buffer. -/
  delivered : Bytes
  read : Bytes
  /-- A read has reported the end of the stream. -/
  ended : Bool
  written : Bytes
  sent : Bytes
  finReceived : Bool
  finAcknowledged : Bool
  aborted : Bool

/-- What a read gives. -/
inductive ReadResult
  | data (bytes : Bytes)
  | eof
  | pending

/-- What happens. -/
inductive FlowLabel
  | poll (events : List TcpEvent)
  /-- `relay_tcp_data`, where so much of the receive buffer lies in one piece. -/
  | relay (piece : Nat)
  /-- `cleanup_finished_connections`. -/
  | cleanup
  /-- The connection is superseded, or the driver ends. -/
  | teardown
  /-- One turn of the loop of `peek`. -/
  | peek (n : Nat)
  | read (cap : Nat)
  | write (bytes : Bytes)
  | shutdown
  | drop

namespace Flow

variable (s : Flow)

/-- An admitted connection, whose SYN-ACK is about to leave. -/
def admitted (room : Nat) : Flow where
  socket := ⟨.synReceived, [], room⟩
  connected := true
  pendingSend := []
  toHandler := []
  fromHandler := []
  readBuf := []
  writing := true
  reading := true
  delivered := []
  read := []
  ended := false
  written := []
  sent := []
  finReceived := false
  finAcknowledged := false
  aborted := false

/-- The socket after a change of its state. -/
def become (state : TcpState) : Flow := { s with socket := { s.socket with state := state } }

/-- An event, as smoltcp processes it. -/
def event : TcpEvent → Flow
  | .handshake => if s.socket.state = .synReceived then s.become .established else s
  | .data bytes =>
    if s.socket.state.receives then
      { s with
        socket := { s.socket with rx := s.socket.rx ++ bytes }
        delivered := s.delivered ++ bytes }
    else s
  | .fin =>
    match s.socket.state with
    | .synReceived | .established => { s.become .closeWait with finReceived := true }
    | .finWait1 => { s.become .closing with finReceived := true }
    | .finWait2 => { s.become .timeWait with finReceived := true }
    | _ => s
  | .finAcked =>
    match s.socket.state with
    | .finWait1 => { s.become .finWait2 with finAcknowledged := true }
    | .closing => { s.become .timeWait with finAcknowledged := true }
    | .lastAck => { s.become .closed with finAcknowledged := true }
    | _ => s
  | .acked n => { s with socket := { s.socket with room := s.socket.room + n } }
  | .reset =>
    if s.socket.state = .synReceived then { s.become .listen with aborted := true }
    else { s.become .closed with aborted := true }
  | .timeout => { s.become .closed with aborted := true }

/-- smoltcp's turn. -/
def poll (events : List TcpEvent) : Flow := events.foldl event s

/-- From the socket to the Router. -/
def toRouter (piece : Nat) : Flow :=
  if s.socket.mayRecv then
    let buf := s.socket.rx.take piece
    if buf = [] then s
    else if s.reading ∧ s.toHandler.length < channelCapacity then
      { s with
        socket := { s.socket with rx := s.socket.rx.drop buf.length }
        toHandler := s.toHandler ++ [buf] }
    else s
  else s

/-- `send_slice`, and what it leaves of the bytes. -/
def sendSlice (bytes : Bytes) : Flow :=
  let n := min bytes.length s.socket.room
  { s with
    socket := { s.socket with room := s.socket.room - n }
    sent := s.sent ++ bytes.take n
    pendingSend := bytes.drop n }

/-- The remainder of an earlier `send_slice`. -/
def sendPending : Flow :=
  if s.pendingSend ≠ [] ∧ s.socket.canSend then s.sendSlice s.pendingSend else s

/-- The loop over what the Router wrote. -/
def sendWritten (s : Flow) : List Bytes → Flow
  | [] =>
    if s.pendingSend = [] ∧ s.socket.canSend ∧ ¬s.writing then
      { s.become s.socket.state.close with fromHandler := [] }
    else { s with fromHandler := [] }
  | data :: rest =>
    if s.pendingSend = [] ∧ s.socket.canSend then sendWritten (s.sendSlice data) rest
    else { s with fromHandler := data :: rest }

/-- `relay_tcp_data`. -/
def relay (piece : Nat) : Flow :=
  let s := s.toRouter piece
  if s.socket.state.maySend then
    let s := s.sendPending
    s.sendWritten s.fromHandler
  else s

/-- The driver drops the connection, and with it both ends of the channels. -/
def dispose : Flow := { s with connected := false, pendingSend := [], fromHandler := [] }

/-- `cleanup_finished_connections`. -/
def cleanup : Flow := if (decideDisposal s.socket.state).isSome then s.dispose else s

/-- One turn of the loop of `peek`. -/
def peek (n : Nat) : Flow :=
  if s.readBuf.length < n then
    match s.toHandler with
    | data :: rest => { s with readBuf := s.readBuf ++ data, toHandler := rest }
    | [] => s
  else s

/-- What `peek` returns after its last turn. -/
def peeked (n : Nat) : Bytes := s.readBuf.take n

/-- `poll_read`. -/
def pollRead (cap : Nat) : ReadResult × Flow :=
  if s.readBuf ≠ [] then
    (.data (s.readBuf.take cap),
      { s with read := s.read ++ s.readBuf.take cap, readBuf := s.readBuf.drop cap })
  else
    match s.toHandler with
    | data :: rest =>
      (.data (data.take cap),
        { s with read := s.read ++ data.take cap, readBuf := data.drop cap, toHandler := rest })
    | [] => if s.connected then (.pending, s) else (.eof, { s with ended := true })

/-- `poll_write`. -/
def write (bytes : Bytes) : Flow :=
  if bytes ≠ [] ∧ s.writing ∧ s.connected ∧ s.fromHandler.length < channelCapacity then
    { s with fromHandler := s.fromHandler ++ [bytes], written := s.written ++ bytes }
  else s

/-- One step. What the driver does, it does to the connections in its map, and what the Router does,
with the flow that it has. -/
def step : FlowLabel → Flow
  | .poll events => if s.connected then s.poll events else s
  | .relay piece => if s.connected then s.relay piece else s
  | .cleanup => if s.connected then s.cleanup else s
  | .teardown => if s.connected then s.dispose else s
  | .peek n => if s.reading then s.peek n else s
  | .read cap => if s.reading then (s.pollRead cap).2 else s
  | .write bytes => s.write bytes
  | .shutdown => { s with writing := false }
  | .drop => { s with writing := false, reading := false, readBuf := [], toHandler := [] }

/-- A run. -/
def run (labels : List FlowLabel) : Flow := labels.foldl step s

end Flow

/-! ### What a connection keeps -/

/-- Our FIN has been sent. -/
def TcpState.finSent : TcpState → Bool
  | finWait1 | finWait2 | closing | lastAck | timeWait => true
  | _ => false

/-- No byte is lost, doubled or moved on its way, in either direction. -/
structure Intact (s : Flow) : Prop where
  received : s.reading → s.read ++ s.readBuf ++ s.toHandler.flatten ++ s.socket.rx = s.delivered
  /-- The end of the stream comes after all of it. -/
  ended : s.ended → s.read = s.delivered
  sent : s.sent ++ s.pendingSend ++ s.fromHandler.flatten = s.written
  /-- So does the FIN. -/
  closed : s.socket.state.finSent → ¬s.writing ∧ s.sent = s.written
  peek : ∀ n, (s.peek n).read = s.read ∧
    (s.peek n).readBuf ++ (s.peek n).toHandler.flatten = s.readBuf ++ s.toHandler.flatten ∧
    s.peeked n <+: s.readBuf ++ s.toHandler.flatten

/-- Nothing waits to be passed on by the driver. -/
def Flow.Idle (s : Flow) : Prop :=
  (s.reading → s.socket.rx = []) ∧ s.pendingSend = [] ∧ s.fromHandler = []

instance (s : Flow) : Decidable s.Idle := inferInstanceAs (Decidable (_ ∧ _))

/-- A connection leaves the map only when nothing waits. -/
def Flow.Clean (s : Flow) : FlowLabel → Prop
  | .cleanup => s.connected → (decideDisposal s.socket.state).isSome → s.Idle
  | .teardown => s.connected → s.Idle
  | _ => True

instance (s : Flow) : (label : FlowLabel) → Decidable (s.Clean label)
  | .poll _ => .isTrue trivial
  | .relay _ => .isTrue trivial
  | .cleanup => inferInstanceAs (Decidable (_ → _))
  | .teardown => inferInstanceAs (Decidable (_ → _))
  | .peek _ => .isTrue trivial
  | .read _ => .isTrue trivial
  | .write _ => .isTrue trivial
  | .shutdown => .isTrue trivial
  | .drop => .isTrue trivial

/-- Every step of a run is clean. -/
def Flow.AllClean : Flow → List FlowLabel → Prop
  | _, [] => True
  | s, label :: labels => s.Clean label ∧ AllClean (s.step label) labels

instance : (s : Flow) → (labels : List FlowLabel) → Decidable (s.AllClean labels)
  | _, [] => .isTrue trivial
  | s, label :: labels =>
    have := instDecidableAllClean (s.step label) labels
    inferInstanceAs (Decidable (_ ∧ _))

/-- What the driver's sends leave as it is. -/
structure SendFrame (s s' : Flow) : Prop where
  rx : s'.socket.rx = s.socket.rx
  connected : s'.connected = s.connected
  toHandler : s'.toHandler = s.toHandler
  readBuf : s'.readBuf = s.readBuf
  writing : s'.writing = s.writing
  reading : s'.reading = s.reading
  delivered : s'.delivered = s.delivered
  read : s'.read = s.read
  ended : s'.ended = s.ended
  written : s'.written = s.written
  finReceived : s'.finReceived = s.finReceived
  finAcknowledged : s'.finAcknowledged = s.finAcknowledged
  aborted : s'.aborted = s.aborted

section Sends

variable {s s' s'' : Flow}

theorem SendFrame.refl : SendFrame s s := by constructor <;> rfl

theorem SendFrame.trans (h : SendFrame s s') (h' : SendFrame s' s'') : SendFrame s s'' where
  rx := h'.rx.trans h.rx
  connected := h'.connected.trans h.connected
  toHandler := h'.toHandler.trans h.toHandler
  readBuf := h'.readBuf.trans h.readBuf
  writing := h'.writing.trans h.writing
  reading := h'.reading.trans h.reading
  delivered := h'.delivered.trans h.delivered
  read := h'.read.trans h.read
  ended := h'.ended.trans h.ended
  written := h'.written.trans h.written
  finReceived := h'.finReceived.trans h.finReceived
  finAcknowledged := h'.finAcknowledged.trans h.finAcknowledged
  aborted := h'.aborted.trans h.aborted

theorem sendSlice_frame (bytes : Bytes) : SendFrame s (s.sendSlice bytes) := by constructor <;> rfl

/-- What is sent and what is left are what there was. -/
theorem sendSlice_bytes (bytes : Bytes) :
    (s.sendSlice bytes).sent ++ (s.sendSlice bytes).pendingSend = s.sent ++ bytes := by
  simp [Flow.sendSlice]

theorem sendPending_frame : SendFrame s s.sendPending := by
  unfold Flow.sendPending
  split
  · exact sendSlice_frame s.pendingSend
  · exact .refl

theorem sendPending_bytes :
    s.sendPending.sent ++ s.sendPending.pendingSend = s.sent ++ s.pendingSend := by
  unfold Flow.sendPending
  split
  · exact sendSlice_bytes s.pendingSend
  · rfl

theorem sendPending_socket : s.sendPending.socket.state = s.socket.state ∧
    s.sendPending.fromHandler = s.fromHandler := by
  unfold Flow.sendPending
  split <;> exact ⟨rfl, rfl⟩

theorem sendWritten_frame (queue : List Bytes) : SendFrame s (s.sendWritten queue) := by
  induction queue generalizing s with
  | nil =>
    unfold Flow.sendWritten
    split <;> constructor <;> rfl
  | cons data rest ih =>
    unfold Flow.sendWritten
    split
    · exact (sendSlice_frame data).trans ih
    · constructor <;> rfl

/-- The bytes of the queue follow those that were sent before, in order. -/
theorem sendWritten_bytes (queue : List Bytes) :
    (s.sendWritten queue).sent ++ (s.sendWritten queue).pendingSend ++
      (s.sendWritten queue).fromHandler.flatten = s.sent ++ s.pendingSend ++ queue.flatten := by
  induction queue generalizing s with
  | nil =>
    unfold Flow.sendWritten
    split <;> rfl
  | cons data rest ih =>
    unfold Flow.sendWritten
    split
    · next hnext =>
      rw [ih, sendSlice_bytes, hnext.1, List.append_nil, List.flatten_cons, List.append_assoc]
    · rfl

/-- The socket is closed when the Router writes no more and everything is sent. -/
theorem sendWritten_state (queue : List Bytes) :
    (s.sendWritten queue).socket.state = s.socket.state ∨
      (s.socket.state.maySend ∧ (s.sendWritten queue).socket.state = s.socket.state.close ∧
        ¬s.writing ∧ (s.sendWritten queue).pendingSend = [] ∧
        (s.sendWritten queue).fromHandler = []) := by
  induction queue generalizing s with
  | nil =>
    unfold Flow.sendWritten
    split
    · next hclose =>
      obtain ⟨hpending, hcan, hwriting⟩ := hclose
      exact .inr ⟨(Bool.and_eq_true _ _ ▸ hcan).1, rfl, hwriting, hpending, rfl⟩
    · exact .inl rfl
  | cons data rest ih =>
    unfold Flow.sendWritten
    split
    · exact ih
    · exact .inl rfl

end Sends

/-- What smoltcp's turn does to a connection. -/
structure PollFrame (s s' : Flow) : Prop where
  arrived : ∃ bytes, s'.socket.rx = s.socket.rx ++ bytes ∧ s'.delivered = s.delivered ++ bytes
  finSent : s'.socket.state.finSent → s.socket.state.finSent
  connected : s'.connected = s.connected
  pendingSend : s'.pendingSend = s.pendingSend
  toHandler : s'.toHandler = s.toHandler
  fromHandler : s'.fromHandler = s.fromHandler
  readBuf : s'.readBuf = s.readBuf
  writing : s'.writing = s.writing
  reading : s'.reading = s.reading
  read : s'.read = s.read
  ended : s'.ended = s.ended
  written : s'.written = s.written
  sent : s'.sent = s.sent

section Poll

variable {s s' s'' : Flow}

theorem PollFrame.trans (h : PollFrame s s') (h' : PollFrame s' s'') : PollFrame s s'' where
  arrived := by
    obtain ⟨bytes, hrx, hdelivered⟩ := h.arrived
    obtain ⟨more, hrx', hdelivered'⟩ := h'.arrived
    refine ⟨bytes ++ more, ?_, ?_⟩
    · rw [hrx', hrx, List.append_assoc]
    · rw [hdelivered', hdelivered, List.append_assoc]
  finSent := h.finSent ∘ h'.finSent
  connected := h'.connected.trans h.connected
  pendingSend := h'.pendingSend.trans h.pendingSend
  toHandler := h'.toHandler.trans h.toHandler
  fromHandler := h'.fromHandler.trans h.fromHandler
  readBuf := h'.readBuf.trans h.readBuf
  writing := h'.writing.trans h.writing
  reading := h'.reading.trans h.reading
  read := h'.read.trans h.read
  ended := h'.ended.trans h.ended
  written := h'.written.trans h.written
  sent := h'.sent.trans h.sent

/-- A change of the state only. -/
theorem pollFrame_of_state (hrx : s'.socket.rx = s.socket.rx) (hfin : s'.socket.state.finSent →
    s.socket.state.finSent) (hsame : ∃ k fin acked aborted, s' = { s with
      socket := k, finReceived := fin, finAcknowledged := acked, aborted := aborted }) :
    PollFrame s s' := by
  obtain ⟨k, fin, acked, aborted, rfl⟩ := hsame
  exact ⟨⟨[], by simpa using hrx, (List.append_nil _).symm⟩, hfin, rfl, rfl, rfl, rfl,
    rfl, rfl, rfl,
    rfl, rfl, rfl, rfl⟩

theorem pollFrame_refl : PollFrame s s := pollFrame_of_state rfl id ⟨_, _, _, _, rfl⟩

theorem event_frame (e : TcpEvent) : PollFrame s (s.event e) := by
  cases e with
  | handshake =>
    simp only [Flow.event]
    split
    · exact pollFrame_of_state rfl nofun ⟨_, _, _, _, rfl⟩
    · exact pollFrame_refl
  | data bytes =>
    simp only [Flow.event]
    split
    · exact ⟨⟨bytes, rfl, rfl⟩, id, rfl, rfl, rfl, rfl, rfl, rfl, rfl, rfl, rfl, rfl, rfl⟩
    · exact pollFrame_refl
  | fin =>
    simp only [Flow.event]
    split
    · exact pollFrame_of_state rfl nofun ⟨_, _, _, _, rfl⟩
    · exact pollFrame_of_state rfl nofun ⟨_, _, _, _, rfl⟩
    · next hstate => exact pollFrame_of_state rfl (fun _ ↦ by rw [hstate]; rfl) ⟨_, _, _, _, rfl⟩
    · next hstate => exact pollFrame_of_state rfl (fun _ ↦ by rw [hstate]; rfl) ⟨_, _, _, _, rfl⟩
    · exact pollFrame_refl
  | finAcked =>
    simp only [Flow.event]
    split
    · next hstate => exact pollFrame_of_state rfl (fun _ ↦ by rw [hstate]; rfl) ⟨_, _, _, _, rfl⟩
    · next hstate => exact pollFrame_of_state rfl (fun _ ↦ by rw [hstate]; rfl) ⟨_, _, _, _, rfl⟩
    · exact pollFrame_of_state rfl nofun ⟨_, _, _, _, rfl⟩
    · exact pollFrame_refl
  | acked n => exact pollFrame_of_state rfl id ⟨_, _, _, _, rfl⟩
  | reset =>
    simp only [Flow.event]
    split
    · exact pollFrame_of_state rfl nofun ⟨_, _, _, _, rfl⟩
    · exact pollFrame_of_state rfl nofun ⟨_, _, _, _, rfl⟩
  | timeout => exact pollFrame_of_state rfl nofun ⟨_, _, _, _, rfl⟩

theorem poll_frame (events : List TcpEvent) : PollFrame s (s.poll events) := by
  induction events generalizing s with
  | nil => exact pollFrame_refl
  | cons e events ih => exact (event_frame e).trans ih

end Poll

/-- The invariant of a run whose steps are clean. -/
structure Sound (s : Flow) : Prop where
  received : s.reading → s.read ++ s.readBuf ++ s.toHandler.flatten ++ s.socket.rx = s.delivered
  /-- Nothing of a connection that is gone is left in its socket. -/
  gone : s.connected = false → s.reading → s.socket.rx = []
  ended : s.ended → s.connected = false ∧ s.readBuf ++ s.toHandler.flatten = [] ∧
    s.read = s.delivered
  sent : s.sent ++ s.pendingSend ++ s.fromHandler.flatten = s.written
  closed : s.socket.state.finSent → ¬s.writing ∧ s.sent = s.written

theorem take_append_drop_length (n : Nat) (xs : Bytes) :
    xs.take n ++ xs.drop (xs.take n).length = xs := by
  obtain hle | hge := Nat.le_total n xs.length
  · rw [List.length_take_of_le hle, List.take_append_drop]
  · rw [List.take_of_length_le hge, List.drop_length, List.append_nil]

section Sound

variable {s s' : Flow}

theorem sound_admitted (room : Nat) : Sound (.admitted room) := by
  constructor <;> intros <;> simp_all [Flow.admitted, TcpState.finSent]

/-- A connection in the map has not come to its end. -/
theorem Sound.not_ended (h : Sound s) (hconnected : s.connected = true) : s.ended = false := by
  cases hended : s.ended with
  | false => rfl
  | true => cases (h.ended hended).1.symm.trans hconnected

theorem Sound.poll (h : Sound s) (hconnected : s.connected = true) (hf : PollFrame s s') :
    Sound s' where
  received hreading := by
    obtain ⟨bytes, hrx, hdelivered⟩ := hf.arrived
    rw [hf.read, hf.readBuf, hf.toHandler, hrx, hdelivered, ← List.append_assoc,
      h.received (hf.reading ▸ hreading)]
  gone hgone := Bool.noConfusion ((hf.connected.symm.trans hgone).symm.trans hconnected)
  ended hended := Bool.noConfusion (hended.symm.trans (hf.ended.trans (h.not_ended hconnected)))
  sent := by rw [hf.sent, hf.pendingSend, hf.fromHandler, hf.written, h.sent]
  closed hfin := by
    rw [hf.writing, hf.sent, hf.written]
    exact h.closed (hf.finSent hfin)

theorem Sound.toRouter (h : Sound s) (hconnected : s.connected = true) (piece : Nat) :
    Sound (s.toRouter piece) := by
  unfold Flow.toRouter
  split
  · dsimp only
    split
    · exact h
    · split
      · exact {
          received := fun hreading ↦ by
            rw [List.flatten_append, List.flatten_singleton, ← List.append_assoc, List.append_assoc,
              take_append_drop_length, h.received hreading]
          gone := fun hgone ↦ Bool.noConfusion (hgone.symm.trans hconnected)
          ended := fun hended ↦ Bool.noConfusion (hended.symm.trans (h.not_ended hconnected))
          sent := h.sent
          closed := h.closed }
      · exact h
  · exact h

theorem Sound.send (h : Sound s) (hconnected : s.connected = true) (hf : SendFrame s s')
    (hbytes : s'.sent ++ s'.pendingSend ++ s'.fromHandler.flatten =
      s.sent ++ s.pendingSend ++ s.fromHandler.flatten)
    (hclosed : s'.socket.state.finSent → ¬s'.writing ∧ s'.sent = s'.written) : Sound s' where
  received hreading := by
    rw [hf.read, hf.readBuf, hf.toHandler, hf.rx, hf.delivered, h.received (hf.reading ▸ hreading)]
  gone hgone := Bool.noConfusion ((hf.connected.symm.trans hgone).symm.trans hconnected)
  ended hended := Bool.noConfusion (hended.symm.trans (hf.ended.trans (h.not_ended hconnected)))
  sent := by rw [hbytes, hf.written, h.sent]
  closed := hclosed

theorem toRouter_connected (piece : Nat) : (s.toRouter piece).connected = s.connected := by
  unfold Flow.toRouter
  split
  · dsimp only
    split
    · rfl
    · split <;> rfl
  · rfl

theorem Sound.relay (h : Sound s) (hconnected : s.connected = true) (piece : Nat) :
    Sound (s.relay piece) := by
  have hrouter := h.toRouter hconnected piece
  have hin : (s.toRouter piece).connected = true := (toRouter_connected piece).trans hconnected
  unfold Flow.relay
  dsimp only
  split
  · next hmay =>
    generalize s.toRouter piece = r at hrouter hin hmay
    have hframe : SendFrame r (r.sendPending.sendWritten r.sendPending.fromHandler) :=
      sendPending_frame.trans (sendWritten_frame _)
    have hbytes : (r.sendPending.sendWritten r.sendPending.fromHandler).sent ++
        (r.sendPending.sendWritten r.sendPending.fromHandler).pendingSend ++
        (r.sendPending.sendWritten r.sendPending.fromHandler).fromHandler.flatten =
          r.sent ++ r.pendingSend ++ r.fromHandler.flatten := by
      rw [sendWritten_bytes, sendPending_bytes, sendPending_socket.2]
    refine hrouter.send hin hframe hbytes fun hfin ↦ ?_
    obtain hsame | ⟨-, -, hwriting, hpending, hqueue⟩ := sendWritten_state r.sendPending.fromHandler
    · -- The state that may send is not one after the FIN.
      rw [hsame, sendPending_socket.1] at hfin
      cases hstate : r.socket.state <;> rw [hstate] at hfin hmay <;> cases hfin <;> cases hmay
    · rw [hpending, hqueue, List.flatten_nil, List.append_nil, List.append_nil] at hbytes
      refine ⟨fun hopen ↦ hwriting ?_, ?_⟩
      · rwa [hframe.writing, ← sendPending_frame.writing] at hopen
      · rw [hbytes, hrouter.sent, hframe.written]
  · exact hrouter

theorem Sound.dispose (h : Sound s) (hconnected : s.connected = true) (hidle : s.Idle) :
    Sound s.dispose where
  received := h.received
  gone _ := hidle.1
  ended hended := absurd (hended.symm.trans (h.not_ended hconnected)) nofun
  sent := by
    have hsent := h.sent
    rwa [hidle.2.1, hidle.2.2] at hsent
  closed := h.closed

/-- A peek moves bytes from the channel to `read_buf`, and takes none. -/
theorem peek_stream (n : Nat) : (s.peek n).readBuf ++ (s.peek n).toHandler.flatten =
    s.readBuf ++ s.toHandler.flatten ∧ (s.peek n).read = s.read := by
  unfold Flow.peek
  split
  · split
    · next hqueue => exact ⟨by simp [hqueue], rfl⟩
    · exact ⟨rfl, rfl⟩
  · exact ⟨rfl, rfl⟩

theorem Sound.peek (h : Sound s) (n : Nat) : Sound (s.peek n) := by
  obtain ⟨hstream, hread⟩ := peek_stream (s := s) n
  have hsame : ∃ readBuf toHandler,
      s.peek n = { s with readBuf := readBuf, toHandler := toHandler } := by
    unfold Flow.peek
    split
    · split
      · exact ⟨_, _, rfl⟩
      · exact ⟨_, _, rfl⟩
    · exact ⟨_, _, rfl⟩
  obtain ⟨readBuf, toHandler, heq⟩ := hsame
  rw [heq] at hstream ⊢
  exact {
    received := fun hreading ↦ by
      have hreceived := h.received hreading
      rw [List.append_assoc s.read, ← hstream, ← List.append_assoc] at hreceived
      exact hreceived
    gone := h.gone
    ended := fun hended ↦ by
      obtain ⟨hgone, hnone, hall⟩ := h.ended hended
      exact ⟨hgone, hstream.trans hnone, hall⟩
    sent := h.sent
    closed := h.closed }

/-- A read takes the bytes in front, or finds the end behind all of them. -/
theorem pollRead_cases (cap : Nat) :
    (∃ bytes readBuf toHandler, (s.pollRead cap).2 =
        { s with read := s.read ++ bytes, readBuf := readBuf, toHandler := toHandler } ∧
      bytes ++ readBuf ++ toHandler.flatten = s.readBuf ++ s.toHandler.flatten) ∨
    (s.pollRead cap).2 = s ∨
    (s.connected = false ∧ s.readBuf = [] ∧ s.toHandler = [] ∧ (s.pollRead cap).1 = .eof ∧
      (s.pollRead cap).2 = { s with ended := true }) := by
  unfold Flow.pollRead
  split
  · exact .inl ⟨_, _, _, rfl, by rw [List.take_append_drop]⟩
  · next hbuf =>
    have hnil : s.readBuf = [] := not_not.1 hbuf
    split
    · next data rest hqueue =>
      refine .inl ⟨_, _, _, rfl, ?_⟩
      rw [List.take_append_drop, hnil, hqueue, List.flatten_cons, List.nil_append]
    · next hqueue =>
      split
      · exact .inr (.inl rfl)
      · next hgone => exact .inr (.inr ⟨Bool.eq_false_iff.2 hgone, hnil, hqueue, rfl, rfl⟩)

theorem Sound.pollRead (h : Sound s) (hreading : s.reading) (cap : Nat) :
    Sound (s.pollRead cap).2 := by
  obtain ⟨bytes, readBuf, toHandler, heq, hbytes⟩ | heq | ⟨hgone, hbuf, hqueue, -, heq⟩ :=
    pollRead_cases (s := s) cap
  · rw [heq]
    exact {
      received := fun _ ↦ by
        have hreceived := h.received hreading
        rw [List.append_assoc s.read, ← hbytes] at hreceived
        simpa using hreceived
      gone := h.gone
      ended := fun hended ↦ by
        obtain ⟨hgone, hnone, hall⟩ := h.ended hended
        rw [hnone, List.append_assoc] at hbytes
        obtain ⟨rfl, hrest⟩ := List.append_eq_nil_iff.1 hbytes
        exact ⟨hgone, hrest, (List.append_nil _).trans hall⟩
      sent := h.sent
      closed := h.closed }
  · rwa [heq]
  · rw [heq]
    have hreceived := h.received hreading
    rw [hbuf, hqueue, h.gone hgone hreading] at hreceived
    exact {
      received := h.received
      gone := h.gone
      ended := fun _ ↦ ⟨hgone, by rw [hbuf, hqueue]; rfl, by simpa using hreceived⟩
      sent := h.sent
      closed := h.closed }

theorem Sound.write (h : Sound s) (bytes : Bytes) : Sound (s.write bytes) := by
  unfold Flow.write
  split
  · next hmay =>
    obtain ⟨-, hwriting, -, -⟩ := hmay
    exact {
      received := h.received
      gone := h.gone
      ended := h.ended
      sent := by rw [List.flatten_append, List.flatten_singleton, ← List.append_assoc, h.sent]
      closed := fun hfin ↦ absurd hwriting (h.closed hfin).1 }
  · exact h

theorem Sound.step (h : Sound s) {label : FlowLabel} (hclean : s.Clean label) :
    Sound (s.step label) := by
  cases label with
  | poll events =>
    simp only [Flow.step]
    split
    · next hconnected => exact h.poll hconnected (poll_frame events)
    · exact h
  | relay piece =>
    simp only [Flow.step]
    split
    · next hconnected => exact h.relay hconnected piece
    · exact h
  | cleanup =>
    simp only [Flow.step, Flow.cleanup]
    split
    · next hconnected =>
      split
      · next hfinished => exact h.dispose hconnected (hclean hconnected hfinished)
      · exact h
    · exact h
  | teardown =>
    simp only [Flow.step]
    split
    · next hconnected => exact h.dispose hconnected (hclean hconnected)
    · exact h
  | peek n =>
    simp only [Flow.step]
    split
    · exact h.peek n
    · exact h
  | read cap =>
    simp only [Flow.step]
    split
    · next hreading => exact h.pollRead hreading cap
    · exact h
  | write bytes => exact h.write bytes
  | shutdown =>
    exact ⟨h.received, h.gone, h.ended, h.sent, fun hfin ↦ ⟨nofun, (h.closed hfin).2⟩⟩
  | drop =>
    exact ⟨nofun, fun _ ↦ nofun, fun hended ↦ ⟨(h.ended hended).1, rfl,
      (h.ended hended).2.2⟩, h.sent,
      fun hfin ↦ ⟨nofun, (h.closed hfin).2⟩⟩

theorem Sound.run (h : Sound s) {labels : List FlowLabel} (hclean : s.AllClean labels) :
    Sound (s.run labels) := by
  induction labels generalizing s with
  | nil => exact h
  | cons label labels ih => exact ih (h.step hclean.1) hclean.2

theorem Sound.intact (h : Sound s) : Intact s where
  received := h.received
  ended hended := (h.ended hended).2.2
  sent := h.sent
  closed := h.closed
  peek n := ⟨(peek_stream n).2, (peek_stream n).1,
    (List.take_prefix n s.readBuf).trans (List.prefix_append _ _)⟩

end Sound

/-- **In a run whose connection leaves the map only when nothing waits, no byte is lost, doubled or
moved, in either direction, and the FIN comes after all of them.** -/
theorem intact_run (room : Nat) (labels : List FlowLabel)
    (hclean : (Flow.admitted room).AllClean labels) : Intact ((Flow.admitted room).run labels) :=
  ((sound_admitted room).run hclean).intact

/-- A connection that both sides finish, with a write that needs two sends. -/
def finishedLabels : List FlowLabel :=
  [.poll [.handshake, .data [1, 2]], .relay 2, .peek 1, .write [3, 4], .shutdown, .relay 0,
    .poll [.acked 1], .relay 0, .poll [.acked 1], .relay 0, .read 1, .poll [.finAcked, .fin],
    .relay 0, .cleanup, .read 8, .read 8]

theorem intact_finished :
    (Flow.admitted 1).AllClean finishedLabels ∧ Intact ((Flow.admitted 1).run finishedLabels) :=
  have hclean : (Flow.admitted 1).AllClean finishedLabels := by decide
  ⟨hclean, intact_run 1 finishedLabels hclean⟩

/-- A segment that wraps around the end of the receive buffer and carries the client's FIN, once
ours is acknowledged: its second piece goes with the connection. -/
theorem wrapped_lost : ¬∀ room labels, Intact ((Flow.admitted room).run labels) := by
  intro h
  have hlost := (h 1 [.poll [.handshake], .shutdown, .relay 0,
    .poll [.finAcked, .data [1, 2], .fin],
    .relay 1, .cleanup, .read 8, .read 8]).ended (by decide)
  exact absurd hlost (by decide)

end Hole.Tun
