import Hole.Tun.Parse
import Hole.Tun.Slots
import Hole.Tun.TcpFlow
import Mathlib.Data.Finset.Basic

/-!
# The sockets of the TUN stack

`crates/tun-engine/src/engine/socket_stack.rs`, `admission.rs`, and of `driver.rs` what settles a
packet. A socket of smoltcp is found by the index of its slot, and that index is in one of three
lists: of the listeners, of the driver's connections, and of the sockets that are on their way out.
A call on a slot that is free panics, and so do the assertions of a debug build; a program that
panics returns nothing here.

What smoltcp does in a poll is the caller's, within `Moves`. What the relay copies is left out
(`TcpFlow` has it); that the Router has ended a flow closes the socket.
-/

namespace Hole.Tun

/-! ### smoltcp -/

/-- `tcp::Socket`, less its buffers. -/
structure TcpSocket where
  state : TcpState
  tuple : Option (SocketAddr × SocketAddr)
  /-- The port of `listen_endpoint`. -/
  listenPort : Nat
  synackPaused : Bool
  keepAlive : Option Nat
  timeout : Option Nat
  ackDelay : Option Nat

namespace TcpSocket

/-- `Socket::new`. -/
def new : TcpSocket where
  state := .closed
  tuple := none
  listenPort := 0
  synackPaused := false
  keepAlive := none
  timeout := none
  ackDelay := some 10

/-- `Socket::listen`, of a new socket: it fails of the port 0. -/
def listen (s : TcpSocket) (port : Nat) : Option TcpSocket :=
  if port = 0 then none else some { s with state := .listen, listenPort := port }

end TcpSocket

/-- What a poll makes of a socket, where `segment` has the local and the remote end of the segment
that it was fed, if it was fed one. A socket that listens takes the segment or is as it was. Any
other keeps its ends, or loses them; a reset may have it listen again. -/
structure Moves (segment : Option (SocketAddr × SocketAddr)) (s t : TcpSocket) : Prop where
  ackDelay : t.ackDelay = s.ackDelay
  listenPort : t.listenPort = s.listenPort
  ofListen : s.state = .listen → t.state = .listen ∨
    ∃ ends, segment = some ends ∧ t.tuple = some ends ∧ ends.1.port.toNat = s.listenPort
  tuple : s.state ≠ .listen → t.tuple = s.tuple ∨ t.tuple = none
  listens : (s.state = .listen → s.tuple = none) → t.state = .listen → t.tuple = none
  unfed : segment = none → s.state ≠ .listen → t.state ≠ .listen

/-- `Interface::poll`. -/
structure Poll (segment : Option (SocketAddr × SocketAddr)) where
  run : Slots TcpSocket → Slots TcpSocket
  filled : ∀ sockets h, ((run sockets).get? h).isSome = (sockets.get? h).isSome
  moves : ∀ sockets h s t, sockets.get? h = some s → (run sockets).get? h = some t →
    Moves segment s t

/-! ### The stack -/

/-- `TcpListener`. -/
structure TcpListener where
  handle : Nat
  port : Nat
  deriving DecidableEq

/-- `SocketStack`, less the device. -/
structure SocketStack where
  sockets : Slots TcpSocket
  listeners : List TcpListener
  listenedPorts : Finset Nat
  retiring : List Nat
  ownerIsn : Nat → Option Nat
  pendingSyn : Option (SocketAddr × SocketAddr × Nat)
  keepAliveInterval : Nat
  peerTimeout : Nat

/-- `Handshake`. -/
inductive Handshake
  | pending (handle port : Nat) (src dst : SocketAddr) (supersedes : Option Nat)
  | duplicate (handle port : Nat)

namespace SocketStack

variable (w : SocketStack)

/-- `SocketStack::new`. -/
def new (keepAliveInterval peerTimeout : Nat) : SocketStack where
  sockets := ⟨[]⟩
  listeners := []
  listenedPorts := ∅
  retiring := []
  ownerIsn _ := none
  pendingSyn := none
  keepAliveInterval := keepAliveInterval
  peerTimeout := peerTimeout

/-- `SocketSet::get`. -/
def socket (h : Nat) : Option TcpSocket := w.sockets.get? h

/-- What is done to the socket of `SocketSet::get_mut`. -/
def modify (h : Nat) (f : TcpSocket → TcpSocket) : Option SocketStack :=
  (w.socket h).map fun s ↦ { w with sockets := w.sockets.set h (f s) }

/-- `enqueue_rx`, of a packet that `parse_syn` makes this of. -/
def enqueueRx (syn : Option (SocketAddr × SocketAddr × Nat)) : SocketStack :=
  { w with pendingSyn := syn }

/-- `ensure_listener`. -/
def ensureListener (port : Nat) : SocketStack :=
  if port ∈ w.listenedPorts then w
  else
    match TcpSocket.new.listen port with
    | none => w
    | some s =>
      { w with
        sockets := w.sockets.add { s with synackPaused := true, ackDelay := none }
        listeners := w.listeners ++ [⟨w.sockets.free, port⟩]
        listenedPorts := insert port w.listenedPorts }

/-- `remove`. -/
def remove (h : Nat) : Option SocketStack := do
  let s ← w.socket h
  if s.ackDelay = none then
    some
      { w with
        sockets := w.sockets.remove h
        ownerIsn := Function.update w.ownerIsn h none
        retiring := w.retiring.filter (· ≠ h) }
  else none

/-- `retire`. -/
def retire (h : Nat) : Option SocketStack :=
  if h ∈ w.retiring then none else some { w with retiring := w.retiring ++ [h] }

/-- `admit`. -/
def admitSocket (h port : Nat) : Option SocketStack := do
  let w ← w.modify h fun s ↦
    { s with
      keepAlive := some w.keepAliveInterval
      timeout := some w.peerTimeout
      synackPaused := false }
  some (w.ensureListener port)

/-- `refuse`. -/
def refuse (h port : Nat) : Option SocketStack := do
  -- `abort`
  let w ← w.modify h fun s ↦ { s with state := .closed }
  let w ← w.retire h
  some (w.ensureListener port)

/-- `drop_duplicate`. -/
def dropDuplicate (h port : Nat) : Option SocketStack := do
  let w ← w.remove h
  some (w.ensureListener port)

/-- The loop of `poll` over the sockets that retire; it returns those that go on. -/
def reap (w : SocketStack) : List Nat → Option (SocketStack × List Nat)
  | [] => some (w, [])
  | h :: hs => do
    let s ← w.socket h
    if s.tuple.isSome then
      let (w, kept) ← reap w hs
      some (w, h :: kept)
    else
      let w ← w.remove h
      reap w hs

/-- `poll`. -/
def poll {segment : Option (SocketAddr × SocketAddr)} (p : Poll segment) : Option SocketStack := do
  let (w, kept) ← reap { w with sockets := p.run w.sockets, retiring := [] } w.retiring
  some { w with retiring := kept }

/-- `tuple_owner`. -/
def tupleOwner (h : Nat) (ends : SocketAddr × SocketAddr) : Option Nat :=
  w.sockets.handles.find? fun other ↦
    other ≠ h && (w.sockets.get? other).bind TcpSocket.tuple == some ends

/-- The listeners that have left `Listen`. -/
def started : List TcpListener → Option (List TcpListener)
  | [] => some []
  | l :: ls => do
    let s ← w.socket l.handle
    let rest ← started ls
    some (if s.state = .listen then rest else l :: rest)

/-- The ISN of the SYN that was read last, if it is of these ends. -/
def observedIsn (syn : Option (SocketAddr × SocketAddr × Nat))
    (src dst : SocketAddr) : Option Nat :=
  (syn.filter fun x ↦ (x.1, x.2.1) = (src, dst)).map fun x ↦ x.2.2

/-- One turn of the loop of `take_handshakes`. -/
def takeHandshake (syn : Option (SocketAddr × SocketAddr × Nat)) (l : TcpListener) :
    Option (Handshake × SocketStack) := do
  let w : SocketStack :=
    { w with
      listeners := w.listeners.filter (·.handle ≠ l.handle)
      listenedPorts := w.listenedPorts.erase l.port }
  let s ← w.socket l.handle
  let (dst, src) ← s.tuple
  match w.tupleOwner l.handle (dst, src) with
  | some owner =>
    match observedIsn syn src dst, w.ownerIsn owner with
    | some isn, some owners =>
      if isn = owners then some (.duplicate l.handle l.port, w)
      else
        some (.pending l.handle l.port src dst (some owner),
          { w with ownerIsn := Function.update w.ownerIsn l.handle (some isn) })
    -- A SYN that could not be read counts as a retransmission.
    | _, _ => some (.duplicate l.handle l.port, w)
  | none =>
    match observedIsn syn src dst with
    | some isn =>
      some (.pending l.handle l.port src dst none,
        { w with ownerIsn := Function.update w.ownerIsn l.handle (some isn) })
    | none => some (.pending l.handle l.port src dst none, w)

/-- The loop of `take_handshakes`. -/
def takeAll (w : SocketStack) (syn : Option (SocketAddr × SocketAddr × Nat)) :
    List TcpListener → Option (List Handshake × SocketStack)
  | [] => some ([], w)
  | l :: ls => do
    let (handshake, w) ← w.takeHandshake syn l
    let (handshakes, w) ← takeAll w syn ls
    some (handshake :: handshakes, w)

/-- `take_handshakes`. -/
def takeHandshakes : Option (List Handshake × SocketStack) := do
  let started ← w.started w.listeners
  takeAll { w with pendingSyn := none } w.pendingSyn started

end SocketStack

/-! ### The driver -/

/-- `Driver`, as far as it has sockets. -/
structure Driver where
  stack : SocketStack
  /-- The keys of `connections`. -/
  connections : List Nat

/-- A packet that the driver reads, and what it reads of it. -/
structure Arrival (c : WireChecks) where
  packet : Packet
  dst : Option (Nat × IpProto)
  syn : Option (SocketAddr × SocketAddr × Nat)
  dst_eq : parseIpDst packet = some dst
  syn_eq : parseSyn c packet = some syn

/-- A call of `settle_packet`: the packet, if there is one, what smoltcp does in the two polls, for
which sockets there is a permit, and which flows have ended. -/
structure Turn (c : WireChecks) where
  arrival : Option (Arrival c)
  segment : Option (SocketAddr × SocketAddr)
  first : Poll segment
  second : Poll none
  acquire : Nat → Bool
  ended : Nat → Bool

namespace Driver

variable (d : Driver)

/-- `connections.insert`. -/
def insertConnection (h : Nat) : List Nat := if h ∈ d.connections then d.connections else
  d.connections ++ [h]

/-- One turn of the loop of `accept_tcp_connections`. -/
def acceptOne (acquire : Nat → Bool) (d : Driver) : Handshake → Option Driver
  | .duplicate h port => do
    let stack ← d.stack.dropDuplicate h port
    some { d with stack := stack }
  | .pending h port _ _ supersedes => do
    let d ← match supersedes with
      | none => some d
      | some stale => do
        let stack ← d.stack.remove stale
        some { stack := stack, connections := d.connections.erase stale }
    if acquire h then
      let stack ← d.stack.admitSocket h port
      some { stack := stack, connections := d.insertConnection h }
    else
      let stack ← d.stack.refuse h port
      some { d with stack := stack }

/-- `accept_tcp_connections`. -/
def accept (acquire : Nat → Bool) : Option Driver := do
  let (handshakes, stack) ← d.stack.takeHandshakes
  handshakes.foldlM (acceptOne acquire) { d with stack := stack }

/-- One turn of the loop of `relay_tcp_data`. -/
def relayOne (ended : Nat → Bool) (w : SocketStack) (h : Nat) : Option SocketStack :=
  w.modify h fun s ↦ if s.state.maySend && ended h then { s with state := s.state.close } else s

/-- `relay_tcp_data`. -/
def relay (ended : Nat → Bool) : Option Driver := do
  let stack ← d.connections.foldlM (relayOne ended) d.stack
  some { d with stack := stack }

/-- The connections that are finished. -/
def finished (w : SocketStack) : List Nat → Option (List (Nat × Disposal))
  | [] => some []
  | h :: hs => do
    let s ← w.socket h
    let rest ← finished w hs
    some (((decideDisposal s.state).map fun disposal ↦ (h, disposal)).toList ++ rest)

/-- One turn of the loop of `cleanup_finished_connections`. -/
def disposeOne (d : Driver) (x : Nat × Disposal) : Option Driver := do
  let stack ← match x.2 with
    | .retire => d.stack.retire x.1
    | .remove => d.stack.remove x.1
  some { stack := stack, connections := d.connections.erase x.1 }

/-- `cleanup_finished_connections`. -/
def cleanup : Option Driver := do
  let finished ← finished d.stack d.connections
  finished.foldlM disposeOne d

/-- A packet to a TCP port has a listener there. -/
def listenFor (w : SocketStack) : Option (Nat × IpProto) → SocketStack
  | some (port, .tcp) => w.ensureListener port
  | _ => w

/-- The packet is fed, and smoltcp polled. -/
def feed {c : WireChecks} (t : Turn c) : Option Driver := do
  let stack := match t.arrival with
    | none => d.stack
    | some arrival => (listenFor d.stack arrival.dst).enqueueRx arrival.syn
  let stack ← stack.poll t.first
  some { d with stack := stack }

/-- `settle_packet`. -/
def settle {c : WireChecks} (t : Turn c) : Option Driver := do
  let d ← d.feed t
  let d ← d.accept t.acquire
  let d ← d.relay t.ended
  let d ← d.cleanup
  let stack ← d.stack.poll t.second
  some { d with stack := stack }

/-- `Driver::new`. -/
def new (keepAliveInterval peerTimeout : Nat) : Driver where
  stack := .new keepAliveInterval peerTimeout
  connections := []

end Driver

end Hole.Tun
