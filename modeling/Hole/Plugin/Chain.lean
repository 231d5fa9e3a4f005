import Mathlib.Logic.Function.Basic
import Hole.Plugin.Tap
import Hole.Plugin.Wiring

/-!
# The start of a plugin chain

`ChainRunner::run` of `crates/garter/src/chain.rs` once its remote address is resolved, with the
hops that it starts (`run_hop` of `hop.rs`): each is a task of its own, which picks its port, runs
its plugin, and runs it again where an intermediate port was lost. What a plugin reports and when
it ends, a shutdown and the expiry of the drain come in any order, and so do the polls of `run`.

A hop is known by its position in the order of the start. Of the three ways out of an attempt the
`Drop` of its `Relay` is the same read of the channel as the others, so it is a step of its own,
and an attempt ends once it was made (`HopStep.ends`).
-/

namespace Hole.Plugin.Chain

open Effect
open Function (update update_self update_of_ne)
open Tap (StartError PluginReady Report IoError JoinError Joined Channel)

/-! ### The values -/

/-- `ChainReady`. -/
structure ChainReady where
  listen : SocketAddr
  transports : Transports

/-- What the caller of `run` is told. -/
abbrev Message : Type := Except StartError ChainReady

/-- `crate::Error`. -/
inductive Error
  | startFailed (plugin : String) (cause : StartError)
  /-- Another one, of a member or of the drain. -/
  | other (e : Tap.Error)

/-- `Flow`. -/
structure Flow where
  order : List Nat
  «public» : SocketAddr
  destination : SocketAddr

/-- `Mode::flow`. -/
def flow (mode : ChainMode) (hops : Nat) (localAddr remoteAddr : SocketAddr) : Flow :=
  match mode with
  | .client => ⟨(List.range hops).reverse, localAddr, remoteAddr⟩
  | .server => ⟨List.range hops, remoteAddr, localAddr⟩

/-- `Transports::all`. -/
def allTransports : Transports := Transports.tcp ||| Transports.udp

/-- What every hop serves. -/
def served (reports : List PluginReady) : Transports :=
  reports.foldl (fun transports report ↦ transports &&& report.transports) allTransports

/-- What a chain is run with. -/
structure Args where
  mode : ChainMode
  /-- `name` of each plugin, the one at the data source first. -/
  names : List String
  localAddr : SocketAddr
  remoteAddr : SocketAddr
  /-- `on_ready` was called. -/
  registered : Bool

namespace Args

variable (a : Args)

/-- The number of the hops. -/
def hops : Nat := a.names.length

def flow : Flow := Chain.flow a.mode a.hops a.localAddr a.remoteAddr

/-- The plugin at a position of the start. -/
def plugin (p : Nat) : Nat := a.flow.order.getD p 0

def name (p : Nat) : String := a.names.getD (a.plugin p) ""

/-- Whether a hop listens on the public end. -/
def isPublic (p : Nat) : Bool := p + 1 == a.hops

/-- The ports that are taken before the start. -/
def ends : List (BitVec 16) := [a.flow.public.port, a.flow.destination.port].filter (· ≠ 0)

end Args

/-- `Decision`. -/
inductive Decision
  | ready (given : SocketAddr) (report : PluginReady)
  | failed (e : StartError)
  | dropped

/-- `Decision::restart_cause`. -/
def Decision.restartCause (intermediate : Bool) : Decision → Option StartError
  | .ready _ _ | .dropped => none
  | .failed (.bindConflict errno addr) =>
    if intermediate then some (.bindConflict errno addr) else none
  | .failed (.fatal _ _) => none

/-- What the `Relay` of an attempt makes of its readiness; there is none where the sender was
dropped. -/
def decisionOf (given : SocketAddr) : Option Report → Decision
  | some (.ok report) => .ready given report
  | some (.error e) => .failed e
  | none => .dropped

/-- The failure of a hop that ends undecided. -/
def exitedEarly : StartError := .fatal "plugin exited before becoming ready" none

/-! ### The state -/

/-- What was done. -/
inductive Event
  /-- A hop was launched, with what it forwards to. -/
  | launched (p plugin : Nat) (remote : SocketAddr)
  /-- Its plugin was told to listen on an address. -/
  | given (p : Nat) (addr : SocketAddr)
  /-- Its plugin delivered a report while its attempt ran. -/
  | reported (p : Nat) (report : Report)
  | cancelled
  | sent (message : Message)

/-- The channel that a hop decides on. -/
inductive Decided
  | unsent
  | sent (decision : Decision)
  /-- The chain read it, or that there is nothing to read. -/
  | read

/-- Where the task of a hop is. -/
inductive HopState
  | absent
  /-- `pick_with`. -/
  | picking
  /-- `attempt`. `settled` is that of its `Relay`, and `restart` says whether `Outlet::restart` is
  set. -/
  | running (given : SocketAddr) (channel : Channel) (settled restart : Bool)
  | pausing
  | ended (joined : Joined)
  /-- `join_next` yielded it. -/
  | joined

/-- A hop that is started. -/
structure Hop where
  remote : SocketAddr
  /-- `taken` of an intermediate hop. -/
  taken : List (BitVec 16)
  given : Option SocketAddr
  state : HopState
  decided : Decided

/-- `HopFailure`. -/
structure HopFailure where
  position : Nat
  cause : StartError

/-- Where `run` is. -/
inductive Place
  | running
  | draining
  /-- The drain expired. -/
  | aborting
  | returned (result : Except Error Unit)

def Place.isOver : Place → Bool
  | running | draining | aborting => false
  | returned _ => true

structure World where
  place : Place
  hops : Nat → Hop
  /-- Position of the next hop to launch, which is that of the hop that is starting. -/
  next : Nat
  forwardTo : SocketAddr
  taken : List (BitVec 16)
  transports : Transports
  /-- `StartSequence::pending`. -/
  pending : Option Nat
  /-- `ReadyGate::unread`. -/
  unread : Option Nat
  failure : Option HopFailure
  readyTx : Bool
  firstError : Option Tap.Error
  shutdown : Bool
  /-- Newest first. -/
  log : List Event

namespace Hop

/-- A hop that was not launched. -/
def none : Hop := ⟨⟨.v4 0, 0⟩, [], .none, .absent, .unsent⟩

/-- `Outlet::report`. -/
def report (h : Hop) (decision : Decision) : Hop :=
  { h with decided := match h.decided with
    | .unsent => .sent decision
    | .sent earlier => .sent earlier
    | .read => .read }

/-- `Relay::settle`. -/
def settle (h : Hop) (intermediate : Bool) (given : SocketAddr) (outcome : Option Report) : Hop :=
  match (decisionOf given outcome).restartCause intermediate with
  | some _ => { h with state := .running given .taken true true }
  | .none => { h.report (decisionOf given outcome) with state := .running given .taken true false }

/-- Its decision is read. -/
def heard (h : Hop) : Hop := { h with decided := .read }

/-- The hop goes on. -/
def goTo (h : Hop) (state : HopState) : Hop := { h with state := state }

end Hop

/-- What the attempt leaves to be routed was routed, or there is nothing. -/
def Routed (channel : Channel) (settled : Bool) : Prop := settled = true ∨ channel = .live

/-- The task of a hop can be cut. -/
def HopState.Cuttable : HopState → Prop
  | picking | pausing => True
  | running _ channel settled _ => Routed channel settled
  | absent | ended _ | joined => False

/-- The task of a hop is over. -/
def HopState.Finished : HopState → Prop
  | ended _ | joined => True
  | absent | picking | running _ _ _ _ | pausing => False

namespace World

variable (a : Args) (w : World)

def note (e : Event) : World := { w with log := e :: w.log }

def setHop (p : Nat) (h : Hop) : World := { w with hops := update w.hops p h }

/-- `shutdown.cancel`. -/
def cancel : World :=
  if w.shutdown then w else { w.note .cancelled with shutdown := true }

/-- `StartSequence::launch`. -/
def launch (p : Nat) : World :=
  { (w.note (.launched p (a.plugin p) w.forwardTo)).setHop p
      ⟨w.forwardTo, w.taken, none, .picking, .unsent⟩ with pending := some p }

/-- Before the first phase. -/
def start : World := World.launch a
    { place := .running
      hops := fun _ ↦ Hop.none
      next := 0
      forwardTo := a.flow.destination
      taken := a.ends
      transports := allTransports
      pending := none
      unread := none
      failure := none
      readyTx := a.registered
      firstError := none
      shutdown := false
      log := [] } 0

/-- An attempt starts. -/
def run (p : Nat) (addr : SocketAddr) : World := (w.note (.given p addr)).setHop p
    { (w.hops p).goTo (.running addr .live false false) with given := some addr }

/-- The decision of a hop is read. -/
def readDecision (p : Nat) : World :=
  { w.setHop p (w.hops p).heard with pending := none }

/-- The verdict that a hop failed. -/
def fail (p : Nat) (cause : StartError) : World :=
  World.cancel { w.readDecision p with failure := some ⟨p, cause⟩ }

/-- What the verdict that a hop is ready makes of the start. -/
def absorb (p : Nat) (report : PluginReady) : World :=
  { w.readDecision p with next := w.next + 1
                          transports := w.transports &&& report.transports }

/-- The next hop is launched. -/
def goOn (p : Nat) (given : SocketAddr) (report : PluginReady) : World :=
  World.launch a { w.absorb p report with taken := w.taken ++ [given.port]
                                          forwardTo := given } (p + 1)

/-- `ReadyGate::absorb` of a chain that is ready. -/
def settle (p : Nat) (report : PluginReady) : World :=
  let chain : ChainReady := ⟨report.listen, w.transports &&& report.transports⟩
  if w.readyTx then
    { (w.absorb p report).note (.sent (.ok chain)) with readyTx := false }
  else w.absorb p report

/-- `record_exit`. -/
def recordExit : Joined → World
  | .ok (.ok ()) => w.cancel
  | .ok (.error e) => { w.cancel with firstError := w.firstError.or (some e) }
  | .error e =>
    { w.cancel with firstError := w.firstError.or (some (.chain ("plugin panicked: " ++ e.text))) }

/-- A hop is joined. -/
def join (p : Nat) : World := w.setHop p ((w.hops p).goTo .joined)

/-- What a preempted hop has delivered since. -/
def deliveredSince : Option HopFailure :=
  match w.unread with
  | none => none
  | some p =>
    match (w.hops p).decided with
    | .sent (.failed e) => some ⟨p, e⟩
    | .sent (.ready _ _) | .sent .dropped | .unsent | .read => none

/-- `ReadyGate::release`, and the return. -/
def release (drained : Except Error Unit) : World :=
  match w.failure.or w.deliveredSince with
  | none => { w with place := .returned drained }
  | some f =>
    let result := .error (.startFailed (a.name f.position) f.cause)
    if w.readyTx then { w.note (.sent (.error f.cause)) with place := .returned result
                                                             readyTx := false }
    else { w with place := .returned result }

/-- What the members returned. -/
def drained : Except Error Unit :=
  match w.firstError with
  | none => .ok ()
  | some e => .error (.other e)

/-- What `run` returns of an expired drain. -/
def expired : Except Error Unit :=
  .error (.other (w.firstError.getD (.chain "drain timeout expired")))

/-- Every task was joined. -/
def AllJoined : Prop := ∀ p, (w.hops p).state = .absent ∨ (w.hops p).state = .joined

end World

/-! ### The steps -/

section Steps

variable (a : Args) (w : World)

/-- A step of the hop at a position. -/
inductive HopStep (p : Nat) : World → Prop
  /-- The system hands out no port 0. -/
  | picks (hstate : (w.hops p).state = .picking) (hplace : a.isPublic p = false) {addr : SocketAddr}
      (hip : addr.ip = .ofOctets 127 0 0 1) (hfree : addr.port ∉ (w.hops p).taken)
      (hport : addr.port ≠ 0) : HopStep p (w.run p addr)
  | takesPublic (hstate : (w.hops p).state = .picking) (hplace : a.isPublic p = true) :
    HopStep p (w.run p a.flow.public)
  | pickCut (hstate : (w.hops p).state = .picking) (hplace : a.isPublic p = false)
      (hshutdown : w.shutdown = true) :
    HopStep p (w.setHop p ((w.hops p).goTo (.ended (.ok (.ok ())))))
  | pickFails (hstate : (w.hops p).state = .picking) (hplace : a.isPublic p = false) {e : IoError}
      (hrace : e.isPortRace = false) :
    HopStep p (w.setHop p (((w.hops p).report (.failed (.fatal ("picking a port for plugin '" ++
      a.name p ++ "' failed: " ++ e.text) e.errno))).goTo (.ended (.ok (.error (.other e.text))))))
  | reports {given : SocketAddr} (hstate : (w.hops p).state = .running given .live false false)
      (report : Report) :
    HopStep p ((w.note (.reported p report)).setHop p
      ((w.hops p).goTo (.running given (.full report) false false)))
  | drops {given : SocketAddr} (hstate : (w.hops p).state = .running given .live false false) :
    HopStep p (w.setHop p ((w.hops p).goTo (.running given .dropped false false)))
  | reads {given : SocketAddr} {report : Report}
      (hstate : (w.hops p).state = .running given (.full report) false false) :
    HopStep p (w.setHop p ((w.hops p).settle (!a.isPublic p) given (some report)))
  | readsNone {given : SocketAddr}
      (hstate : (w.hops p).state = .running given .dropped false false) :
    HopStep p (w.setHop p ((w.hops p).settle (!a.isPublic p) given none))
  | ends {given : SocketAddr} {channel : Channel} {settled : Bool}
      (hstate : (w.hops p).state = .running given channel settled false)
      (hrouted : Routed channel settled) (result : Except Tap.Error Unit) :
    HopStep p (w.setHop p ((w.hops p).goTo (.ended (.ok result))))
  | endsToRestart {given : SocketAddr} {channel : Channel} {settled : Bool}
      (hstate : (w.hops p).state = .running given channel settled true)
      (hrouted : Routed channel settled) : HopStep p (w.setHop p ((w.hops p).goTo .pausing))
  | pauseOver (hstate : (w.hops p).state = .pausing) (hshutdown : w.shutdown = false) :
    HopStep p (w.setHop p ((w.hops p).goTo .picking))
  | pauseCut (hstate : (w.hops p).state = .pausing) (hshutdown : w.shutdown = true) :
    HopStep p (w.setHop p ((w.hops p).goTo (.ended (.ok (.ok ())))))
  /-- It panics, or is aborted. -/
  | breaks (hstate : (w.hops p).state.Cuttable) (e : JoinError)
      (habort : e.isCancelled = true → w.place = .aborting) :
    HopStep p (w.setHop p ((w.hops p).goTo (.ended (.error e))))

/-- A step of `run`. -/
inductive RunStep : World → Prop
  | judgesFailed (hplace : w.place = .running) {p : Nat} (hpending : w.pending = some p)
      {e : StartError} (hdecided : (w.hops p).decided = .sent (.failed e)) : RunStep (w.fail p e)
  | judgesUndecided (hplace : w.place = .running) {p : Nat} (hpending : w.pending = some p)
      (hdecided : (w.hops p).decided = .sent .dropped ∨
        ((w.hops p).decided = .unsent ∧ (w.hops p).state.Finished))
      (hshutdown : w.shutdown = false) : RunStep (w.fail p exitedEarly)
  | preempted (hplace : w.place = .running) {p : Nat} (hpending : w.pending = some p)
      (hdecided : (∃ given report, (w.hops p).decided = .sent (.ready given report)) ∨
        (w.hops p).decided = .sent .dropped ∨
        ((w.hops p).decided = .unsent ∧ (w.hops p).state.Finished))
      (hshutdown : w.shutdown = true) : RunStep (w.readDecision p)
  | judgesReady (hplace : w.place = .running) {p : Nat} (hpending : w.pending = some p)
      {given : SocketAddr} {report : PluginReady}
      (hdecided : (w.hops p).decided = .sent (.ready given report)) (hshutdown : w.shutdown = false)
      (hmore : a.isPublic p = false) : RunStep (w.goOn a p given report)
  | judgesLastReady (hplace : w.place = .running) {p : Nat} (hpending : w.pending = some p)
      {given : SocketAddr} {report : PluginReady}
      (hdecided : (w.hops p).decided = .sent (.ready given report)) (hshutdown : w.shutdown = false)
      (hlast : a.isPublic p = true) : RunStep (w.settle p report)
  | joins {p : Nat} {joined : Joined} (hplace : w.place.isOver = false)
      (hstate : (w.hops p).state = .ended joined)
      (hkept : ∀ e, joined = .error e → w.place = .aborting → e.isCancelled = false) :
    RunStep ((w.recordExit joined).join p)
  /-- A task that was aborted. -/
  | skips {p : Nat} {e : JoinError} (hplace : w.place = .aborting)
      (hstate : (w.hops p).state = .ended (.error e)) (hcancelled : e.isCancelled = true) :
    RunStep (w.join p)
  /-- The end of the first phase. -/
  | leaves (hplace : w.place = .running) (hover : w.shutdown = true ∨ w.AllJoined) :
    RunStep { w with place := .draining
                     pending := none
                     unread := w.pending }
  | drains (hplace : w.place = .draining) (hjoined : w.AllJoined) : RunStep (w.release a w.drained)
  | expires (hplace : w.place = .draining) : RunStep { w with place := .aborting }
  | aborts (hplace : w.place = .aborting) (hjoined : w.AllJoined) : RunStep (w.release a w.expired)

/-- A step of the chain. `shutdown` may be cancelled from outside. -/
def Step (w' : World) : Prop := (∃ p, HopStep a w p w') ∨ RunStep a w w' ∨ w' = w.cancel

/-- A world that a chain can come to. -/
inductive Reachable (a : Args) : World → Prop
  | start (hhops : 0 < a.hops) : Reachable a (.start a)
  | step {w w' : World} (h : Reachable a w) (hstep : Step a w w') : Reachable a w'

end Steps

/-! ### What the log says -/

section Log

variable (a : Args)

/-- The plugins that were launched, newest first. -/
def launches : List Event → List Nat
  | [] => []
  | .launched _ plugin _ :: log => plugin :: launches log
  | .given _ _ :: log | .reported _ _ :: log | .cancelled :: log | .sent _ :: log => launches log

/-- What the caller was told, newest first. -/
def sends : List Event → List Message
  | [] => []
  | .sent message :: log => message :: sends log
  | .launched _ _ _ :: log | .given _ _ :: log | .reported _ _ :: log | .cancelled :: log =>
    sends log

/-- The reports of the first hops, each of which said that it is ready. -/
def Reports (reports : List PluginReady) (log : List Event) : Prop :=
  ∀ p report, reports[p]? = some report → .reported p (.ok report) ∈ log

/-- What a chain that is ready goes by: it was not told to stop when the last hop was judged. -/
def AllReady (chain : ChainReady) (older : List Event) : Prop :=
  ∃ newer rest reports, older = newer ++ rest ∧ .cancelled ∉ rest ∧ reports.length = a.hops ∧
    Reports reports rest ∧ chain.transports = served reports ∧
    reports.getLast?.map (·.listen) = some chain.listen

/-- A failure is no conflict, or the conflict of the public hop. -/
def Own (p : Nat) (e : StartError) (log : List Event) : Prop :=
  ∀ errno addr, e = .bindConflict errno addr → a.isPublic p = true ∧ .reported p (.error e) ∈ log

/-- What came before an event. -/
def Grounds (older : List Event) : Event → Prop
  | .launched p plugin remote => plugin = a.plugin p ∧
    (launches older).reverse = a.flow.order.take p ∧
    ((p = 0 ∧ remote = a.flow.destination) ∨
      ∃ q report, p = q + 1 ∧ .given q remote ∈ older ∧ .reported q (.ok report) ∈ older)
  | .given p addr => (a.isPublic p = true ∧ addr = a.flow.public) ∨
    (a.isPublic p = false ∧ addr.port ≠ 0 ∧ addr.port ∉ a.ends)
  | .sent (.ok chain) => AllReady a chain older
  | .sent (.error e) => ∃ p, Own a p e older
  | .reported _ _ | .cancelled => True

variable {a} {log : List Event}

theorem mem_sends {message : Message} : message ∈ sends log ↔ .sent message ∈ log := by
  induction log with
  | nil => exact iff_of_false List.not_mem_nil List.not_mem_nil
  | cons e log ih =>
    rw [List.mem_cons, ← ih]
    cases e with
    | sent m =>
      show message ∈ m :: sends log ↔ _
      rw [List.mem_cons, Event.sent.injEq]
    | _ => exact (or_iff_right nofun).symm

theorem Own.mono {p : Nat} {e : StartError} {log' : List Event} (h : Own a p e log)
    (hmem : ∀ e ∈ log, e ∈ log') : Own a p e log' := fun errno addr he ↦
  ⟨(h errno addr he).1, hmem _ (h errno addr he).2⟩

end Log

/-! ### The invariant -/

/-- What a hop knows of what it decided. -/
def Decided.Sound (a : Args) (log : List Event) (p : Nat) (given : Option SocketAddr) :
    Decided → Prop
  | .unsent | .read | .sent .dropped => True
  | .sent (.ready addr report) => given = some addr ∧ .reported p (.ok report) ∈ log
  | .sent (.failed e) => Own a p e log

/-- What holds where the task of a hop is. -/
def HopState.Sound (log : List Event) (p : Nat) (given : Option SocketAddr) (decided : Decided) :
    HopState → Prop
  | .absent => given = none ∧ decided = .unsent
  | .picking | .pausing => decided = .unsent
  | .running addr _ true restart => given = some addr ∧ (decided = .unsent ↔ restart = true)
  | .running addr channel false restart => given = some addr ∧ decided = .unsent ∧
    restart = false ∧ ∀ report, channel = .full report → .reported p report ∈ log
  | .ended _ | .joined => True

/-- What holds of a hop. -/
structure Sound (a : Args) (log : List Event) (p : Nat) (h : Hop) : Prop where
  state : h.state.Sound log p h.given h.decided
  decided : h.decided.Sound a log p h.given
  given : ∀ addr, h.given = some addr → .given p addr ∈ log ∧
    (a.isPublic p = false → addr.port ∉ h.taken)

/-- A failure that was delivered is on its way to the gate. -/
inductive Carried (hop : Hop) (failure : Option HopFailure) (p : Nat) (e : StartError) : Prop
  | full (given : SocketAddr) (hstate : hop.state = .running given (.full (.error e)) false false)
  | sent (hdecided : hop.decided = .sent (.failed e))
  | failed (hfailure : failure = some ⟨p, e⟩)

/-- A start failure that does not make its hop run again. -/
def Final (a : Args) (p : Nat) (e : StartError) : Prop :=
  Decision.restartCause (!a.isPublic p) (.failed e) = none

/-- What the caller was told. -/
inductive Account (a : Args) (next : Nat) (readyTx returned : Bool) (log : List Event) : Prop
  | untold (hsends : sends log = []) (hready : readyTx = a.registered)
      (hnext : next = a.hops → a.registered = false)
  | ready (chain : ChainReady) (hsends : sends log = [.ok chain]) (hready : readyTx = false)
      (hnext : next = a.hops)
  | failed (e : StartError) (hsends : sends log = [.error e]) (hover : returned = true)
      (hnext : next < a.hops)

/-- What holds in every world. -/
structure Inv (a : Args) (w : World) : Prop where
  justified : Justified (Grounds a) w.log
  sound : ∀ p, Sound a w.log p (w.hops p)
  absent : ∀ p, (w.hops p).state = .absent ↔ w.next < p ∨ a.hops ≤ p
  next : w.next ≤ a.hops
  launched : (launches w.log).reverse = a.flow.order.take (w.next + 1)
  read : ∀ p < w.next, (w.hops p).decided = .read
  waiting : ∀ p, (w.hops p).state ≠ .absent → (w.hops p).decided ≠ .read →
    w.pending = some p ∨ w.unread = some p
  starting : ∀ p, w.pending = some p ∨ w.unread = some p →
    p = w.next ∧ p < a.hops ∧ (w.hops p).decided ≠ .read ∧ w.failure = none
  running : (w.pending ≠ none → w.place = .running) ∧ (w.place = .running → w.unread = none)
  taken : ∀ p, w.pending = some p → (w.hops p).taken = w.taken
  ends : (∀ port ∈ a.ends, port ∈ w.taken) ∧
    ∀ p, (w.hops p).state ≠ .absent → ∀ port ∈ a.ends, port ∈ (w.hops p).taken
  apart : ∀ p q, p < q → (w.hops q).state ≠ .absent →
    ∃ addr, (w.hops p).given = some addr ∧ addr.port ∈ (w.hops q).taken
  remotes : (w.hops 0).remote = a.flow.destination ∧ ∀ p, (w.hops (p + 1)).state ≠ .absent →
    (w.hops p).given = some (w.hops (p + 1)).remote
  reports : ∃ reports, reports.length = w.next ∧ Reports reports w.log ∧
    w.transports = served reports
  quiet : w.shutdown = false → .cancelled ∉ w.log
  account : Account a w.next w.readyTx w.place.isOver w.log
  carried : ∀ p e, .reported p (.error e) ∈ w.log → Final a p e → Carried (w.hops p) w.failure p e
  failure : ∀ f, w.failure = some f → w.next < a.hops ∧ Own a f.position f.cause w.log
  returned : ∀ result, w.place = .returned result → w.AllJoined ∧
    ∀ p e, .reported p (.error e) ∈ w.log → Final a p e →
      result = .error (.startFailed (a.name p) e) ∧ (a.registered = true → sends w.log = [.error e])

section Sound

variable {a : Args} {log log' : List Event} {p : Nat}

theorem Reports.mono {reports : List PluginReady} (h : Reports reports log)
    (hmem : ∀ e ∈ log, e ∈ log') : Reports reports log' := fun p report hreport ↦
  hmem _ (h p report hreport)

theorem Decided.Sound.mono {given : Option SocketAddr} {decided : Decided}
    (h : decided.Sound a log p given) (hmem : ∀ e ∈ log, e ∈ log') :
    decided.Sound a log' p given := by
  cases decided with
  | unsent => trivial
  | read => trivial
  | sent decision =>
    cases decision with
    | ready addr report => exact ⟨h.1, hmem _ h.2⟩
    | failed e => exact Own.mono h hmem
    | dropped => trivial

variable {state : HopState}

theorem HopState.Sound.mono {given : Option SocketAddr} {decided : Decided}
    (h : state.Sound log p given decided) (hmem : ∀ e ∈ log, e ∈ log') :
    state.Sound log' p given decided := by
  cases state with
  | absent => exact h
  | picking => exact h
  | pausing => exact h
  | ended joined => trivial
  | joined => trivial
  | running addr channel settled restart =>
    cases settled with
    | true => exact h
    | false => exact ⟨h.1, h.2.1, h.2.2.1, fun report hfull ↦ hmem _ (h.2.2.2 report hfull)⟩

theorem Sound.mono {hop : Hop} (h : Sound a log p hop) (hmem : ∀ e ∈ log, e ∈ log') :
    Sound a log' p hop :=
  ⟨h.state.mono hmem, h.decided.mono hmem, fun addr haddr ↦
    ⟨hmem _ (h.given addr haddr).1, (h.given addr haddr).2⟩⟩

theorem Sound.goTo {hop : Hop} (h : Sound a log p hop)
    (hstate : state.Sound log p hop.given hop.decided) : Sound a log p (hop.goTo state) :=
  ⟨hstate, h.decided, h.given⟩

/-- A hop with a report that is not routed has decided nothing. -/
theorem Sound.unsettled {hop : Hop} (h : Sound a log p hop) {given : SocketAddr}
    {channel : Channel} {restart : Bool}
    (hstate : hop.state = .running given channel false restart) :
    hop.given = some given ∧ hop.decided = .unsent ∧ restart = false ∧
      ∀ report, channel = .full report → .reported p report ∈ log := by
  have hsound := h.state
  rw [hstate] at hsound
  exact hsound

theorem Sound.unsent_of_picking {hop : Hop} (h : Sound a log p hop)
    (hstate : hop.state = .picking) : hop.decided = .unsent := by
  have hsound := h.state
  rwa [hstate] at hsound

theorem Sound.unsent_of_pausing {hop : Hop} (h : Sound a log p hop)
    (hstate : hop.state = .pausing) : hop.decided = .unsent := by
  have hsound := h.state
  rwa [hstate] at hsound

theorem Sound.unsent_of_restart {hop : Hop} (h : Sound a log p hop) {given : SocketAddr}
    {channel : Channel} {settled : Bool}
    (hstate : hop.state = .running given channel settled true) : hop.decided = .unsent := by
  have hsound := h.state
  rw [hstate] at hsound
  cases settled with
  | true => exact hsound.2.2 rfl
  | false => exact hsound.2.1

/-- A failure that is carried stays so where its hop goes on. -/
theorem Carried.goTo {hop : Hop} {failure : Option HopFailure} {e : StartError}
    (h : Carried hop failure p e)
    (hrouted : ∀ given report, hop.state ≠ .running given (.full report) false false) :
    Carried (hop.goTo state) failure p e := by
  cases h with
  | full given hstate => exact absurd hstate (hrouted given _)
  | sent hdecided => exact .sent hdecided
  | failed hfailure => exact .failed hfailure

end Sound

/-! ### The steps of a hop -/

/-- The hop that an event is of. -/
def Event.hop? : Event → Option Nat
  | given p _ | reported p _ => some p
  | launched _ _ _ | cancelled | sent _ => none

section HopStep

variable {a : Args} {w w' : World} {p : Nat}

/-- A hop that decided nothing is the one that starts. -/
theorem Inv.starts (h : Inv a w) (hlive : (w.hops p).state ≠ .absent)
    (hread : (w.hops p).decided ≠ .read) : p = w.next ∧ p < a.hops ∧ w.failure = none := by
  obtain ⟨hnext, hlt, -, hfailure⟩ := h.starting p (h.waiting p hlive hread)
  exact ⟨hnext, hlt, hfailure⟩

theorem Inv.not_over (h : Inv a w) (hlive : (w.hops p).state ≠ .absent)
    (hjoined : (w.hops p).state ≠ .joined) {result : Except Error Unit} :
    w.place ≠ .returned result := fun hplace ↦
  ((h.returned result hplace).1 p).elim hlive hjoined

/-- A hop that decided nothing, and whose channel is empty, delivered no failure that ends it. -/
theorem Inv.undelivered (h : Inv a w) (hlive : (w.hops p).state ≠ .absent)
    (hunsent : (w.hops p).decided = .unsent)
    (hempty : ∀ given report, (w.hops p).state ≠ .running given (.full report) false false)
    {e : StartError} (hreported : .reported p (.error e) ∈ w.log) : ¬Final a p e := fun hfinal ↦ by
  have hread : (w.hops p).decided ≠ .read := by
    rw [hunsent]
    exact nofun
  cases h.carried p e hreported hfinal with
  | full given hstate => exact hempty given _ hstate
  | sent hdecided => cases hunsent.symm.trans hdecided
  | failed hfailure => cases (h.starts hlive hread).2.2.symm.trans hfailure

/-- What the log of a step of a hop keeps. -/
structure Grows (a : Args) (p : Nat) (log log' : List Event) : Prop where
  justified : Justified (Grounds a) log → Justified (Grounds a) log'
  mem : ∀ e ∈ log, e ∈ log'
  launches : launches log' = launches log
  sends : sends log' = sends log
  cancelled : .cancelled ∈ log' → .cancelled ∈ log
  others : ∀ q ≠ p, ∀ report, .reported q report ∈ log' → .reported q report ∈ log

theorem Grows.refl (log : List Event) : Grows a p log log :=
  ⟨id, fun _ ↦ id, rfl, rfl, id, fun _ _ _ ↦ id⟩

theorem Grows.cons {e : Event} {log : List Event} (hhop : e.hop? = some p)
    (hgrounds : Grounds a log e) : Grows a p log (e :: log) := by
  have hothers (q : Nat) (hq : q ≠ p) (report : Report) (hmem : .reported q report ∈ e :: log) :
      Event.reported q report ∈ log := by
    refine (List.mem_cons.1 hmem).resolve_left fun heq ↦ hq ?_
    rw [← heq] at hhop
    exact Option.some.inj hhop
  refine ⟨fun h ↦ ⟨hgrounds, h⟩, fun _ ↦ List.mem_cons_of_mem e, ?_, ?_, fun hmem ↦ ?_, hothers⟩
  · cases e <;> first | rfl | cases hhop
  · cases e <;> first | rfl | cases hhop
  · refine (List.mem_cons.1 hmem).resolve_left fun heq ↦ ?_
    rw [← heq] at hhop
    cases hhop

/-- What did not change of the hop that was set is as it was. -/
theorem update_same {hops : Nat → Hop} {hop : Hop} {β : Sort*} (f : Hop → β)
    (h : f hop = f (hops p)) (q : Nat) : f (update hops p hop q) = f (hops q) := by
  rcases eq_or_ne q p with rfl | hq
  · rwa [update_self]
  · rw [update_of_ne hq]

/-- What all hops have after one was set. -/
theorem forall_update {hops : Nat → Hop} {hop : Hop} {motive : Nat → Hop → Prop}
    (hself : motive p hop) (hothers : ∀ q ≠ p, motive q (hops q)) (q : Nat) :
    motive q (update hops p hop q) :=
  (Function.forall_update_iff hops motive).2 ⟨hself, hothers⟩ q

/-- **A hop that was launched goes on**: it keeps what it has to, and the others are as they
were. -/
theorem Inv.hop (h : Inv a w) {hop : Hop} {log : List Event} (hlog : Grows a p w.log log)
    (hlive : (w.hops p).state ≠ .absent) (hjoined : (w.hops p).state ≠ .joined)
    (hstate : hop.state ≠ .absent) (htaken : hop.taken = (w.hops p).taken)
    (hremote : hop.remote = (w.hops p).remote)
    (hgiven : hop.given = (w.hops p).given ∨ (w.hops p).decided ≠ .read)
    (hread : hop.decided = .read ↔ (w.hops p).decided = .read) (hsound : Sound a log p hop)
    (hcarried : ∀ e, .reported p (.error e) ∈ log → Final a p e → Carried hop w.failure p e) :
    Inv a { w with hops := update w.hops p hop
                   log := log } := by
  have habsent (q : Nat) : (update w.hops p hop q).state = .absent ↔ (w.hops q).state = .absent :=
    iff_of_eq (update_same (·.state = .absent) (propext (iff_of_false hstate hlive)) q)
  have hreads (q : Nat) : (update w.hops p hop q).decided = .read ↔ (w.hops q).decided = .read :=
    iff_of_eq (update_same (·.decided = .read) (propext hread) q)
  have htakes := update_same Hop.taken htaken
  have hremotes := update_same Hop.remote hremote
  -- a hop that another one forwards to is told nothing more
  have hgives {q r : Nat} (hqr : q < r) (hr : (w.hops r).state ≠ .absent) :
      (update w.hops p hop q).given = (w.hops q).given := by
    rcases hgiven with hgiven | hgiven
    · exact update_same Hop.given hgiven q
    · have hq : q ≠ p := by
        rintro rfl
        exact hr ((h.absent r).2 (.inl ((h.starts hlive hgiven).1 ▸ hqr)))
      rw [update_of_ne hq]
  exact
    { justified := hlog.justified h.justified
      sound := forall_update hsound fun q _ ↦ (h.sound q).mono hlog.mem
      absent := fun q ↦ (habsent q).trans (h.absent q)
      next := h.next
      launched := hlog.launches ▸ h.launched
      read := fun q hq ↦ (hreads q).2 (h.read q hq)
      waiting := fun q hlive' hread' ↦
        h.waiting q (mt (habsent q).2 hlive') (mt (hreads q).2 hread')
      starting := fun q hq ↦ by
        obtain ⟨hnext, hlt, hne, hfailure⟩ := h.starting q hq
        exact ⟨hnext, hlt, mt (hreads q).1 hne, hfailure⟩
      running := h.running
      taken := fun q hq ↦ (htakes q).trans (h.taken q hq)
      ends := ⟨h.ends.1, fun q hq port hport ↦
        (htakes q).symm ▸ h.ends.2 q (mt (habsent q).2 hq) port hport⟩
      apart := fun q r hqr hr ↦ by
        obtain ⟨addr, haddr, hport⟩ := h.apart q r hqr (mt (habsent r).2 hr)
        exact ⟨addr, (hgives hqr (mt (habsent r).2 hr)).trans haddr, (htakes r).symm ▸ hport⟩
      remotes := ⟨(hremotes 0).trans h.remotes.1, fun q hq ↦ by
        have hold := mt (habsent (q + 1)).2 hq
        show (update w.hops p hop q).given =
          some (update w.hops p hop (q + 1)).remote
        rw [hgives (Nat.lt_succ_self q) hold, hremotes, h.remotes.2 q hold]⟩
      reports := by
        obtain ⟨reports, hlength, hreports, hserved⟩ := h.reports
        exact ⟨reports, hlength, hreports.mono hlog.mem, hserved⟩
      quiet := fun hshutdown hmem ↦ h.quiet hshutdown (hlog.cancelled hmem)
      account := by
        cases h.account with
        | untold hsends hready hnext => exact .untold (hlog.sends.trans hsends) hready hnext
        | ready chain hsends hready hnext =>
          exact .ready chain (hlog.sends.trans hsends) hready hnext
        | failed e hsends hover hshort => exact .failed e (hlog.sends.trans hsends) hover hshort
      carried := forall_update (motive := fun q hop ↦ ∀ e, .reported q (.error e) ∈ log →
        Final a q e → Carried hop w.failure q e) hcarried
        fun q hq e hmem ↦ h.carried q e (hlog.others q hq _ hmem)
      failure := fun f hf ↦ ⟨(h.failure f hf).1, (h.failure f hf).2.mono hlog.mem⟩
      returned := fun result hplace ↦ absurd hplace (h.not_over hlive hjoined) }

/-- Only the place of the task changes. -/
theorem Inv.goTo (h : Inv a w) {state : HopState} (hlive : (w.hops p).state ≠ .absent)
    (hjoined : (w.hops p).state ≠ .joined) (hstate : state ≠ .absent)
    (hsound : state.Sound w.log p (w.hops p).given (w.hops p).decided)
    (hrouted : ∀ given report, (w.hops p).state ≠ .running given (.full report) false false) :
    Inv a (w.setHop p ((w.hops p).goTo state)) :=
  h.hop (.refl w.log) hlive hjoined hstate rfl rfl (Or.inl rfl) Iff.rfl ((h.sound p).goTo hsound)
    fun e hmem hfinal ↦ (h.carried p e hmem hfinal).goTo hrouted

/-- A plugin is told to listen. -/
theorem Inv.run (h : Inv a w) {addr : SocketAddr} (hstate : (w.hops p).state = .picking)
    (hfree : a.isPublic p = false → addr.port ∉ (w.hops p).taken)
    (hgrounds : Grounds a w.log (.given p addr)) : Inv a (w.run p addr) := by
  have hunsent := (h.sound p).unsent_of_picking hstate
  have hread : (w.hops p).decided ≠ .read := by
    rw [hunsent]
    exact nofun
  have hlive : (w.hops p).state ≠ .absent := by
    rw [hstate]
    exact nofun
  have hlog : Grows a p w.log (.given p addr :: w.log) := .cons rfl hgrounds
  have hnot {e : StartError} (hmem : .reported p (.error e) ∈ w.log) : ¬Final a p e :=
    h.undelivered hlive hunsent (fun _ _ heq ↦ nomatch hstate.symm.trans heq) hmem
  refine h.hop hlog hlive (by rw [hstate]; exact nofun) nofun rfl rfl (Or.inr hread) Iff.rfl
    ⟨⟨rfl, hunsent, rfl, nofun⟩, ?_, ?_⟩ fun e hmem hfinal ↦ ?_
  · show Decided.Sound a _ p (some addr) (w.hops p).decided
    rw [hunsent]
    trivial
  · intro addr' heq
    cases heq
    exact ⟨.head _, hfree⟩
  · exact absurd hfinal (hnot ((List.mem_cons.1 hmem).resolve_left nofun))

/-- What the relay of an attempt decides. -/
theorem Inv.routes (h : Inv a w) {given : SocketAddr} {channel : Channel}
    (hstate : (w.hops p).state = .running given channel false false) {outcome : Option Report}
    (hchannel : ∀ report, outcome = some report → channel = .full report)
    (hfull : ∀ report, channel = .full report → outcome = some report) :
    Inv a (w.setHop p ((w.hops p).settle (!a.isPublic p) given outcome)) := by
  obtain ⟨hgiven, hunsent, -, hreported⟩ := (h.sound p).unsettled hstate
  have hread : (w.hops p).decided ≠ .read := by
    rw [hunsent]
    rintro ⟨⟩
  have hlive : (w.hops p).state ≠ .absent := by
    rw [hstate]
    rintro ⟨⟩
  have hjoined : (w.hops p).state ≠ .joined := by
    rw [hstate]
    rintro ⟨⟩
  -- what was delivered is what the relay reads
  have hdelivered {e : StartError} (hmem : .reported p (.error e) ∈ w.log) (hfinal : Final a p e) :
      outcome = some (.error e) := by
    cases h.carried p e hmem hfinal with
    | full given' hfull' =>
      rw [hstate] at hfull'
      cases hfull'
      exact hfull _ rfl
    | sent hdecided => cases hunsent.symm.trans hdecided
    | failed hfailure => cases (h.starts hlive hread).2.2.symm.trans hfailure
  rw [Hop.settle]
  cases hcause : (decisionOf given outcome).restartCause (!a.isPublic p) with
  | some cause =>
    refine h.hop (.refl w.log) hlive hjoined (by rintro ⟨⟩) rfl rfl (Or.inl rfl) Iff.rfl
      ⟨⟨hgiven, iff_of_true hunsent rfl⟩, (h.sound p).decided, (h.sound p).given⟩
      fun e hmem hfinal ↦ ?_
    rw [hdelivered hmem hfinal] at hcause
    cases hcause.symm.trans hfinal
  | none =>
    have hdecided : ((w.hops p).report (decisionOf given outcome)).decided =
        .sent (decisionOf given outcome) := by
      rw [Hop.report, hunsent]
    refine h.hop (.refl w.log) hlive hjoined (by rintro ⟨⟩) rfl rfl (Or.inl rfl)
      (iff_of_false (fun heq ↦ by cases hdecided.symm.trans heq) hread)
      ⟨⟨hgiven, iff_of_false (fun heq ↦ by cases hdecided.symm.trans heq) (by rintro ⟨⟩)⟩, ?_,
        (h.sound p).given⟩ fun e hmem hfinal ↦ .sent ?_
    · show Decided.Sound a w.log p (w.hops p).given _
      rw [hdecided]
      cases outcome with
      | none => trivial
      | some report =>
        have hmem := hreported report (hchannel report rfl)
        cases report with
        | ok report => exact ⟨hgiven, hmem⟩
        | error e =>
          intro errno addr he
          subst he
          cases hpublic : a.isPublic p with
          | true => exact ⟨rfl, hmem⟩
          | false =>
            rw [hpublic] at hcause
            cases hcause
    · show ((w.hops p).report (decisionOf given outcome)).decided = _
      rw [hdecided, hdelivered hmem hfinal]
      rfl

/-- **What a step of a hop keeps.** -/
theorem Inv.hopStep (h : Inv a w) (hstep : HopStep a w p w') : Inv a w' := by
  have hcut {state : HopState} (heq : (w.hops p).state = state) (hne : state ≠ .absent) :
      (w.hops p).state ≠ .absent := heq ▸ hne
  cases hstep with
  | @picks hstate hplace addr hip hfree hport =>
    have hends : addr.port ∉ a.ends := fun hmem ↦
      hfree (h.ends.2 p (hcut hstate (by rintro ⟨⟩)) addr.port hmem)
    exact h.run hstate (fun _ ↦ hfree) (Or.inr ⟨hplace, hport, hends⟩)
  | takesPublic hstate hplace =>
    exact h.run hstate (fun hinter ↦ by cases hplace.symm.trans hinter) (Or.inl ⟨hplace, rfl⟩)
  | pickCut hstate hplace hshutdown =>
    exact h.goTo (hcut hstate (by rintro ⟨⟩)) (by rw [hstate]; rintro ⟨⟩) (by rintro ⟨⟩) trivial
      fun _ _ heq ↦ by cases hstate.symm.trans heq
  | @pickFails hstate hplace e hrace =>
    have hunsent := (h.sound p).unsent_of_picking hstate
    have hlive := hcut hstate (by rintro ⟨⟩)
    have hempty (given : SocketAddr) (report : Report) :
        (w.hops p).state ≠ .running given (.full report) false false := fun heq ↦
      by cases hstate.symm.trans heq
    have hdecided (decision : Decision) :
        ((w.hops p).report decision).decided = .sent decision := by
      rw [Hop.report, hunsent]
    refine h.hop (.refl w.log) hlive (by rw [hstate]; rintro ⟨⟩) (by rintro ⟨⟩) rfl rfl (Or.inl rfl)
      (iff_of_false (fun heq ↦ by cases (hdecided _).symm.trans heq) (by rw [hunsent]; rintro ⟨⟩))
      ⟨trivial, ?_, (h.sound p).given⟩ fun e' hmem hfinal ↦
        absurd hfinal (h.undelivered hlive hunsent hempty hmem)
    show Decided.Sound a w.log p (w.hops p).given ((w.hops p).report _).decided
    rw [hdecided]
    exact fun errno addr heq ↦ by cases heq
  | @reports given hstate report =>
    obtain ⟨hgiven, hunsent, -, -⟩ := (h.sound p).unsettled hstate
    have hlive := hcut hstate (by rintro ⟨⟩)
    have hlog : Grows a p w.log (.reported p report :: w.log) := .cons rfl trivial
    have hsound := (h.sound p).mono hlog.mem
    refine h.hop hlog hlive (by rw [hstate]; rintro ⟨⟩) (by rintro ⟨⟩) rfl rfl (Or.inl rfl) Iff.rfl
      ⟨⟨hgiven, hunsent, rfl, fun report' hfull ↦ ?_⟩, hsound.decided, hsound.given⟩
      fun e hmem hfinal ↦ ?_
    · cases hfull
      exact .head _
    · rcases List.mem_cons.1 hmem with heq | hold
      · cases heq
        exact .full given rfl
      · have hempty (given' : SocketAddr) (report' : Report) :
            (w.hops p).state ≠ .running given' (.full report') false false := fun heq ↦
          by cases hstate.symm.trans heq
        exact absurd hfinal (h.undelivered hlive hunsent hempty hold)
  | drops hstate =>
    obtain ⟨hgiven, hunsent, -, -⟩ := (h.sound p).unsettled hstate
    exact h.goTo (hcut hstate (by rintro ⟨⟩)) (by rw [hstate]; rintro ⟨⟩) (by rintro ⟨⟩)
      ⟨hgiven, hunsent, rfl, (by rintro _ ⟨⟩)⟩ fun _ _ heq ↦ by cases hstate.symm.trans heq
  | reads hstate =>
    refine h.routes hstate (fun report heq ↦ ?_) fun report heq ↦ ?_
    · cases heq
      rfl
    · cases heq
      rfl
  | readsNone hstate => exact h.routes hstate (by simp) (by rintro _ ⟨⟩)
  | @ends given channel settled hstate hrouted result =>
    refine h.goTo (hcut hstate (by rintro ⟨⟩)) (by rw [hstate]; rintro ⟨⟩) (by rintro ⟨⟩) trivial
      fun given' report heq ↦ ?_
    rw [hstate] at heq
    cases heq
    exact hrouted.elim (by rintro ⟨⟩) (by rintro ⟨⟩)
  | @endsToRestart given channel settled hstate hrouted =>
    refine h.goTo (hcut hstate (by rintro ⟨⟩)) (by rw [hstate]; rintro ⟨⟩) (by rintro ⟨⟩)
      ((h.sound p).unsent_of_restart hstate) fun given' report heq ↦ ?_
    rw [hstate] at heq
    cases heq
  | pauseOver hstate hshutdown =>
    exact h.goTo (hcut hstate (by rintro ⟨⟩)) (by rw [hstate]; rintro ⟨⟩) (by rintro ⟨⟩)
      ((h.sound p).unsent_of_pausing hstate) fun _ _ heq ↦ by cases hstate.symm.trans heq
  | pauseCut hstate hshutdown =>
    exact h.goTo (hcut hstate (by rintro ⟨⟩)) (by rw [hstate]; rintro ⟨⟩) (by rintro ⟨⟩) trivial
      fun _ _ heq ↦ by cases hstate.symm.trans heq
  | breaks hstate e habort =>
    refine h.goTo (fun heq ↦ ?_) (fun heq ↦ ?_) (by rintro ⟨⟩) trivial fun given report heq ↦ ?_
    · rw [heq] at hstate
      exact hstate
    · rw [heq] at hstate
      exact hstate
    · rw [heq] at hstate
      exact hstate.elim (by rintro ⟨⟩) (by rintro ⟨⟩)

end HopStep

/-! ### The steps of `run` -/

section RunStep

variable {a : Args} {w w' : World} {p : Nat}

/-- The chain is told to stop. -/
theorem Inv.cancel (h : Inv a w) : Inv a w.cancel := by
  have hmem (e : Event) (he : e ∈ w.log) : e ∈ Event.cancelled :: w.log := .tail _ he
  rw [World.cancel]
  split
  · exact h
  · exact
      { h with
        justified := ⟨trivial, h.justified⟩
        sound := fun q ↦ (h.sound q).mono hmem
        reports := by
          obtain ⟨reports, hlength, hreports, hserved⟩ := h.reports
          exact ⟨reports, hlength, hreports.mono hmem, hserved⟩
        quiet := nofun
        account := by
          cases h.account with
          | untold hsends hready hnext => exact .untold hsends hready hnext
          | ready chain hsends hready hnext => exact .ready chain hsends hready hnext
          | failed e hsends hover hshort => exact .failed e hsends hover hshort
        carried := fun q e hreported ↦
          h.carried q e ((List.mem_cons.1 hreported).resolve_left nofun)
        failure := fun f hf ↦ ⟨(h.failure f hf).1, (h.failure f hf).2.mono hmem⟩
        returned := fun result hplace ↦ ⟨(h.returned result hplace).1, fun q e hreported ↦
          (h.returned result hplace).2 q e ((List.mem_cons.1 hreported).resolve_left nofun)⟩ }

/-- What a hop that is read keeps. -/
theorem heard_same {β : Sort*} (f : Hop → β) (h : ∀ hop : Hop, f hop.heard = f hop)
    (hops : Nat → Hop) (p q : Nat) : f (update hops p (hops p).heard q) = f (hops q) :=
  update_same f (h _) q

variable {log : List Event}

theorem Sound.heard {hop : Hop} (h : Sound a log p hop)
    (hstate : hop.decided ≠ .unsent ∨ hop.state.Finished) : Sound a log p hop.heard := by
  refine ⟨?_, trivial, h.given⟩
  have hsound := h.state
  show hop.state.Sound log p hop.given .read
  cases hat : hop.state with
  | absent =>
    rw [hat] at hsound hstate
    exact hstate.elim (absurd hsound.2) False.elim
  | picking =>
    rw [hat] at hsound hstate
    exact hstate.elim (absurd hsound) False.elim
  | pausing =>
    rw [hat] at hsound hstate
    exact hstate.elim (absurd hsound) False.elim
  | ended joined => trivial
  | joined => trivial
  | running addr channel settled restart =>
    rw [hat] at hsound hstate
    have hsent : hop.decided ≠ .unsent := hstate.elim id False.elim
    cases settled with
    | true => exact ⟨hsound.1, iff_of_false nofun fun hrestart ↦ hsent (hsound.2.2 hrestart)⟩
    | false => exact absurd hsound.2.1 hsent

/-- The decision of a hop is read. -/
theorem Inv.judge (h : Inv a w) (hplace : w.place = .running) (hpending : w.pending = some p)
    (hstate : (w.hops p).decided ≠ .unsent ∨ (w.hops p).state.Finished)
    (failure : Option HopFailure)
    (hfailure : ∀ f, failure = some f → w.next < a.hops ∧ Own a f.position f.cause w.log)
    (hcarried : ∀ e, .reported p (.error e) ∈ w.log → Final a p e → failure = some ⟨p, e⟩) :
    Inv a { w.readDecision p with failure := failure } := by
  obtain ⟨hnext, hlt, hne, hnone⟩ := h.starting p (Or.inl hpending)
  have hself : (update w.hops p (w.hops p).heard p).decided = .read := by
    rw [update_self]
    rfl
  have hother {q : Nat} (hq : q ≠ p) : update w.hops p (w.hops p).heard q = w.hops q :=
    update_of_ne hq _ _
  have hstates := heard_same Hop.state (fun _ ↦ rfl) w.hops p
  have hgives := heard_same Hop.given (fun _ ↦ rfl) w.hops p
  have htakes := heard_same Hop.taken (fun _ ↦ rfl) w.hops p
  have hremotes := heard_same Hop.remote (fun _ ↦ rfl) w.hops p
  have hunread : w.unread = none := h.running.2 hplace
  exact
    { h with
      sound := forall_update ((h.sound p).heard hstate) fun q _ ↦ h.sound q
      absent := fun q ↦ (congrArg (· = HopState.absent) (hstates q)).to_iff.trans (h.absent q)
      read := fun q hq ↦ by
        show (update w.hops p (w.hops p).heard q).decided = .read
        rw [hother (hnext ▸ Nat.ne_of_lt hq)]
        exact h.read q hq
      waiting := fun q hlive hread ↦ by
        have hq : q ≠ p := by
          rintro rfl
          exact hread hself
        have hlive' : (update w.hops p (w.hops p).heard q).state ≠ .absent := hlive
        have hread' : (update w.hops p (w.hops p).heard q).decided ≠ .read := hread
        rw [hother hq] at hlive' hread'
        rcases h.waiting q hlive' hread' with hq' | hq'
        · exact absurd (Option.mem_unique hq' hpending) hq
        · cases hunread.symm.trans hq'
      starting := fun q hq ↦ hq.elim nofun fun hq ↦ nomatch hunread.symm.trans hq
      running := ⟨fun _ ↦ hplace, fun _ ↦ hunread⟩
      taken := nofun
      ends := ⟨h.ends.1, fun q hq port hport ↦ (htakes q).symm ▸
        h.ends.2 q (hstates q ▸ hq) port hport⟩
      apart := fun q r hqr hr ↦ by
        obtain ⟨addr, haddr, hport⟩ := h.apart q r hqr (hstates r ▸ hr)
        exact ⟨addr, (hgives q).trans haddr, (htakes r).symm ▸ hport⟩
      remotes := ⟨(hremotes 0).trans h.remotes.1, fun q hq ↦ (hgives q).trans
        ((h.remotes.2 q (hstates (q + 1) ▸ hq)).trans (congrArg some (hremotes (q + 1)).symm))⟩
      carried := forall_update (motive := fun q hop ↦ ∀ e, .reported q (.error e) ∈ w.log →
          Final a q e → Carried hop failure q e)
          (fun e hmem hfinal ↦ .failed (hcarried e hmem hfinal)) fun q _ e hmem hfinal ↦ by
        cases h.carried q e hmem hfinal with
        | full given hfull => exact .full given hfull
        | sent hdecided => exact .sent hdecided
        | failed hfailed => cases hnone.symm.trans hfailed
      failure := hfailure
      returned := fun result hover ↦ nomatch hplace.symm.trans hover }

theorem Reports.snoc {reports : List PluginReady} {report : PluginReady} (h : Reports reports log)
    (hreport : .reported reports.length (.ok report) ∈ log) :
    Reports (reports ++ [report]) log := by
  intro q report' hq
  rcases Nat.lt_trichotomy q reports.length with hlt | rfl | hgt
  · rw [List.getElem?_append_left hlt] at hq
    exact h q report' hq
  · rw [List.getElem?_concat_length] at hq
    cases hq
    exact hreport
  · have hlen : (reports ++ [report]).length ≤ q := by
      rw [List.length_append]
      exact hgt
    rw [List.getElem?_eq_none hlen] at hq
    cases hq

theorem served_snoc (reports : List PluginReady) (report : PluginReady) :
    served (reports ++ [report]) = served reports &&& report.transports := by
  rw [served, served, List.foldl_append]
  rfl

theorem length_order (a : Args) : a.flow.order.length = a.hops := by
  show (flow a.mode a.hops a.localAddr a.remoteAddr).order.length = a.hops
  cases a.mode with
  | client => exact List.length_reverse.trans List.length_range
  | server => exact List.length_range

/-- One more plugin of the order. -/
theorem take_succ_order {p : Nat} (hp : p < a.hops) :
    a.flow.order.take (p + 1) = a.flow.order.take p ++ [a.plugin p] := by
  have hlt : p < a.flow.order.length := (length_order a).symm ▸ hp
  rw [List.take_add_one, Args.plugin, List.getD_eq_getElem?_getD, List.getElem?_eq_getElem hlt]
  rfl

/-- The hops that were launched have heard. -/
theorem Inv.given (h : Inv a w) {given : SocketAddr} {report : PluginReady}
    (hdecided : (w.hops p).decided = .sent (.ready given report)) :
    (w.hops p).given = some given ∧ .given p given ∈ w.log ∧ .reported p (.ok report) ∈ w.log := by
  have hsound := (h.sound p).decided
  rw [hdecided] at hsound
  exact ⟨hsound.1, ((h.sound p).given given hsound.1).1, hsound.2⟩

/-- What the start goes on from, once a hop is ready. -/
structure Cleared (a : Args) (w : World) (given : SocketAddr) (report : PluginReady) : Prop where
  inv : Inv a w
  place : w.place = .running
  pending : w.pending = none
  failure : w.failure = none
  shutdown : w.shutdown = false
  next : w.next < a.hops
  read : (w.hops w.next).decided = .read
  taken : (w.hops w.next).taken = w.taken
  given : (w.hops w.next).given = some given
  reported : .reported w.next (.ok report) ∈ w.log

/-- **The next hop is launched.** -/
theorem Cleared.launch {given : SocketAddr} {report : PluginReady} (h : Cleared a w given report)
    (hmore : w.next + 1 < a.hops) :
    Inv a (World.launch a { w with next := w.next + 1
                                   transports := w.transports &&& report.transports
                                   taken := w.taken ++ [given.port]
                                   forwardTo := given } (w.next + 1)) := by
  have hinv := h.inv
  have hunread : w.unread = none := hinv.running.2 h.place
  have hfresh : (w.hops (w.next + 1)).state = .absent :=
    (hinv.absent _).2 (Or.inl (Nat.lt_succ_self w.next))
  have hlive : (w.hops w.next).state ≠ .absent := fun heq ↦
    ((hinv.absent _).1 heq).elim (Nat.lt_irrefl _) (Nat.not_le.2 h.next)
  have hgiven := ((hinv.sound w.next).given given h.given).1
  have hmem (e : Event) (he : e ∈ w.log) :
      e ∈ Event.launched (w.next + 1) (a.plugin (w.next + 1)) given :: w.log :=
    .tail _ he
  let hop : Hop := ⟨given, w.taken ++ [given.port], none, .picking, .unsent⟩
  have hself : update w.hops (w.next + 1) hop (w.next + 1) = hop :=
    update_self _ _ _
  have hother {q : Nat} (hq : q ≠ w.next + 1) :
      update w.hops (w.next + 1) hop q = w.hops q := update_of_ne hq _ _
  have hlate {q : Nat} (hq : q < w.next + 1) : q ≠ w.next + 1 := Nat.ne_of_lt hq
  exact
    { justified := by
        refine ⟨⟨rfl, hinv.launched, Or.inr ⟨w.next, report, rfl, hgiven, h.reported⟩⟩,
          hinv.justified⟩
      sound := fun q ↦ by
        show Sound a _ q (update w.hops (w.next + 1) hop q)
        by_cases hq : q = w.next + 1
        · rw [hq, hself]
          exact ⟨rfl, trivial, nofun⟩
        · rw [hother hq]
          exact (hinv.sound q).mono hmem
      absent := fun q ↦ by
        show (update w.hops (w.next + 1) hop q).state = .absent ↔ w.next + 1 < q ∨ _
        by_cases hq : q = w.next + 1
        · rw [hq, hself]
          exact iff_of_false nofun fun hlt ↦ by omega
        · rw [hother hq, hinv.absent]
          omega
      next := Nat.le_of_lt hmore
      launched := by
        show (a.plugin (w.next + 1) :: launches w.log).reverse = a.flow.order.take (w.next + 1 + 1)
        rw [List.reverse_cons, hinv.launched, ← take_succ_order hmore]
      read := fun q hq ↦ by
        show (update w.hops (w.next + 1) hop q).decided = .read
        rw [hother (hlate hq)]
        rcases Nat.lt_succ_iff_lt_or_eq.1 hq with hlt | rfl
        · exact hinv.read q hlt
        · exact h.read
      waiting := fun q hlive' hread' ↦ by
        by_cases hq : q = w.next + 1
        · exact Or.inl (congrArg some hq.symm)
        · have hlive'' : (update w.hops (w.next + 1) hop q).state ≠ .absent := hlive'
          have hread'' : (update w.hops (w.next + 1) hop q).decided ≠ .read := hread'
          rw [hother hq] at hlive'' hread''
          rcases hinv.waiting q hlive'' hread'' with hq' | hq'
          · cases h.pending.symm.trans hq'
          · cases hunread.symm.trans hq'
      starting := fun q hq ↦ by
        rcases hq with hq | hq
        · obtain rfl : w.next + 1 = q := Option.some.inj hq
          refine ⟨rfl, hmore, ?_, h.failure⟩
          show (update w.hops (w.next + 1) hop (w.next + 1)).decided ≠ .read
          rw [hself]
          exact nofun
        · cases hunread.symm.trans hq
      running := ⟨fun _ ↦ h.place, fun _ ↦ hunread⟩
      taken := fun q hq ↦ by
        obtain rfl : w.next + 1 = q := Option.some.inj hq
        show (update w.hops (w.next + 1) hop (w.next + 1)).taken = w.taken ++ [given.port]
        rw [hself]
      ends := by
        refine ⟨fun port hport ↦ List.mem_append_left _ (hinv.ends.1 port hport),
          fun q hq port hport ↦ ?_⟩
        show port ∈ (update w.hops (w.next + 1) hop q).taken
        by_cases hq' : q = w.next + 1
        · rw [hq', hself]
          exact List.mem_append_left _ (hinv.ends.1 port hport)
        · have hq'' : (update w.hops (w.next + 1) hop q).state ≠ .absent := hq
          rw [hother hq'] at hq'' ⊢
          exact hinv.ends.2 q hq'' port hport
      apart := fun q r hqr hr ↦ by
        have hr' : (update w.hops (w.next + 1) hop r).state ≠ .absent := hr
        show ∃ addr, (update w.hops (w.next + 1) hop q).given = some addr ∧
          addr.port ∈ (update w.hops (w.next + 1) hop r).taken
        by_cases hlast : r = w.next + 1
        · subst hlast
          rw [hself, hother (hlate hqr)]
          rcases Nat.lt_succ_iff_lt_or_eq.1 hqr with hlt | rfl
          · obtain ⟨addr, haddr, hport⟩ := hinv.apart q w.next hlt hlive
            exact ⟨addr, haddr, List.mem_append_left _ (h.taken ▸ hport)⟩
          · exact ⟨given, h.given, List.mem_append_right _ (List.mem_singleton_self _)⟩
        · rw [hother hlast] at hr' ⊢
          have hle : ¬(w.next < r ∨ a.hops ≤ r) := mt (hinv.absent r).2 hr'
          rw [hother (by omega)]
          exact hinv.apart q r hqr hr'
      remotes := by
        refine ⟨?_, fun q hq ↦ ?_⟩
        · show (update w.hops (w.next + 1) hop 0).remote = a.flow.destination
          rw [hother (Nat.succ_ne_zero _).symm]
          exact hinv.remotes.1
        · have hq' : (update w.hops (w.next + 1) hop (q + 1)).state ≠ .absent := hq
          show (update w.hops (w.next + 1) hop q).given =
            some (update w.hops (w.next + 1) hop (q + 1)).remote
          by_cases hlast : q = w.next
          · subst hlast
            rw [hself, hother (Nat.ne_of_lt (Nat.lt_succ_self _)), h.given]
          · rw [hother fun heq ↦ hlast (Nat.succ.inj heq)] at hq' ⊢
            have hle : ¬(w.next < q + 1 ∨ a.hops ≤ q + 1) := mt (hinv.absent (q + 1)).2 hq'
            rw [hother (by omega)]
            exact hinv.remotes.2 q hq'
      reports := by
        obtain ⟨reports, hlength, hreports, hserved⟩ := hinv.reports
        refine ⟨reports ++ [report], ?_, (hreports.snoc (hlength ▸ h.reported)).mono hmem, ?_⟩
        · rw [List.length_append, hlength]
          rfl
        · show w.transports &&& report.transports = _
          rw [served_snoc, hserved]
      quiet := fun hshutdown hcancelled ↦
        hinv.quiet hshutdown ((List.mem_cons.1 hcancelled).resolve_left nofun)
      account := by
        have hne : w.next + 1 ≠ a.hops := Nat.ne_of_lt hmore
        cases hinv.account with
        | untold hsends hready hnext => exact .untold hsends hready fun heq ↦ absurd heq hne
        | ready chain hsends hready hnext => exact absurd hnext (Nat.ne_of_lt h.next)
        | failed e hsends hover _ =>
          rw [h.place] at hover
          cases hover
      carried := fun q e hreported hfinal ↦ by
        have hold : .reported q (.error e) ∈ w.log := (List.mem_cons.1 hreported).resolve_left nofun
        by_cases hq : q = w.next + 1
        · subst hq
          have hsound := (hinv.sound (w.next + 1)).state
          rw [hfresh] at hsound
          cases hinv.carried _ e hold hfinal with
          | full given' hfull => cases hfresh.symm.trans hfull
          | sent hdecided => cases hsound.2.symm.trans hdecided
          | failed hfailed => cases h.failure.symm.trans hfailed
        · show Carried (update w.hops (w.next + 1) hop q) w.failure q e
          rw [hother hq]
          exact hinv.carried q e hold hfinal
      failure := fun f hf ↦ nomatch h.failure.symm.trans hf
      returned := fun result hover ↦ nomatch h.place.symm.trans hover }

/-- **The chain is ready.** -/
theorem Cleared.settle {given : SocketAddr} {report : PluginReady} (h : Cleared a w given report)
    (hlast : w.next + 1 = a.hops) {readyTx : Bool}
    (hlog : (w.readyTx = false ∧ readyTx = false ∧ log = w.log) ∨
      (w.readyTx = true ∧ readyTx = false ∧
      log = .sent (.ok ⟨report.listen, w.transports &&& report.transports⟩) :: w.log)) :
    Inv a { w with next := w.next + 1
                   transports := w.transports &&& report.transports
                   readyTx := readyTx
                   log := log } := by
  have hinv := h.inv
  obtain ⟨reports, hlength, hreports, hserved⟩ := hinv.reports
  have hsnoc : Reports (reports ++ [report]) w.log := hreports.snoc (hlength ▸ h.reported)
  have hlength' : (reports ++ [report]).length = w.next + 1 := by
    rw [List.length_append, hlength]
    rfl
  have hserved' : w.transports &&& report.transports = served (reports ++ [report]) := by
    rw [served_snoc, hserved]
  have hunread : w.unread = none := hinv.running.2 h.place
  have hsends : sends w.log = [] ∧ w.readyTx = a.registered := by
    cases hinv.account with
    | untold hsends hready hnext => exact ⟨hsends, hready⟩
    | ready chain hsends hready hnext => exact absurd hnext (Nat.ne_of_lt h.next)
    | failed e hsends hover _ =>
      rw [h.place] at hover
      cases hover
  have hgrounds : AllReady a ⟨report.listen, w.transports &&& report.transports⟩ w.log := by
    refine ⟨[], w.log, reports ++ [report], rfl, hinv.quiet h.shutdown, hlength'.trans hlast, hsnoc,
      hserved', ?_⟩
    rw [List.getLast?_concat]
    rfl
  have hmem (e : Event) (he : e ∈ w.log) : e ∈ log := by
    rcases hlog with ⟨-, -, rfl⟩ | ⟨-, -, rfl⟩
    · exact he
    · exact .tail _ he
  have hold (e : Event) (he : e ∈ log) (hne : ∀ message, e ≠ .sent message) : e ∈ w.log := by
    rcases hlog with ⟨-, -, rfl⟩ | ⟨-, -, rfl⟩
    · exact he
    · exact (List.mem_cons.1 he).resolve_left (hne _)
  have hlaunches : launches log = launches w.log := by
    rcases hlog with ⟨-, -, rfl⟩ | ⟨-, -, rfl⟩ <;> rfl
  exact
    { hinv with
      justified := by
        rcases hlog with ⟨-, -, rfl⟩ | ⟨-, -, rfl⟩
        · exact hinv.justified
        · exact ⟨hgrounds, hinv.justified⟩
      sound := fun q ↦ (hinv.sound q).mono hmem
      absent := fun q ↦ (hinv.absent q).trans (by
        show _ ↔ w.next + 1 < q ∨ a.hops ≤ q
        omega)
      next := hlast.le
      launched := by
        have hlen : a.flow.order.length ≤ w.next + 1 := (length_order a).trans_le hlast.ge
        show (launches log).reverse = a.flow.order.take (w.next + 1 + 1)
        rw [hlaunches, hinv.launched, List.take_of_length_le hlen,
          List.take_of_length_le (hlen.trans (Nat.le_succ _))]
      read := fun q hq ↦ by
        rcases Nat.lt_succ_iff_lt_or_eq.1 hq with hlt | rfl
        · exact hinv.read q hlt
        · exact h.read
      starting := fun q hq ↦ by
        rcases hq with hq | hq
        · cases h.pending.symm.trans hq
        · cases hunread.symm.trans hq
      reports := ⟨reports ++ [report], hlength', hsnoc.mono hmem, hserved'⟩
      quiet := fun hshutdown hcancelled ↦
        hinv.quiet hshutdown (hold _ hcancelled nofun)
      account := by
        rcases hlog with ⟨hnone, rfl, rfl⟩ | ⟨-, rfl, rfl⟩
        · exact .untold hsends.1 (hnone ▸ hsends.2) fun _ ↦ hsends.2 ▸ hnone
        · exact .ready _ (congrArg (Except.ok _ :: ·) hsends.1) rfl hlast
      carried := fun q e hreported ↦ hinv.carried q e (hold _ hreported nofun)
      failure := fun f hf ↦ nomatch h.failure.symm.trans hf
      returned := fun result hover ↦ nomatch h.place.symm.trans hover }

/-- A hop that was read as ready, and that the start goes on from. -/
theorem Inv.cleared (h : Inv a w) (hplace : w.place = .running) (hpending : w.pending = some p)
    {given : SocketAddr} {report : PluginReady}
    (hdecided : (w.hops p).decided = .sent (.ready given report)) (hshutdown : w.shutdown = false) :
    p = w.next ∧ Cleared a (w.readDecision p) given report := by
  obtain ⟨hnext, hlt, -, hfailure⟩ := h.starting p (Or.inl hpending)
  obtain ⟨hgiven, -, hreported⟩ := h.given hdecided
  have hsent : (w.hops p).decided ≠ .unsent := by
    rw [hdecided]
    exact nofun
  have hnot {e : StartError} (hmem : .reported p (.error e) ∈ w.log) (hfinal : Final a p e) :
      w.failure = some ⟨p, e⟩ := by
    cases h.carried p e hmem hfinal with
    | full given' hfull =>
      have hunsent := ((h.sound p).unsettled hfull).2.1
      exact absurd hunsent hsent
    | sent hdecided' => cases hdecided.symm.trans hdecided'
    | failed hfailed => exact hfailed
  have hinv := h.judge hplace hpending (Or.inl hsent) w.failure h.failure fun e ↦ hnot
  refine ⟨hnext, hinv, hplace, rfl, hfailure, hshutdown, hnext ▸ hlt, ?_, ?_, ?_, hnext ▸ hreported⟩
  · subst hnext
    show (update w.hops w.next (w.hops w.next).heard w.next).decided = .read
    rw [update_self]
    rfl
  · exact (heard_same Hop.taken (fun _ ↦ rfl) w.hops p w.next).trans
      (h.taken w.next (hnext ▸ hpending))
  · exact (heard_same Hop.given (fun _ ↦ rfl) w.hops p w.next).trans (hnext ▸ hgiven)

/-- A hop whose decision is no failure, or that ended without one, delivered none. -/
theorem Inv.none_delivered (h : Inv a w) (hpending : w.pending = some p)
    (hdecided : (∃ given report, (w.hops p).decided = .sent (.ready given report)) ∨
      (w.hops p).decided = .sent .dropped ∨
      ((w.hops p).decided = .unsent ∧ (w.hops p).state.Finished)) {e : StartError}
    (hmem : .reported p (.error e) ∈ w.log) : ¬Final a p e := fun hfinal ↦ by
  have hfailure := (h.starting p (Or.inl hpending)).2.2.2
  cases h.carried p e hmem hfinal with
  | full given hfull =>
    have hunsent := ((h.sound p).unsettled hfull).2.1
    rcases hdecided with ⟨given', report, hready⟩ | hdropped | ⟨-, hfinished⟩
    · cases hunsent.symm.trans hready
    · cases hunsent.symm.trans hdropped
    · rw [hfull] at hfinished
      exact hfinished
  | sent hfailed =>
    rcases hdecided with ⟨given', report, hready⟩ | hdropped | ⟨hunsent, -⟩
    · cases hfailed.symm.trans hready
    · cases hfailed.symm.trans hdropped
    · cases hfailed.symm.trans hunsent
  | failed hfailed => cases hfailure.symm.trans hfailed

theorem heard_or_finished {hop : Hop}
    (hdecided : (∃ given report, hop.decided = .sent (.ready given report)) ∨
      hop.decided = .sent .dropped ∨ (hop.decided = .unsent ∧ hop.state.Finished)) :
    hop.decided ≠ .unsent ∨ hop.state.Finished := by
  rcases hdecided with ⟨given, report, hready⟩ | hdropped | ⟨-, hfinished⟩
  · exact Or.inl fun hunsent ↦ nomatch hready.symm.trans hunsent
  · exact Or.inl fun hunsent ↦ nomatch hdropped.symm.trans hunsent
  · exact Or.inr hfinished

/-- A task that ended is joined. -/
theorem Inv.join (h : Inv a w) {joined : Joined} (hstate : (w.hops p).state = .ended joined) :
    Inv a (w.join p) :=
  h.goTo (by rw [hstate]; exact nofun) (by rw [hstate]; exact nofun) nofun trivial
    fun _ _ heq ↦ nomatch hstate.symm.trans heq

theorem Inv.withError (h : Inv a w) (firstError : Option Tap.Error) :
    Inv a { w with firstError := firstError } :=
  { h with returned := h.returned }

theorem Inv.recordExit (h : Inv a w) (joined : Joined) : Inv a (w.recordExit joined) := by
  rcases joined with e | (e | ⟨⟩)
  · exact h.cancel.withError _
  · exact h.cancel.withError _
  · exact h.cancel

theorem hops_cancel (w : World) : w.cancel.hops = w.hops := by
  rw [World.cancel]
  split <;> rfl

theorem hops_recordExit (w : World) (joined : Joined) : (w.recordExit joined).hops = w.hops := by
  rcases joined with e | (e | ⟨⟩)
  · exact hops_cancel w
  · exact hops_cancel w
  · exact hops_cancel w

/-- `run` goes on to its next phase. -/
theorem Inv.phase (h : Inv a w) {place : Place} {pending unread : Option Nat}
    (hover : w.place.isOver = false) (hover' : place.isOver = false) (hrunning : place ≠ .running)
    (hpending : pending = none)
    (hsame : ∀ p, w.pending = some p ∨ w.unread = some p ↔ pending = some p ∨ unread = some p) :
    Inv a { w with place := place
                   pending := pending
                   unread := unread } :=
  { h with
    waiting p hlive hread := (hsame p).1 (h.waiting p hlive hread)
    starting p hp := h.starting p ((hsame p).2 hp)
    running := ⟨fun hne ↦ absurd hpending hne, fun heq ↦ absurd heq hrunning⟩
    taken p hp := by cases hpending.symm.trans hp
    account := by
      cases h.account with
      | untold hsends hready hnext => exact .untold hsends hready hnext
      | ready chain hsends hready hnext => exact .ready chain hsends hready hnext
      | failed e hsends hdone _ => cases hover.symm.trans hdone
    returned result heq := by
      have hplace : place = .returned result := heq
      rw [hplace] at hover'
      cases hover' }

/-- What the gate releases is what was delivered. -/
theorem Inv.released (h : Inv a w) (hpending : w.pending = none) (hjoined : w.AllJoined)
    {e : StartError} (hmem : .reported p (.error e) ∈ w.log) (hfinal : Final a p e) :
    w.failure.or w.deliveredSince = some ⟨p, e⟩ := by
  cases h.carried p e hmem hfinal with
  | full given hfull =>
    rcases hjoined p with heq | heq
    · cases hfull.symm.trans heq
    · cases hfull.symm.trans heq
  | failed hfailed => rw [hfailed, Option.some_or]
  | sent hdecided =>
    have hlive : (w.hops p).state ≠ .absent := fun heq ↦ by
      have hsound := (h.sound p).state
      rw [heq] at hsound
      cases hsound.2.symm.trans hdecided
    have hread : (w.hops p).decided ≠ .read := by
      rw [hdecided]
      exact nofun
    have hunread : w.unread = some p := (h.waiting p hlive hread).resolve_left
      fun heq ↦ nomatch hpending.symm.trans heq
    rw [(h.starts hlive hread).2.2, Option.none_or, World.deliveredSince, hunread]
    dsimp only
    rw [hdecided]

/-- A failure that is released is one that the start may report. -/
theorem Inv.own_released (h : Inv a w) {f : HopFailure}
    (hf : w.failure.or w.deliveredSince = some f) :
    w.next < a.hops ∧ Own a f.position f.cause w.log := by
  cases hfailure : w.failure with
  | some f' =>
    rw [hfailure, Option.some_or] at hf
    cases hf
    exact h.failure _ hfailure
  | none =>
    rw [hfailure, Option.none_or, World.deliveredSince] at hf
    cases hunread : w.unread with
    | none =>
      rw [hunread] at hf
      cases hf
    | some p =>
      rw [hunread] at hf
      dsimp only at hf
      obtain ⟨hnext, hlt, -, -⟩ := h.starting p (Or.inr hunread)
      have hdecided := (h.sound p).decided
      cases hd : (w.hops p).decided with
      | unsent =>
        rw [hd] at hf
        cases hf
      | read =>
        rw [hd] at hf
        cases hf
      | sent decision =>
        rw [hd] at hf hdecided
        cases decision with
        | ready given report => cases hf
        | dropped => cases hf
        | failed e =>
          cases hf
          exact ⟨hnext ▸ hlt, hdecided⟩

/-- `run` returns. -/
theorem Inv.returns (h : Inv a w) (hpending : w.pending = none) (hjoined : w.AllJoined)
    {result : Except Error Unit} {readyTx : Bool}
    (hlog : log = w.log ∨ ∃ e p, log = .sent (.error e) :: w.log ∧ Own a p e w.log)
    (haccount : Account a w.next readyTx true log)
    (hresult : ∀ p e, .reported p (.error e) ∈ w.log → Final a p e →
      result = .error (.startFailed (a.name p) e) ∧
        (a.registered = true → sends log = [.error e])) :
    Inv a { w with place := .returned result
                   readyTx := readyTx
                   log := log } := by
  have hmem (e : Event) (he : e ∈ w.log) : e ∈ log := by
    rcases hlog with rfl | ⟨e', p, rfl, -⟩
    · exact he
    · exact .tail _ he
  have hold (e : Event) (he : e ∈ log) (hne : ∀ message, e ≠ .sent message) : e ∈ w.log := by
    rcases hlog with rfl | ⟨e', p, rfl, -⟩
    · exact he
    · exact (List.mem_cons.1 he).resolve_left (hne _)
  have hlaunches : launches log = launches w.log := by
    rcases hlog with rfl | ⟨e', p, rfl, -⟩ <;> rfl
  exact
    { h with
      justified := by
        rcases hlog with rfl | ⟨e', p, rfl, hown⟩
        · exact h.justified
        · exact ⟨⟨p, hown⟩, h.justified⟩
      sound := fun q ↦ (h.sound q).mono hmem
      launched := hlaunches ▸ h.launched
      running := ⟨fun hne ↦ absurd hpending hne, nofun⟩
      reports := by
        obtain ⟨reports, hlength, hreports, hserved⟩ := h.reports
        exact ⟨reports, hlength, hreports.mono hmem, hserved⟩
      quiet := fun hshutdown hcancelled ↦ h.quiet hshutdown (hold _ hcancelled nofun)
      account := haccount
      carried := fun q e hreported ↦ h.carried q e (hold _ hreported nofun)
      failure := fun f hf ↦ ⟨(h.failure f hf).1, (h.failure f hf).2.mono hmem⟩
      returned := fun result' heq ↦ by
        cases heq
        exact ⟨hjoined, fun p e hreported ↦ hresult p e (hold _ hreported nofun)⟩ }

/-- The gate is released. -/
theorem Inv.release (h : Inv a w) (hover : w.place.isOver = false) (hplace : w.place ≠ .running)
    (hjoined : w.AllJoined) (drained : Except Error Unit) : Inv a (w.release a drained) := by
  have hpending : w.pending = none := by
    by_contra hne
    exact hplace (h.running.1 hne)
  rw [World.release]
  cases hf : w.failure.or w.deliveredSince with
  | none =>
    refine h.returns hpending hjoined (Or.inl rfl) ?_ fun p e hmem hfinal ↦
      by cases hf.symm.trans (h.released hpending hjoined hmem hfinal)
    cases h.account with
    | untold hsends hready hnext => exact .untold hsends hready hnext
    | ready chain hsends hready hnext => exact .ready chain hsends hready hnext
    | failed e hsends hdone _ => cases hover.symm.trans hdone
  | some f =>
    obtain ⟨hlt, hown⟩ := h.own_released hf
    have hdelivered {p : Nat} {e : StartError} (hmem : .reported p (.error e) ∈ w.log)
        (hfinal : Final a p e) : f = ⟨p, e⟩ :=
      Option.some.inj (hf.symm.trans (h.released hpending hjoined hmem hfinal))
    obtain ⟨hsends, hready⟩ : sends w.log = [] ∧ w.readyTx = a.registered := by
      cases h.account with
      | untold hsends hready hnext => exact ⟨hsends, hready⟩
      | ready chain hsends hready hnext => exact absurd hnext (Nat.ne_of_lt hlt)
      | failed e hsends hdone _ => cases hover.symm.trans hdone
    have hone : sends (.sent (.error f.cause) :: w.log) = [.error f.cause] :=
      congrArg (Except.error f.cause :: ·) hsends
    cases hregistered : w.readyTx with
    | true =>
      refine h.returns hpending hjoined (Or.inr ⟨_, _, rfl, hown⟩) (.failed _ hone rfl hlt)
        fun p e hmem hfinal ↦ ?_
      obtain rfl := hdelivered hmem hfinal
      exact ⟨rfl, fun _ ↦ hone⟩
    | false =>
      refine h.returns hpending hjoined (Or.inl rfl)
        (.untold hsends (hregistered.symm.trans hready) fun heq ↦ absurd heq (Nat.ne_of_lt hlt))
        fun p e hmem hfinal ↦ ?_
      obtain rfl := hdelivered hmem hfinal
      exact ⟨rfl, fun htrue ↦ by cases (hregistered.symm.trans hready).trans htrue⟩

/-- **What a step of `run` keeps.** -/
theorem Inv.runStep (h : Inv a w) (hstep : RunStep a w w') : Inv a w' := by
  cases hstep with
  | @judgesFailed hplace p hpending e hdecided =>
    obtain ⟨hnext, hlt, -, hnone⟩ := h.starting p (Or.inl hpending)
    have hsent : (w.hops p).decided ≠ .unsent := by
      rw [hdecided]
      exact nofun
    have hown : Own a p e w.log := by
      have hsound := (h.sound p).decided
      rwa [hdecided] at hsound
    refine (h.judge hplace hpending (Or.inl hsent) (some ⟨p, e⟩) (fun f hf ↦ ?_)
      fun e' hmem hfinal ↦ ?_).cancel
    · cases hf
      exact ⟨hnext ▸ hlt, hown⟩
    · cases h.carried p e' hmem hfinal with
      | full given hfull => exact absurd ((h.sound p).unsettled hfull).2.1 hsent
      | sent hdecided' =>
        have heq : Decided.sent (.failed e) = .sent (.failed e') := hdecided.symm.trans hdecided'
        cases heq
        rfl
      | failed hfailed => cases hnone.symm.trans hfailed
  | @judgesUndecided hplace p hpending hdecided hshutdown =>
    obtain ⟨hnext, hlt, -, hnone⟩ := h.starting p (Or.inl hpending)
    refine (h.judge hplace hpending (heard_or_finished (Or.inr hdecided)) (some ⟨p, exitedEarly⟩)
      (fun f hf ↦ ?_) fun e hmem hfinal ↦ ?_).cancel
    · cases hf
      exact ⟨hnext ▸ hlt, fun errno addr heq ↦ nomatch heq⟩
    · exact absurd hfinal (h.none_delivered hpending (Or.inr hdecided) hmem)
  | @preempted hplace p hpending hdecided hshutdown =>
    exact h.judge hplace hpending (heard_or_finished hdecided) w.failure h.failure
      fun e hmem hfinal ↦ absurd hfinal (h.none_delivered hpending hdecided hmem)
  | @judgesReady hplace p hpending given report hdecided hshutdown hmore =>
    obtain ⟨rfl, hcleared⟩ := h.cleared hplace hpending hdecided hshutdown
    have hlt : w.next < a.hops := hcleared.next
    have hne : w.next + 1 ≠ a.hops := fun heq ↦ by
      rw [Args.isPublic, heq, beq_self_eq_true] at hmore
      cases hmore
    exact hcleared.launch (Nat.lt_of_le_of_ne hlt hne)
  | @judgesLastReady hplace p hpending given report hdecided hshutdown hlast =>
    obtain ⟨rfl, hcleared⟩ := h.cleared hplace hpending hdecided hshutdown
    have hlast' : w.next + 1 = a.hops := beq_iff_eq.1 hlast
    rw [World.settle]
    split
    · next hready => exact hcleared.settle hlast' (Or.inr ⟨hready, rfl, rfl⟩)
    · next hready =>
      have hnone : w.readyTx = false := Bool.eq_false_iff.2 hready
      exact hcleared.settle hlast' (Or.inl ⟨hnone, hnone, rfl⟩)
  | @joins p joined hplace hstate hkept =>
    have hstate' : ((w.recordExit joined).hops p).state = .ended joined := by
      rw [hops_recordExit]
      exact hstate
    exact (h.recordExit joined).join hstate'
  | skips hplace hstate hcancelled => exact h.join hstate
  | leaves hplace hover =>
    refine h.phase (by rw [hplace]; rfl) rfl nofun rfl fun p ↦ ?_
    rw [h.running.2 hplace]
    exact Or.comm
  | drains hplace hjoined =>
    exact h.release (by rw [hplace]; rfl) (by rw [hplace]; exact nofun) hjoined _
  | expires hplace =>
    have hpending : w.pending = none := by
      by_contra hne
      cases hplace.symm.trans (h.running.1 hne)
    exact h.phase (by rw [hplace]; rfl) rfl nofun hpending fun p ↦ Iff.rfl
  | aborts hplace hjoined =>
    exact h.release (by rw [hplace]; rfl) (by rw [hplace]; exact nofun) hjoined _

end RunStep

/-! ### The runs -/

section Runs

variable {a : Args} {w : World}

theorem inv_start (hhops : 0 < a.hops) : Inv a (.start a) := by
  let first : Hop := ⟨a.flow.destination, a.ends, none, .picking, .unsent⟩
  have hself : update (fun _ ↦ Hop.none) 0 first 0 = first := update_self _ _ _
  have hother {q : Nat} (hq : q ≠ 0) :
      update (fun _ ↦ Hop.none) 0 first q = Hop.none := update_of_ne hq _ _
  have hlive {q : Nat} (hq : (update (fun _ ↦ Hop.none) 0 first q).state ≠ .absent) :
      q = 0 := by
    by_contra hne
    rw [hother hne] at hq
    exact hq rfl
  exact
    { justified := ⟨⟨rfl, rfl, Or.inl ⟨rfl, rfl⟩⟩, trivial⟩
      sound := fun q ↦ by
        show Sound a _ q (update (fun _ ↦ Hop.none) 0 first q)
        by_cases hq : q = 0
        · rw [hq, hself]
          exact ⟨rfl, trivial, nofun⟩
        · rw [hother hq]
          exact ⟨⟨rfl, rfl⟩, trivial, nofun⟩
      absent := fun q ↦ by
        show (update (fun _ ↦ Hop.none) 0 first q).state = .absent ↔ 0 < q ∨ a.hops ≤ q
        by_cases hq : q = 0
        · rw [hq, hself]
          exact iff_of_false nofun fun hlt ↦ by omega
        · rw [hother hq]
          exact iff_of_true rfl (Or.inl (Nat.pos_of_ne_zero hq))
      next := Nat.zero_le _
      launched := (take_succ_order hhops).symm
      read := fun q hq ↦ absurd hq (Nat.not_lt_zero q)
      waiting := fun q hq _ ↦ Or.inl (congrArg some (hlive hq).symm)
      starting := fun q hq ↦ by
        rcases hq with hq | hq
        · obtain rfl : 0 = q := Option.some.inj hq
          refine ⟨rfl, hhops, ?_, rfl⟩
          show (update (fun _ ↦ Hop.none) 0 first 0).decided ≠ .read
          rw [hself]
          exact nofun
        · cases hq
      running := ⟨fun _ ↦ rfl, fun _ ↦ rfl⟩
      taken := fun q hq ↦ by
        obtain rfl : 0 = q := Option.some.inj hq
        show (update (fun _ ↦ Hop.none) 0 first 0).taken = a.ends
        rw [hself]
      ends := by
        refine ⟨fun _ ↦ id, fun q hq port hport ↦ ?_⟩
        show port ∈ (update (fun _ ↦ Hop.none) 0 first q).taken
        rw [hlive hq, hself]
        exact hport
      apart := fun q r hqr hr ↦ absurd hqr ((hlive hr).symm ▸ Nat.not_lt_zero q)
      remotes := by
        refine ⟨?_, fun q hq ↦ absurd (hlive hq) (Nat.succ_ne_zero q)⟩
        show (update (fun _ ↦ Hop.none) 0 first 0).remote = a.flow.destination
        rw [hself]
      reports := ⟨[], rfl, nofun, rfl⟩
      quiet := fun _ hmem ↦ nomatch List.mem_singleton.1 hmem
      account := .untold rfl rfl fun heq ↦ absurd heq (Nat.ne_of_lt hhops)
      carried := fun q e hmem ↦ nomatch List.mem_singleton.1 hmem
      failure := nofun
      returned := nofun }

theorem Reachable.inv (h : Reachable a w) : Inv a w := by
  induction h with
  | start hhops => exact inv_start hhops
  | step h hstep ih =>
    rcases hstep with ⟨p, hhop⟩ | hrun | rfl
    · exact ih.hopStep hhop
    · exact ih.runStep hrun
    · exact ih.cancel

theorem final_of {p : Nat} {e : StartError}
    (he : a.isPublic p = true ∨ ∃ detail errno, e = .fatal detail errno) : Final a p e := by
  rcases he with hpublic | ⟨detail, errno, rfl⟩
  · cases e with
    | bindConflict errno addr =>
      rw [Final, hpublic]
      rfl
    | fatal detail errno => rfl
  · rfl

/-- A port that no end of the chain has. -/
theorem ne_ends {port : BitVec 16} (hne : port ≠ 0) (hends : port ∉ a.ends) :
    port ≠ a.flow.public.port ∧ port ≠ a.flow.destination.port := by
  have hmem (end' : BitVec 16) (hend : end' ∈ [a.flow.public.port, a.flow.destination.port]) :
      port ≠ end' := by
    rintro rfl
    exact hends (List.mem_filter.2 ⟨hend, decide_eq_true hne⟩)
  exact ⟨hmem _ (.head _), hmem _ (.tail _ (.head _))⟩

/-- What a hop was told to listen on. -/
theorem Inv.place_given (h : Inv a w) {p : Nat} {addr : SocketAddr} (hmem : .given p addr ∈ w.log) :
    (a.isPublic p = true ∧ addr = a.flow.public) ∨
      (a.isPublic p = false ∧ addr.port ≠ 0 ∧ addr.port ∉ a.ends) := by
  obtain ⟨newer, older, hlog⟩ := List.append_of_mem hmem
  have hgrounds : Grounds a older (.given p addr) := Justified.of_split (hlog ▸ h.justified)
  exact hgrounds

/-- The ports of two hops differ. -/
theorem Inv.ports_ne (h : Inv a w) {p q : Nat} (hpq : p < q) (hinter : a.isPublic q = false)
    {x y : SocketAddr} (hx : (w.hops p).given = some x) (hy : (w.hops q).given = some y) :
    x.port ≠ y.port := by
  have hlive : (w.hops q).state ≠ .absent := fun heq ↦ by
    have hsound := (h.sound q).state
    rw [heq] at hsound
    cases hsound.1.symm.trans hy
  obtain ⟨addr, haddr, hport⟩ := h.apart p q hpq hlive
  obtain rfl : addr = x := Option.mem_unique haddr hx
  intro heq
  exact ((h.sound q).given y hy).2 hinter (heq ▸ hport)

/-- **The start of a chain keeps to its protocol.** -/
structure StartProtocol (a : Args) (w : World) : Prop where
  /-- The plugins are launched in the order of the flow. -/
  order : (launches w.log).reverse <+: a.flow.order
  /-- One is launched after the one that it forwards to said that it is ready. -/
  launch : ∀ newer p plugin remote older, w.log = newer ++ .launched p plugin remote :: older →
    plugin = a.plugin p ∧ (launches older).reverse = a.flow.order.take p ∧
      ((p = 0 ∧ remote = a.flow.destination) ∨
        ∃ q report, p = q + 1 ∧ .given q remote ∈ older ∧ .reported q (.ok report) ∈ older)
  /-- It forwards to what that one was told to listen on. -/
  remotes : (w.hops 0).remote = a.flow.destination ∧ ∀ p, (w.hops (p + 1)).state ≠ .absent →
    (w.hops p).given = some (w.hops (p + 1)).remote
  «public» : ∀ p addr, .given p addr ∈ w.log → a.isPublic p = true → addr = a.flow.public
  ends : ∀ p addr, .given p addr ∈ w.log → a.isPublic p = false →
    addr.port ≠ a.flow.public.port ∧ addr.port ≠ a.flow.destination.port
  apart : ∀ p q x y, p ≠ q → a.isPublic p = false → a.isPublic q = false →
    (w.hops p).given = some x → (w.hops q).given = some y → x.port ≠ y.port
  ready : ∀ newer chain older, w.log = newer ++ .sent (.ok chain) :: older → AllReady a chain older
  /-- A start that ends with every hop ready says so. -/
  told : w.next = a.hops → a.registered = true → ∃ chain, .sent (.ok chain) ∈ w.log
  once : (sends w.log).length ≤ 1
  /-- A conflict that is reported is the public hop's. -/
  conflict : ∀ errno addr, .sent (.error (.bindConflict errno addr)) ∈ w.log →
    ∃ p, a.isPublic p = true ∧ .reported p (.error (.bindConflict errno addr)) ∈ w.log
  /-- A failure that was delivered, and is no conflict of an intermediate hop, is reported. -/
  failed : ∀ result p e, w.place = .returned result → .reported p (.error e) ∈ w.log →
    (a.isPublic p = true ∨ ∃ detail errno, e = .fatal detail errno) →
    result = .error (.startFailed (a.name p) e) ∧ (a.registered = true → sends w.log = [.error e])

/-- **The start of a chain keeps to its protocol**, whatever its plugins do and in whatever order
things happen. -/
theorem startProtocol_of_reachable (h : Reachable a w) : StartProtocol a w := by
  have hinv := h.inv
  refine
    { order := hinv.launched ▸ List.take_prefix _ _
      launch := fun newer p plugin remote older hlog ↦ ?_
      remotes := hinv.remotes
      «public» := fun p addr hmem hpublic ↦ ?_
      ends := fun p addr hmem hinter ↦ ?_
      apart := fun p q x y hne hp hq hx hy ↦ ?_
      ready := fun newer chain older hlog ↦ ?_
      told := fun hnext hregistered ↦ ?_
      once := ?_
      conflict := fun errno addr hmem ↦ ?_
      failed := fun result p e hplace hmem he ↦
        (hinv.returned result hplace).2 p e hmem (final_of he) }
  · have hgrounds : Grounds a older (.launched p plugin remote) :=
      Justified.of_split (hlog ▸ hinv.justified)
    exact hgrounds
  · rcases hinv.place_given hmem with ⟨-, haddr⟩ | ⟨hinter, -⟩
    · exact haddr
    · cases hpublic.symm.trans hinter
  · rcases hinv.place_given hmem with ⟨hpublic, -⟩ | ⟨-, hport, hends⟩
    · cases hinter.symm.trans hpublic
    · exact ne_ends hport hends
  · rcases Nat.lt_or_gt_of_ne hne with hlt | hgt
    · exact hinv.ports_ne hlt hq hx hy
    · exact (hinv.ports_ne hgt hp hy hx).symm
  · have hgrounds : Grounds a older (.sent (.ok chain)) :=
      Justified.of_split (hlog ▸ hinv.justified)
    exact hgrounds
  · cases hinv.account with
    | untold hsends hready hsilent => cases hregistered.symm.trans (hsilent hnext)
    | ready chain hsends hready _ =>
      refine ⟨chain, mem_sends.1 ?_⟩
      rw [hsends]
      exact List.mem_singleton_self _
    | failed e hsends hover hshort => exact absurd hnext (Nat.ne_of_lt hshort)
  · cases hinv.account with
    | untold hsends _ _ => exact hsends ▸ Nat.zero_le 1
    | ready chain hsends _ _ => exact hsends ▸ le_rfl
    | failed e hsends _ _ => exact hsends ▸ le_rfl
  · obtain ⟨newer, older, hlog⟩ := List.append_of_mem hmem
    have hgrounds : Grounds a older (.sent (.error (.bindConflict errno addr))) :=
      Justified.of_split (hlog ▸ hinv.justified)
    obtain ⟨p, hown⟩ := hgrounds
    obtain ⟨hpublic, hreported⟩ := hown errno addr rfl
    exact ⟨p, hpublic, hlog ▸ List.mem_append_right newer (.tail _ hreported)⟩

end Runs

def sampleArgs : Args where
  mode := .client
  names := ["v2ray-plugin"]
  localAddr := ⟨.ofOctets 127 0 0 1, 1080⟩
  remoteAddr := ⟨.ofOctets 127 0 0 1, 1081⟩
  registered := true

/-- A public port that is found taken as the chain is told to stop. -/
theorem startProtocol_sample : ∃ w : World, w.place = .returned (.error (.startFailed
      "v2ray-plugin" (.bindConflict 98 ⟨.ofOctets 127 0 0 1, 1080⟩))) ∧
    StartProtocol sampleArgs w := by
  have hstarted : Reachable sampleArgs (.start sampleArgs) := .start (by decide)
  have hlistens := hstarted.step (Or.inl ⟨0, .takesPublic rfl rfl⟩)
  have hreported := hlistens.step
    (Or.inl ⟨0, .reports rfl (.error (.bindConflict 98 ⟨.ofOctets 127 0 0 1, 1080⟩))⟩)
  have hcancelled := hreported.step (Or.inr (Or.inr rfl))
  have hleft := hcancelled.step (Or.inr (Or.inl (.leaves rfl (Or.inl rfl))))
  have hread := hleft.step (Or.inl ⟨0, .reads rfl⟩)
  have hended := hread.step (Or.inl ⟨0, .ends rfl (Or.inl rfl) (.ok ())⟩)
  have hjoined := hended.step (Or.inr (Or.inl (.joins (p := 0) rfl rfl nofun)))
  have hreturned := hjoined.step (Or.inr (Or.inl (.drains rfl fun p ↦ by
    cases p with
    | zero => exact Or.inr rfl
    | succ p => exact Or.inl rfl)))
  exact ⟨_, rfl, startProtocol_of_reachable hreturned⟩

end Hole.Plugin.Chain
