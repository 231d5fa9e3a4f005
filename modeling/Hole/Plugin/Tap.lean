import Hole.Effect.History
import Hole.Plugin.Sitrep

/-!
# The diagnostic tap

`TapPlugin::run` of `crates/garter/src/tap.rs`, with everything that it races against: the inner
plugin, which reports, drops its sender, ends or goes on as it likes, the shutdown, the readiness
deadline, and the failures of its own calls. A `select!` that is biased polls its futures one after
the other, and between two polls anything may happen (`Poll`).

`log` says what was done. What holds at a place of `run` is said of it (`Placed`); the inner plugin
may give its sender away, so that a report can come after its end, and only one that came before
counts (`Timely`).
-/

namespace Hole.Plugin.Tap

open Effect

/-! ### The values -/

/-- `io::ErrorKind`, as far as the races for a port are told apart. -/
inductive ErrorKind
  | addrInUse
  | permissionDenied
  | addrNotAvailable
  | other
  deriving DecidableEq

/-- `io::Error`. -/
structure IoError where
  kind : ErrorKind
  errno : Option Int32
  text : String

/-- `is_port_race`. -/
def IoError.isPortRace (e : IoError) : Bool := e.kind ≠ .other

/-- `StartError`. -/
abbrev StartError : Type := Sitrep.StartError SocketAddr String

/-- `Display for SocketAddr`. -/
def displayAddr (addr : SocketAddr) : String :=
  String.ofList (SocketAddr.joinHostPort addr.ip.display.toList (SocketAddr.portText addr.port))

/-- `Display for StartError`. -/
def StartError.display : StartError → String
  | .bindConflict errno addr =>
    "bind conflict on " ++ displayAddr addr ++ " (errno " ++ toString errno.toInt ++ ")"
  | .fatal detail _ => detail

/-- `StartError::from_bind_failure`. -/
def StartError.fromBindFailure (e : IoError) (addr : SocketAddr) : StartError :=
  if e.isPortRace then .bindConflict (e.errno.getD 0) addr
  else .fatal ("bind " ++ displayAddr addr ++ ": " ++ e.text) e.errno

/-- `PluginReady`. -/
abbrev PluginReady : Type := Sitrep.PluginReady SocketAddr

/-- `crate::Error`. -/
inductive Error
  | chain (detail : String)
  /-- Another one, of the inner plugin. -/
  | other (text : String)

/-- `JoinError`. -/
structure JoinError where
  isCancelled : Bool
  text : String

/-- What a plugin reports. -/
abbrev Report : Type := Except StartError PluginReady

/-- How the task of the inner plugin ended. -/
abbrev Joined : Type := Except JoinError (Except Error Unit)

/-- `reports_the_given_address`. -/
def reportsTheGivenAddress (reported given : SocketAddr) : Bool :=
  let reportedIp := reported.ip.toCanonical
  let givenIp := given.ip.toCanonical
  reported.port == given.port &&
    (reportedIp == givenIp || (givenIp.isUnspecified && reportedIp.isIpv4 == givenIp.isIpv4))

/-- `connect_target`. -/
def connectTarget (given : SocketAddr) : SocketAddr :=
  match given.ip with
  | .v4 bits =>
    if (IpAddr.v4 bits).isUnspecified then ⟨IpAddr.ofOctets 127 0 0 1, given.port⟩ else given
  | .v6 bits => if (IpAddr.v6 bits).isUnspecified then ⟨.v6 1, given.port⟩ else given

/-! ### The state -/

/-- What was done. -/
inductive Event
  | spawned (given : SocketAddr)
  | reported (report : Report)
  | ended
  | bound
  | sent (report : Report)
  /-- A forwarder opened a connection. -/
  | connected (addr : SocketAddr)

/-- The channel that the inner plugin reports on. -/
inductive Channel
  | live
  | full (report : Report)
  | taken
  /-- The sender was dropped, and nothing was sent. -/
  | dropped

/-- The task of the inner plugin. -/
inductive Inner
  | absent
  | running
  | ended (joined : Joined)

/-- The future of a `select!` that is polled next. -/
inductive Poll
  | report
  | deadline
  | join
  | shutdown

/-- Why the inner plugin is stopped. -/
inductive Failure
  | outside (listen : SocketAddr)
  | typed (e : StartError)
  | notReady
  | bind (e : IoError)
  | address (e : IoError)
  | accept (listen : SocketAddr) (e : IoError)

/-- What follows the end of the forwarders. -/
inductive Next
  | drain
  | stop (listen : SocketAddr) (e : IoError)
  | exited (joined : Joined)

/-- Where `run` is. -/
inductive Place
  | pickPort
  | pause
  /-- The `select!` on the report. -/
  | awaitReport (poll : Poll)
  /-- The `select!` once the sender was dropped. -/
  | awaitEnd (poll : Poll)
  | drainAfterShutdown
  | stopInner (failure : Failure)
  | bindListener
  | readAddr
  /-- The accept loop. -/
  | serve (listen : SocketAddr)
  | endForwarders (next : Next)
  | drainInner
  | returned (result : Except Error Unit)

/-- What `run` is called with. -/
structure Args where
  name : String
  localAddr : SocketAddr
  remote : SocketAddr

/-- `local`, whose mapped form is its IPv4 one. -/
def Args.public (a : Args) : SocketAddr := ⟨a.localAddr.ip.toCanonical, a.localAddr.port⟩

structure World where
  place : Place
  /-- `inner_local`. -/
  given : Option SocketAddr
  inner : Inner
  channel : Channel
  shutdown : Bool
  /-- Whether the token of the inner plugin is. -/
  innerStop : Bool
  aborted : Bool
  late : Bool
  /-- The forwarders that run, by what they connect to. -/
  forwarders : List SocketAddr
  /-- Newest first. -/
  log : List Event

/-- Before `run`. -/
def World.start : World where
  place := .pickPort
  given := none
  inner := .absent
  channel := .live
  shutdown := false
  innerStop := false
  aborted := false
  late := false
  forwarders := []
  log := []

/-! ### The functions of the tap -/

namespace World

variable (a : Args) (w : World)

/-- The start of each text. -/
def label : String := "tap[" ++ a.name ++ "]: "

def goTo (place : Place) : World := { w with place := place }

def note (e : Event) : World := { w with log := e :: w.log }

/-- `ready.send`. -/
def send (report : Report) : World := w.note (.sent report)

def finish (result : Except Error Unit) : World := w.goTo (.returned result)

/-- `try_recv`, and what the poll of the channel takes. -/
def recv : World :=
  { w with channel := match w.channel with
    | .full _ => .taken
    | .live | .taken | .dropped => w.channel }

/-- `delivered_start_failure`. -/
def deliveredStartFailure : Option StartError :=
  match w.channel with
  | .full (.error e) => some e
  | .full (.ok _) | .live | .taken | .dropped => none

/-- `report_start_failure`. -/
def reportStartFailure (typed : Option StartError) : World :=
  w.send (.error (typed.getD (.fatal (label a ++ "inner exited before becoming ready") none)))

/-- `report_inner_failure`, and the return of its error. -/
def reportInnerFailure (typed : StartError) : World := (w.reportStartFailure a (some typed)).finish
    (.error (.chain (label a ++ "inner failed to start: " ++ typed.display)))

/-- A start failure with its text, which is also the error of `run`. -/
def failStart (detail : String) (errno : Option Int32) : World :=
  (w.send (.error (.fatal detail errno))).finish (.error (.chain detail))

/-- `join_result`. -/
def joinResult : Joined → Except Error Unit
  | .ok result => result
  | .error e => .error (.chain (label a ++ "inner task: " ++ e.text))

/-- `failed_start_result`. -/
def failedStartResult (joined : Joined) : Except Error Unit :=
  match joinResult a joined with
  | .ok () => .error (.chain (label a ++ "inner exited before becoming ready"))
  | .error e => .error e

/-- How `drain_inner` reads the end of the inner plugin. -/
def drainResult : Joined → Except Error Unit
  | .ok result => result
  | .error e => if e.isCancelled then .ok () else joinResult a (.error e)

/-- The rest of `drain_after_shutdown`, once the inner plugin ended. -/
def afterDrain (joined : Joined) : World :=
  match w.deliveredStartFailure with
  | some typed => (w.recv.reportStartFailure a (some typed)).finish (failedStartResult a joined)
  | none => w.recv.finish (drainResult a joined)

/-- The rest of `inner_not_ready`, once the inner plugin ended. -/
def afterNotReady (given : SocketAddr) : World :=
  match w.deliveredStartFailure with
  | some typed => w.recv.reportInnerFailure a typed
  | none => w.recv.failStart
      (label a ++ "inner plugin did not bind " ++ displayAddr given ++ " within 30s") none

/-- The start of `stop_inner`. -/
def stop (failure : Failure) : World := { w.goTo (.stopInner failure) with innerStop := true }

/-- What follows `stop_inner`. -/
def stopped (given : SocketAddr) : Failure → World
  | .outside listen => w.failStart (label a ++ "inner reported its listener at " ++
      displayAddr listen ++ ", not the address " ++ displayAddr given ++ " it was given") none
  | .typed e => w.reportInnerFailure a e
  | .notReady => w.afterNotReady a given
  | .bind e => (w.send (.error (.fromBindFailure e a.public))).finish
      (.error (.chain (label a ++ "bind " ++ displayAddr a.public ++ ": " ++ e.text)))
  | .address e => w.failStart (label a ++ "read the address of the listener on " ++
      displayAddr a.public ++ ": " ++ e.text) e.errno
  | .accept listen e => w.finish (.error (.chain (label a ++ "accept on " ++ displayAddr listen ++
      " failed: " ++ e.text)))

/-- The inner plugin is started. -/
def spawn (given : SocketAddr) : World :=
  { (w.goTo (.awaitReport .report)).note (.spawned given) with given := some given
                                                               inner := .running }

end World

/-! ### The steps -/

section Steps

variable (a : Args) (w : World)

/-- A port that the tap knows to be taken. -/
def Args.takes (port : BitVec 16) : Prop := port = a.public.port ∨ port = a.remote.port

instance (port : BitVec 16) : Decidable (a.takes port) := inferInstanceAs (Decidable (_ ∨ _))

/-- A step of `run`. -/
inductive TapStep : World → Prop
  | probed (hplace : w.place = .pickPort) (given : SocketAddr) (hfree : ¬a.takes given.port) :
    TapStep (w.spawn given)
  | probedTaken (hplace : w.place = .pickPort) (addr : SocketAddr) (htaken : a.takes addr.port) :
    TapStep (w.goTo .pause)
  | probeRaced (hplace : w.place = .pickPort) (e : IoError) (hrace : e.isPortRace = true) :
    TapStep (w.goTo .pause)
  | probeFailed (hplace : w.place = .pickPort) (e : IoError) (hrace : e.isPortRace = false) :
    TapStep (w.failStart (World.label a ++ "alloc inner port: " ++ e.text) e.errno)
  | pauseOver (hplace : w.place = .pause) : TapStep (w.goTo .pickPort)
  | pauseCut (hplace : w.place = .pause) (hshutdown : w.shutdown = true) :
    TapStep (w.finish (.ok ()))
  | reportedGiven (hplace : w.place = .awaitReport .report) {given : SocketAddr}
      (hgiven : w.given = some given) {report : PluginReady}
      (hchannel : w.channel = .full (.ok report))
      (hright : reportsTheGivenAddress report.listen given = true) :
    TapStep (w.recv.goTo .bindListener)
  | reportedOutside (hplace : w.place = .awaitReport .report) {given : SocketAddr}
      (hgiven : w.given = some given) {report : PluginReady}
      (hchannel : w.channel = .full (.ok report))
      (hwrong : reportsTheGivenAddress report.listen given = false) :
    TapStep (w.recv.stop (.outside report.listen))
  | reportedFailure (hplace : w.place = .awaitReport .report) {e : StartError}
      (hchannel : w.channel = .full (.error e)) : TapStep (w.recv.stop (.typed e))
  | reportDropped (hplace : w.place = .awaitReport .report) (hchannel : w.channel = .dropped) :
    TapStep (w.goTo (.awaitEnd .shutdown))
  | reportPending (hplace : w.place = .awaitReport .report) (hchannel : w.channel = .live) :
    TapStep (w.goTo (.awaitReport .deadline))
  | reportLate (hplace : w.place = .awaitReport .deadline) (hlate : w.late = true) :
    TapStep (w.stop .notReady)
  | reportNotLate (hplace : w.place = .awaitReport .deadline) (hlate : w.late = false) :
    TapStep (w.goTo (.awaitReport .join))
  | reportEnded (hplace : w.place = .awaitReport .join) {joined : Joined}
      (hinner : w.inner = .ended joined) :
    TapStep ((w.recv.reportStartFailure a w.deliveredStartFailure).finish
      (World.failedStartResult a joined))
  | reportNotEnded (hplace : w.place = .awaitReport .join) (hinner : w.inner = .running) :
    TapStep (w.goTo (.awaitReport .shutdown))
  | reportShutdown (hplace : w.place = .awaitReport .shutdown) (hshutdown : w.shutdown = true) :
    TapStep (w.goTo .drainAfterShutdown)
  | reportNoShutdown (hplace : w.place = .awaitReport .shutdown) (hshutdown : w.shutdown = false) :
    TapStep (w.goTo (.awaitReport .report))
  | endShutdown (hplace : w.place = .awaitEnd .shutdown) (hshutdown : w.shutdown = true) :
    TapStep (w.goTo .drainInner)
  | endNoShutdown (hplace : w.place = .awaitEnd .shutdown) (hshutdown : w.shutdown = false) :
    TapStep (w.goTo (.awaitEnd .join))
  | endEnded (hplace : w.place = .awaitEnd .join) {joined : Joined}
      (hinner : w.inner = .ended joined) :
    TapStep ((w.reportStartFailure a none).finish (World.failedStartResult a joined))
  | endNotEnded (hplace : w.place = .awaitEnd .join) (hinner : w.inner = .running) :
    TapStep (w.goTo (.awaitEnd .deadline))
  | endLate (hplace : w.place = .awaitEnd .deadline) (hlate : w.late = true) :
    TapStep (w.stop .notReady)
  | endNotLate (hplace : w.place = .awaitEnd .deadline) (hlate : w.late = false) :
    TapStep (w.goTo (.awaitEnd .shutdown))
  | drainedAfterShutdown (hplace : w.place = .drainAfterShutdown) {joined : Joined}
      (hinner : w.inner = .ended joined) : TapStep (w.afterDrain a joined)
  | stopBoundExpired {failure : Failure} (hplace : w.place = .stopInner failure) :
    TapStep { w with aborted := true }
  | stopped {failure : Failure} (hplace : w.place = .stopInner failure) {given : SocketAddr}
      (hgiven : w.given = some given) {joined : Joined} (hinner : w.inner = .ended joined) :
    TapStep (w.stopped a given failure)
  | listenerBound (hplace : w.place = .bindListener) : TapStep ((w.note .bound).goTo .readAddr)
  | bindFailed (hplace : w.place = .bindListener) (e : IoError) : TapStep (w.stop (.bind e))
  | addrRead (hplace : w.place = .readAddr) (listen : SocketAddr) :
    TapStep ((w.send (.ok ⟨listen, .tcp⟩)).goTo (.serve listen))
  | addrFailed (hplace : w.place = .readAddr) (e : IoError) : TapStep (w.stop (.address e))
  | accepted {listen : SocketAddr} (hplace : w.place = .serve listen) {given : SocketAddr}
      (hgiven : w.given = some given) :
    TapStep { w with forwarders := connectTarget given :: w.forwarders }
  | acceptFailed {listen : SocketAddr} (hplace : w.place = .serve listen) (e : IoError) :
    TapStep (w.goTo (.endForwarders (.stop listen e)))
  | serveShutdown {listen : SocketAddr} (hplace : w.place = .serve listen)
      (hshutdown : w.shutdown = true) : TapStep (w.goTo (.endForwarders .drain))
  | serveEnded {listen : SocketAddr} (hplace : w.place = .serve listen) {joined : Joined}
      (hinner : w.inner = .ended joined) : TapStep (w.goTo (.endForwarders (.exited joined)))
  | forwardersDrain (hplace : w.place = .endForwarders .drain) (hnone : w.forwarders = []) :
    TapStep (w.goTo .drainInner)
  | forwardersStop {listen : SocketAddr} {e : IoError}
      (hplace : w.place = .endForwarders (.stop listen e)) (hnone : w.forwarders = []) :
    TapStep (w.stop (.accept listen e))
  | forwardersExited {joined : Joined} (hplace : w.place = .endForwarders (.exited joined))
      (hnone : w.forwarders = []) : TapStep (w.finish (World.joinResult a joined))
  | drained (hplace : w.place = .drainInner) {joined : Joined}
      (hinner : w.inner = .ended joined) : TapStep (w.finish (World.drainResult a joined))

/-- A step of what the tap races against. -/
inductive OtherStep : World → Prop
  /-- The inner plugin, or a task that it gave its sender to, delivers its report. -/
  | reports (hinner : w.inner ≠ .absent) (hchannel : w.channel = .live) (report : Report) :
    OtherStep { w.note (.reported report) with channel := .full report }
  | drops (hinner : w.inner ≠ .absent) (hchannel : w.channel = .live) :
    OtherStep { w with channel := .dropped }
  | ends (hinner : w.inner = .running) (joined : Joined) :
    OtherStep { w.note .ended with inner := .ended joined }
  | cancels : OtherStep { w with shutdown := true }
  | deadline : OtherStep { w with late := true }
  | connects {addr : SocketAddr} (hforwarder : addr ∈ w.forwarders) :
    OtherStep (w.note (.connected addr))
  | forwarderEnds (addr : SocketAddr) : OtherStep { w with forwarders := w.forwarders.erase addr }

/-- A step. -/
def Step (w' : World) : Prop := TapStep a w w' ∨ OtherStep w w'

/-- The worlds that `run` may come to. -/
inductive Reachable (a : Args) : World → Prop
  | start : Reachable a .start
  | step {w w' : World} (h : Reachable a w) (hstep : Step a w w') : Reachable a w'

end Steps

/-! ### What the log says -/

section Log

/-- What was sent on `ready`, newest first. -/
def sends : List Event → List Report
  | [] => []
  | .sent report :: log => report :: sends log
  | .spawned _ :: log | .reported _ :: log | .ended :: log | .bound :: log |
    .connected _ :: log => sends log

/-- What the inner plugin delivered. -/
def reports : List Event → List Report
  | [] => []
  | .reported report :: log => report :: reports log
  | .spawned _ :: log | .sent _ :: log | .ended :: log | .bound :: log |
    .connected _ :: log => reports log

/-- A report was delivered before the inner plugin ended. -/
def Timely (report : Report) : List Event → Prop
  | [] => False
  | e :: log => (e = .reported report ∧ .ended ∉ log) ∨ Timely report log

/-- The inner plugin reported the address that it was given. -/
def Right (log : List Event) : Prop := ∃ given report, .spawned given ∈ log ∧
  .reported (.ok report) ∈ log ∧ reportsTheGivenAddress report.listen given = true

/-- A target of the forwarders. -/
def Target (log : List Event) (addr : SocketAddr) : Prop :=
  ∃ given, .spawned given ∈ log ∧ addr = connectTarget given

/-- What an event says of those before it. -/
def Grounds (older : List Event) : Event → Prop
  | .bound | .sent (.ok _) => Right older
  | .connected addr => Target older addr
  | .spawned _ => ∀ given, .spawned given ∉ older
  | .reported _ | .ended | .sent (.error _) => True

variable {log : List Event}

theorem Right.cons (h : Right log) (e : Event) : Right (e :: log) := by
  obtain ⟨given, report, hgiven, hreport, hright⟩ := h
  exact ⟨given, report, List.mem_cons_of_mem e hgiven, List.mem_cons_of_mem e hreport, hright⟩

theorem Target.cons {addr : SocketAddr} (h : Target log addr) (e : Event) :
    Target (e :: log) addr := by
  obtain ⟨given, hgiven, haddr⟩ := h
  exact ⟨given, List.mem_cons_of_mem e hgiven, haddr⟩

variable {report : Report}

theorem mem_reports : report ∈ reports log ↔ .reported report ∈ log := by
  induction log with
  | nil => exact iff_of_false List.not_mem_nil List.not_mem_nil
  | cons e log ih =>
    rw [List.mem_cons, ← ih]
    cases e with
    | reported r => rw [reports, List.mem_cons, Event.reported.injEq]
    | _ => exact (or_iff_right (by simp)).symm

theorem mem_sends : report ∈ sends log ↔ .sent report ∈ log := by
  induction log with
  | nil => exact iff_of_false List.not_mem_nil List.not_mem_nil
  | cons e log ih =>
    rw [List.mem_cons, ← ih]
    cases e with
    | sent r => rw [sends, List.mem_cons, Event.sent.injEq]
    | _ => exact (or_iff_right (by simp)).symm

theorem Timely.mem (h : Timely report log) : report ∈ reports log := by
  rw [mem_reports]
  induction log with
  | nil => exact h.elim
  | cons e log ih =>
    rcases h with ⟨rfl, -⟩ | h
    · exact .head _
    · exact List.mem_cons_of_mem e (ih h)

theorem timely_of_split {newer older : List Event} (h : .ended ∉ older) :
    Timely report (newer ++ .reported report :: older) := by
  induction newer with
  | nil => exact Or.inl ⟨rfl, h⟩
  | cons e newer ih => exact Or.inr ih

/-- After the end of the inner plugin nothing is timely any more. -/
theorem Timely.of_cons {e : Event} (h : Timely report (e :: log))
    (he : (∀ r, e ≠ .reported r) ∨ .ended ∈ log) : Timely report log := by
  rcases h with ⟨rfl, hnot⟩ | h
  · rcases he with he | he
    · exact absurd rfl (he report)
    · exact absurd he hnot
  · exact h

end Log

/-! ### The invariant -/

/-- What the channel holds of what was delivered. -/
def Carries (log : List Event) : Channel → Prop
  | .live | .dropped => reports log = []
  | .full report => reports log = [report]
  | .taken => True

/-- The inner plugin reported that it is ready. -/
def Ready (log : List Event) : Prop := ∃ report : PluginReady, reports log = [.ok report]

/-- What holds once `run` returned. -/
structure Returned (inner : Inner) (forwarders : List SocketAddr) (log : List Event)
    (result : Except Error Unit) : Prop where
  inner : inner ≠ .running
  forwarders : forwarders = []
  once : (sends log).length ≤ 1
  failed : ∀ e, .error e ∈ sends log → ∃ error, result = .error error
  typed : ∀ e, Timely (.error e) log → sends log = [.error e]

/-- Nothing was sent, and no forwarder runs. -/
def Quiet (w : World) : Prop := sends w.log = [] ∧ w.forwarders = []

/-- The tap sent that it is ready, as the inner plugin had. -/
def Served (w : World) : Prop := Ready w.log ∧ ∃ m, sends w.log = [.ok m]

/-- What holds where `run` is. -/
def Placed (w : World) : Place → Prop
  | .pickPort | .pause => Quiet w ∧ w.inner = .absent ∧ w.channel = .live
  | .awaitReport _ | .drainAfterShutdown | .stopInner .notReady =>
    Quiet w ∧ w.inner ≠ .absent ∧ w.channel ≠ .taken
  | .awaitEnd _ => Quiet w ∧ w.inner ≠ .absent ∧ w.channel = .dropped
  | .stopInner (.outside _) => Quiet w ∧ Ready w.log
  | .stopInner (.typed e) => Quiet w ∧ reports w.log = [.error e]
  | .stopInner (.bind _) | .stopInner (.address _) | .bindListener | .readAddr =>
    Quiet w ∧ Ready w.log ∧ Right w.log
  | .stopInner (.accept _ _) => w.forwarders = [] ∧ Served w
  | .serve _ => Served w
  | .endForwarders next => Served w ∧ ∀ joined, next = .exited joined → w.inner = .ended joined
  | .drainInner => w.forwarders = [] ∧ w.inner ≠ .absent ∧
      ((sends w.log = [] ∧ w.channel = .dropped) ∨ Served w)
  | .returned result => Returned w.inner w.forwarders w.log result

/-- What holds wherever `run` is. -/
structure Base (w : World) : Prop where
  justified : Justified Grounds w.log
  carries : Carries w.log w.channel
  spawned : ∀ given, w.given = some given ↔ .spawned given ∈ w.log
  absent : w.inner = .absent → reports w.log = [] ∧ w.given = none
  ended : (∃ joined, w.inner = .ended joined) ↔ .ended ∈ w.log
  targets : ∀ addr ∈ w.forwarders, Target w.log addr

/-- What holds in every world. -/
structure Inv (w : World) : Prop where
  base : Base w
  placed : Placed w w.place

section Base

variable {w : World}

theorem Base.goTo (h : Base w) (place : Place) : Base (w.goTo place) :=
  ⟨h.justified, h.carries, h.spawned, h.absent, h.ended, h.targets⟩

theorem Base.stop (h : Base w) (failure : Failure) : Base (w.stop failure) :=
  ⟨h.justified, h.carries, h.spawned, h.absent, h.ended, h.targets⟩

theorem Base.recv (h : Base w) : Base w.recv := by
  refine ⟨h.justified, ?_, h.spawned, h.absent, h.ended, h.targets⟩
  have hcarries := h.carries
  rw [World.recv]
  cases hchannel : w.channel with
  | full report => trivial
  | live => rwa [hchannel] at hcarries
  | taken => trivial
  | dropped => rwa [hchannel] at hcarries

theorem carries_congr {log log' : List Event} {channel : Channel}
    (hreports : reports log' = reports log) (h : Carries log channel) : Carries log' channel := by
  cases channel with
  | live => exact hreports.trans h
  | full report => exact hreports.trans h
  | taken => trivial
  | dropped => exact hreports.trans h

/-- An event of the tap or of a forwarder. -/
theorem Base.note (h : Base w) {e : Event} (hgrounds : Grounds w.log e)
    (he : (∃ report, e = .sent report) ∨ e = .bound ∨ ∃ addr, e = .connected addr) :
    Base (w.note e) := by
  have hreports : reports (e :: w.log) = reports w.log := by
    rcases he with ⟨report, rfl⟩ | rfl | ⟨addr, rfl⟩ <;> rfl
  have hspawned (given : SocketAddr) : .spawned given ∈ e :: w.log ↔ .spawned given ∈ w.log := by
    rw [List.mem_cons, or_iff_right]
    rcases he with ⟨report, rfl⟩ | rfl | ⟨addr, rfl⟩ <;> exact nofun
  have hended : .ended ∈ e :: w.log ↔ .ended ∈ w.log := by
    rw [List.mem_cons, or_iff_right]
    rcases he with ⟨report, rfl⟩ | rfl | ⟨addr, rfl⟩ <;> exact nofun
  refine ⟨⟨hgrounds, h.justified⟩, ?_, fun given ↦ (h.spawned given).trans (hspawned given).symm,
    fun hinner ↦ ⟨hreports.trans (h.absent hinner).1, (h.absent hinner).2⟩,
    h.ended.trans hended.symm, fun addr haddr ↦ (h.targets addr haddr).cons e⟩
  exact carries_congr hreports h.carries

theorem Base.send (h : Base w) {report : Report} (hgrounds : Grounds w.log (.sent report)) :
    Base (w.send report) := h.note hgrounds (Or.inl ⟨report, rfl⟩)

theorem Base.sendError (h : Base w) (e : StartError) : Base (w.send (.error e)) := by
  have hgrounds : Grounds w.log (.sent (.error e)) := trivial
  exact h.send hgrounds

/-- What was delivered in time is in the channel until it is taken. -/
theorem Base.delivered (h : Base w) (hchannel : w.channel ≠ .taken) {e : StartError}
    (htimely : Timely (.error e) w.log) : w.deliveredStartFailure = some e := by
  have hmem := htimely.mem
  have hcarries := h.carries
  cases hc : w.channel with
  | full report =>
    rw [hc] at hcarries
    rw [hcarries, List.mem_singleton] at hmem
    rw [World.deliveredStartFailure, hc, ← hmem]
  | live =>
    rw [hc] at hcarries
    rw [hcarries] at hmem
    cases hmem
  | taken => exact absurd hc hchannel
  | dropped =>
    rw [hc] at hcarries
    rw [hcarries] at hmem
    cases hmem

theorem Ready.not_timely {log : List Event} (h : Ready log) (e : StartError) :
    ¬Timely (.error e) log := by
  intro htimely
  obtain ⟨report, hreports⟩ := h
  have hmem := htimely.mem
  rw [hreports, List.mem_singleton] at hmem
  cases hmem

/-- `run` returns with the failure that it sent. -/
theorem returned_send (hquiet : Quiet w) (hinner : w.inner ≠ .running) {e : StartError}
    (error : Error) (htyped : ∀ e', Timely (.error e') w.log → e = e') :
    Placed ((w.send (.error e)).finish (.error error)) (.returned (.error error)) := by
  have hsends : sends (.sent (.error e) :: w.log) = [.error e] := by rw [sends, hquiet.1]
  refine ⟨hinner, hquiet.2, ?_, fun _ _ ↦ ⟨error, rfl⟩, fun e' htimely ↦ ?_⟩
  · exact hsends ▸ le_rfl
  · have hin : Timely (.error e') w.log := htimely.of_cons (Or.inl nofun)
    exact htyped e' hin ▸ hsends

/-- `run` returns and sends no failure. -/
theorem returned_finish (hforwarders : w.forwarders = []) (hinner : w.inner ≠ .running)
    (hsends : sends w.log = [] ∨ ∃ m, sends w.log = [.ok m]) (result : Except Error Unit)
    (htyped : ∀ e, ¬Timely (.error e) w.log) :
    Placed (w.finish result) (.returned result) := by
  refine ⟨hinner, hforwarders, ?_, fun e he ↦ ?_, fun e htimely ↦ (htyped e htimely).elim⟩
  · rcases hsends with hnil | ⟨m, hone⟩
    · exact hnil ▸ Nat.zero_le 1
    · exact hone ▸ le_rfl
  · have hmem : .error e ∈ sends w.log := he
    rcases hsends with hnil | ⟨m, hone⟩
    · rw [hnil] at hmem
      cases hmem
    · rw [hone, List.mem_singleton] at hmem
      cases hmem

end Base

/-! ### The steps of the tap -/

section TapStep

variable {a : Args} {w w' : World}

theorem failedStartResult_eq (joined : Joined) :
    ∃ error, World.failedStartResult a joined = .error error := by
  rw [World.failedStartResult]
  cases World.joinResult a joined with
  | ok u => exact ⟨_, rfl⟩
  | error e => exact ⟨e, rfl⟩

theorem ended_ne_running {joined : Joined} (h : w.inner = .ended joined) : w.inner ≠ .running :=
  fun hrunning ↦ nomatch h.symm.trans hrunning

/-- `run` fails with what the inner plugin delivered before its end, or with a failure of its
own. -/
theorem Inv.failed (hbase : Base w) (hquiet : Quiet w) (hinner : w.inner ≠ .running)
    {typed : Option StartError} (error : Error)
    (htyped : ∀ e, Timely (.error e) w.log → typed = some e) :
    Inv ((w.reportStartFailure a typed).finish (.error error)) := by
  refine ⟨(hbase.sendError _).goTo _, returned_send hquiet hinner error fun e htimely ↦ ?_⟩
  rw [htyped e htimely]
  rfl

theorem Inv.failStart (hbase : Base w) (hquiet : Quiet w) (hinner : w.inner ≠ .running)
    (detail : String) (errno : Option Int32) (htyped : ∀ e, ¬Timely (.error e) w.log) :
    Inv (w.failStart detail errno) :=
  ⟨(hbase.sendError _).goTo _, returned_send hquiet hinner _ fun e h ↦ (htyped e h).elim⟩

theorem Inv.reportInnerFailure (hbase : Base w) (hquiet : Quiet w) (hinner : w.inner ≠ .running)
    {typed : StartError} (htyped : ∀ e, Timely (.error e) w.log → typed = e) :
    Inv (w.reportInnerFailure a typed) :=
  Inv.failed hbase hquiet hinner _ fun e h ↦ congrArg some (htyped e h)

/-- The inner plugin ended after the shutdown. -/
theorem Inv.afterDrain (hbase : Base w) (hquiet : Quiet w) (hinner : w.inner ≠ .running)
    (hchannel : w.channel ≠ .taken) (joined : Joined) : Inv (w.afterDrain a joined) := by
  obtain ⟨error, herror⟩ := failedStartResult_eq (a := a) joined
  rw [World.afterDrain]
  cases htyped : w.deliveredStartFailure with
  | some typed =>
    rw [herror]
    exact Inv.failed hbase.recv hquiet hinner error fun e h ↦
      htyped.symm.trans (hbase.delivered hchannel h)
  | none =>
    exact ⟨hbase.recv.goTo _, returned_finish hquiet.2 hinner (Or.inl hquiet.1) _ fun e h ↦
      nomatch htyped.symm.trans (hbase.delivered hchannel h)⟩

/-- The inner plugin ended after the deadline. -/
theorem Inv.afterNotReady (hbase : Base w) (hquiet : Quiet w) (hinner : w.inner ≠ .running)
    (hchannel : w.channel ≠ .taken) (given : SocketAddr) : Inv (w.afterNotReady a given) := by
  rw [World.afterNotReady]
  cases htyped : w.deliveredStartFailure with
  | some typed =>
    exact Inv.reportInnerFailure hbase.recv hquiet hinner fun e h ↦
      Option.some.inj (htyped.symm.trans (hbase.delivered hchannel h))
  | none =>
    exact Inv.failStart hbase.recv hquiet hinner _ _ fun e h ↦
      nomatch htyped.symm.trans (hbase.delivered hchannel h)

/-- **A failed start is reported once the inner plugin ended**, as it failed where it did. -/
theorem Inv.stopped (hbase : Base w) {failure : Failure} (hplaced : Placed w (.stopInner failure))
    (hinner : w.inner ≠ .running) (given : SocketAddr) : Inv (w.stopped a given failure) := by
  cases failure with
  | outside listen =>
    exact Inv.failStart hbase hplaced.1 hinner _ _ hplaced.2.not_timely
  | typed e =>
    refine Inv.reportInnerFailure hbase hplaced.1 hinner fun e' htimely ↦ ?_
    have hmem := htimely.mem
    rw [hplaced.2, List.mem_singleton] at hmem
    exact (Except.error.inj hmem).symm
  | notReady => exact Inv.afterNotReady hbase hplaced.1 hinner hplaced.2.2 given
  | bind e =>
    exact ⟨(hbase.sendError _).goTo _, returned_send hplaced.1 hinner _ fun e' h ↦
      (hplaced.2.1.not_timely e' h).elim⟩
  | address e =>
    exact Inv.failStart hbase hplaced.1 hinner _ _ hplaced.2.1.not_timely
  | accept listen e =>
    exact ⟨hbase.goTo _, returned_finish hplaced.1 hinner (Or.inr hplaced.2.2) _
      hplaced.2.1.not_timely⟩

/-- What the tap took from the channel was all that was delivered. -/
theorem Base.reports_eq (h : Base w) {report : Report} (hchannel : w.channel = .full report) :
    reports w.log = [report] := by
  have hcarries := h.carries
  rwa [hchannel] at hcarries

theorem Base.reports_nil (h : Base w) (hchannel : w.channel = .live ∨ w.channel = .dropped) :
    reports w.log = [] := by
  have hcarries := h.carries
  rcases hchannel with hlive | hdropped
  · rwa [hlive] at hcarries
  · rwa [hdropped] at hcarries

theorem Base.not_timely (h : Base w) (hchannel : w.channel = .live ∨ w.channel = .dropped)
    (e : StartError) : ¬Timely (.error e) w.log := by
  intro htimely
  have hmem := htimely.mem
  rw [h.reports_nil hchannel] at hmem
  cases hmem

/-- The inner plugin is started once. -/
theorem Base.spawn (h : Base w) (hinner : w.inner = .absent) (hforwarders : w.forwarders = [])
    (given : SocketAddr) : Base (w.spawn given) := by
  obtain ⟨hreports, hgiven⟩ := h.absent hinner
  have hnone (g : SocketAddr) : .spawned g ∉ w.log := fun hmem ↦
    nomatch hgiven.symm.trans ((h.spawned g).2 hmem)
  have hnotEnded : .ended ∉ w.log := fun hmem ↦ by
    obtain ⟨joined, hended⟩ := h.ended.2 hmem
    cases hinner.symm.trans hended
  have hcarries : Carries (.spawned given :: w.log) w.channel := carries_congr rfl h.carries
  refine ⟨⟨hnone, h.justified⟩, hcarries, fun g ↦ ?_, nofun, ?_, fun addr haddr ↦ ?_⟩
  · show some given = some g ↔ Event.spawned g ∈ Event.spawned given :: w.log
    rw [List.mem_cons, or_iff_left (hnone g), Option.some.injEq, Event.spawned.injEq, eq_comm]
  · show (∃ joined, Inner.running = .ended joined) ↔ Event.ended ∈ Event.spawned given :: w.log
    rw [List.mem_cons, or_iff_right (by simp)]
    exact iff_of_false (fun ⟨_, heq⟩ ↦ nomatch heq) hnotEnded
  · have hmem : addr ∈ w.forwarders := haddr
    rw [hforwarders] at hmem
    cases hmem

/-- **What a step of `run` keeps.** -/
theorem Inv.tap (h : Inv w) (hstep : TapStep a w w') : Inv w' := by
  obtain ⟨hbase, hplaced⟩ := h
  have hgoes {here next : Place} (hplace : w.place = here)
      (hkeeps : Placed w here → Placed (w.goTo next) next) : Inv (w.goTo next) :=
    ⟨hbase.goTo next, hkeeps (hplace ▸ hplaced)⟩
  cases hstep with
  | probed hplace given hfree =>
    rw [hplace] at hplaced
    obtain ⟨hquiet, hinner, hlive⟩ := hplaced
    refine ⟨hbase.spawn hinner hquiet.2 given, hquiet, nofun, fun htaken ↦ ?_⟩
    cases hlive.symm.trans htaken
  | probedTaken hplace addr htaken =>
    exact hgoes hplace id
  | probeRaced hplace e hrace =>
    exact hgoes hplace id
  | probeFailed hplace e hrace =>
    rw [hplace] at hplaced
    obtain ⟨hquiet, hinner, hlive⟩ := hplaced
    exact Inv.failStart hbase hquiet (fun hrunning ↦ nomatch hinner.symm.trans hrunning) _ _
      (hbase.not_timely (Or.inl hlive))
  | pauseOver hplace =>
    exact hgoes hplace id
  | pauseCut hplace hshutdown =>
    rw [hplace] at hplaced
    obtain ⟨hquiet, hinner, hlive⟩ := hplaced
    exact ⟨hbase.goTo _, returned_finish hquiet.2 (fun hrunning ↦
      nomatch hinner.symm.trans hrunning) (Or.inl hquiet.1) _ (hbase.not_timely (Or.inl hlive))⟩
  | reportedGiven hplace hgiven hchannel hright =>
    rw [hplace] at hplaced
    have hreports := hbase.reports_eq hchannel
    have hmem := mem_reports.1 (hreports ▸ List.mem_singleton_self _)
    exact ⟨hbase.recv.goTo _, hplaced.1, ⟨_, hreports⟩, _, _, (hbase.spawned _).1 hgiven, hmem,
      hright⟩
  | reportedOutside hplace hgiven hchannel hwrong =>
    rw [hplace] at hplaced
    exact ⟨hbase.recv.stop _, hplaced.1, _, hbase.reports_eq hchannel⟩
  | reportedFailure hplace hchannel =>
    rw [hplace] at hplaced
    exact ⟨hbase.recv.stop _, hplaced.1, hbase.reports_eq hchannel⟩
  | reportDropped hplace hchannel =>
    rw [hplace] at hplaced
    exact ⟨hbase.goTo _, hplaced.1, hplaced.2.1, hchannel⟩
  | reportPending hplace hchannel =>
    exact hgoes hplace id
  | reportLate hplace hlate =>
    rw [hplace] at hplaced
    exact ⟨hbase.stop _, hplaced⟩
  | reportNotLate hplace hlate =>
    exact hgoes hplace id
  | @reportEnded hplace joined hinner =>
    rw [hplace] at hplaced
    obtain ⟨error, herror⟩ := failedStartResult_eq (a := a) joined
    rw [herror]
    exact Inv.failed hbase.recv hplaced.1 (ended_ne_running hinner) error fun e ↦
      hbase.delivered hplaced.2.2
  | reportNotEnded hplace hinner =>
    exact hgoes hplace id
  | reportShutdown hplace hshutdown =>
    exact hgoes hplace id
  | reportNoShutdown hplace hshutdown =>
    exact hgoes hplace id
  | endShutdown hplace hshutdown =>
    rw [hplace] at hplaced
    obtain ⟨hquiet, hinner, hdropped⟩ := hplaced
    exact ⟨hbase.goTo _, hquiet.2, hinner, Or.inl ⟨hquiet.1, hdropped⟩⟩
  | endNoShutdown hplace hshutdown =>
    exact hgoes hplace id
  | @endEnded hplace joined hinner =>
    rw [hplace] at hplaced
    obtain ⟨error, herror⟩ := failedStartResult_eq (a := a) joined
    rw [herror]
    exact Inv.failed hbase hplaced.1 (ended_ne_running hinner) error fun e h ↦
      (hbase.not_timely (Or.inr hplaced.2.2) e h).elim
  | endNotEnded hplace hinner =>
    exact hgoes hplace id
  | endLate hplace hlate =>
    -- The channel was dropped without a report, so no failure is there to be passed on.
    rw [hplace] at hplaced
    obtain ⟨hquiet, hinner, hdropped⟩ := hplaced
    exact ⟨hbase.stop _, hquiet, hinner, fun htaken ↦ nomatch hdropped.symm.trans htaken⟩
  | endNotLate hplace hlate =>
    exact hgoes hplace id
  | drainedAfterShutdown hplace hinner =>
    rw [hplace] at hplaced
    exact Inv.afterDrain hbase hplaced.1 (ended_ne_running hinner) hplaced.2.2 _
  | stopBoundExpired hplace =>
    exact ⟨⟨hbase.justified, hbase.carries, hbase.spawned, hbase.absent, hbase.ended,
      hbase.targets⟩, hplaced⟩
  | stopped hplace hgiven hinner =>
    rw [hplace] at hplaced
    exact Inv.stopped hbase hplaced (ended_ne_running hinner) _
  | listenerBound hplace =>
    rw [hplace] at hplaced
    have hgrounds : Grounds w.log .bound := hplaced.2.2
    exact ⟨(hbase.note hgrounds (Or.inr (Or.inl rfl))).goTo _, hplaced.1, hplaced.2.1,
      hplaced.2.2.cons _⟩
  | bindFailed hplace e =>
    rw [hplace] at hplaced
    exact ⟨hbase.stop _, hplaced⟩
  | addrRead hplace listen =>
    rw [hplace] at hplaced
    have hgrounds : Grounds w.log (.sent (.ok ⟨listen, .tcp⟩)) := hplaced.2.2
    exact ⟨(hbase.send hgrounds).goTo _, hplaced.2.1, _, congrArg (_ :: ·) hplaced.1.1⟩
  | addrFailed hplace e =>
    rw [hplace] at hplaced
    exact ⟨hbase.stop _, hplaced⟩
  | accepted hplace hgiven =>
    rw [hplace] at hplaced
    have htarget : Target w.log (connectTarget _) := ⟨_, (hbase.spawned _).1 hgiven, rfl⟩
    refine ⟨⟨hbase.justified, hbase.carries, hbase.spawned, hbase.absent, hbase.ended,
      List.forall_mem_cons.2 ⟨htarget, hbase.targets⟩⟩, ?_⟩
    show Placed _ w.place
    rw [hplace]
    exact hplaced
  | acceptFailed hplace e =>
    rw [hplace] at hplaced
    exact ⟨hbase.goTo _, hplaced, nofun⟩
  | serveShutdown hplace hshutdown =>
    rw [hplace] at hplaced
    exact ⟨hbase.goTo _, hplaced, nofun⟩
  | serveEnded hplace hinner =>
    rw [hplace] at hplaced
    refine ⟨hbase.goTo _, hplaced, fun joined hjoined ↦ ?_⟩
    cases hjoined
    exact hinner
  | forwardersDrain hplace hnone =>
    rw [hplace] at hplaced
    refine ⟨hbase.goTo _, hnone, fun habsent ↦ ?_, Or.inr hplaced.1⟩
    -- What has served had a report, and a plugin that was never spawned makes none.
    obtain ⟨report, hreports⟩ := hplaced.1.1
    cases hreports.symm.trans (hbase.absent habsent).1
  | forwardersStop hplace hnone =>
    rw [hplace] at hplaced
    exact ⟨hbase.stop _, hnone, hplaced.1⟩
  | forwardersExited hplace hnone =>
    rw [hplace] at hplaced
    exact ⟨hbase.goTo _, returned_finish hnone (ended_ne_running (hplaced.2 _ rfl))
      (Or.inr hplaced.1.2) _ hplaced.1.1.not_timely⟩
  | drained hplace hinner =>
    rw [hplace] at hplaced
    obtain ⟨hforwarders, -, ⟨hnil, hdropped⟩ | ⟨hready, hserved⟩⟩ := hplaced
    · exact ⟨hbase.goTo _, returned_finish hforwarders (ended_ne_running hinner) (Or.inl hnil) _
        (hbase.not_timely (Or.inr hdropped))⟩
    · exact ⟨hbase.goTo _, returned_finish hforwarders (ended_ne_running hinner) (Or.inr hserved) _
        hready.not_timely⟩

end TapStep

/-! ### The other steps -/

section OtherStep

variable {a : Args} {w w' : World}

/-- What holds at a place goes on to hold as long as nothing is sent or delivered, and no forwarder
is started. -/
theorem Placed.mono {place : Place} (h : Placed w place) (hsends : sends w'.log = sends w.log)
    (hreports : reports w'.log = reports w.log) (hright : Right w.log → Right w'.log)
    (htimely : ∀ e, Timely (.error e) w'.log → Timely (.error e) w.log)
    (hforwarders : w.forwarders = [] → w'.forwarders = []) (hchannel : w'.channel = w.channel)
    (hinner : w'.inner = w.inner ∨ w.inner = .running ∧ ∃ joined, w'.inner = .ended joined) :
    Placed w' place := by
  have hquiet (hquiet : Quiet w) : Quiet w' := ⟨hsends.trans hquiet.1, hforwarders hquiet.2⟩
  have hready (hready : Ready w.log) : Ready w'.log := by
    obtain ⟨report, heq⟩ := hready
    exact ⟨report, hreports.trans heq⟩
  have hserved (hserved : Served w) : Served w' := by
    obtain ⟨hready', m, hm⟩ := hserved
    exact ⟨hready hready', m, hsends.trans hm⟩
  have hpresent (hne : w.inner ≠ .absent) : w'.inner ≠ .absent := by
    rcases hinner with hsame | ⟨-, joined, hended⟩
    · rwa [hsame]
    · exact fun habsent ↦ nomatch hended.symm.trans habsent
  have hstays {inner : Inner} (hne : inner ≠ .running) (heq : w.inner = inner) :
      w'.inner = inner := by
    rcases hinner with hsame | ⟨hrunning, -⟩
    · exact hsame.trans heq
    · exact absurd (heq.symm.trans hrunning) hne
  cases place with
  | pickPort => exact ⟨hquiet h.1, hstays nofun h.2.1, hchannel.trans h.2.2⟩
  | pause => exact ⟨hquiet h.1, hstays nofun h.2.1, hchannel.trans h.2.2⟩
  | awaitReport poll => exact ⟨hquiet h.1, hpresent h.2.1, hchannel ▸ h.2.2⟩
  | awaitEnd poll => exact ⟨hquiet h.1, hpresent h.2.1, hchannel.trans h.2.2⟩
  | drainAfterShutdown => exact ⟨hquiet h.1, hpresent h.2.1, hchannel ▸ h.2.2⟩
  | stopInner failure =>
    cases failure with
    | outside listen => exact ⟨hquiet h.1, hready h.2⟩
    | typed e => exact ⟨hquiet h.1, hreports.trans h.2⟩
    | notReady => exact ⟨hquiet h.1, hpresent h.2.1, hchannel ▸ h.2.2⟩
    | bind e => exact ⟨hquiet h.1, hready h.2.1, hright h.2.2⟩
    | address e => exact ⟨hquiet h.1, hready h.2.1, hright h.2.2⟩
    | accept listen e => exact ⟨hforwarders h.1, hserved h.2⟩
  | bindListener => exact ⟨hquiet h.1, hready h.2.1, hright h.2.2⟩
  | readAddr => exact ⟨hquiet h.1, hready h.2.1, hright h.2.2⟩
  | serve listen => exact hserved h
  | endForwarders next => exact ⟨hserved h.1, fun joined hnext ↦ hstays nofun (h.2 joined hnext)⟩
  | drainInner =>
    refine ⟨hforwarders h.1, hpresent h.2.1, h.2.2.imp (fun hquiet ↦ ?_) hserved⟩
    exact ⟨hsends.trans hquiet.1, hchannel.trans hquiet.2⟩
  | returned result =>
    obtain ⟨hnot, hnone, honce, hfailed, htyped⟩ := h
    refine ⟨?_, hforwarders hnone, hsends ▸ honce, hsends ▸ hfailed, fun e h ↦
      hsends.trans (htyped e (htimely e h))⟩
    rcases hinner with hsame | ⟨hrunning, -⟩
    · rwa [hsame]
    · exact absurd hrunning hnot

/-- Where the channel is live, what holds of a place does not say that anything was delivered. -/
theorem Placed.of_live {place : Place} (h : Placed w place) (hbase : Base w)
    (hinner : w.inner ≠ .absent) (hlive : w.channel = .live) (hsends : sends w'.log = sends w.log)
    (htimely : (∃ joined, w.inner = .ended joined) →
      ∀ e, Timely (.error e) w'.log → Timely (.error e) w.log)
    (hforwarders : w'.forwarders = w.forwarders) (hsame : w'.inner = w.inner)
    (hchannel : w'.channel ≠ .taken) : Placed w' place := by
  have hquiet (hquiet : Quiet w) : Quiet w' := ⟨hsends.trans hquiet.1, hforwarders.trans hquiet.2⟩
  have hnil := hbase.reports_nil (Or.inl hlive)
  have hnotReady (hready : Ready w.log) : False := by
    obtain ⟨report, heq⟩ := hready
    cases hnil.symm.trans heq
  have hnotDropped (hdropped : w.channel = .dropped) : False := nomatch hlive.symm.trans hdropped
  have hpresent : w'.inner ≠ .absent := hsame ▸ hinner
  cases place with
  | pickPort => exact absurd h.2.1 hinner
  | pause => exact absurd h.2.1 hinner
  | awaitReport poll => exact ⟨hquiet h.1, hpresent, hchannel⟩
  | awaitEnd poll => exact (hnotDropped h.2.2).elim
  | drainAfterShutdown => exact ⟨hquiet h.1, hpresent, hchannel⟩
  | stopInner failure =>
    cases failure with
    | outside listen => exact (hnotReady h.2).elim
    | typed e => cases hnil.symm.trans h.2
    | notReady => exact ⟨hquiet h.1, hpresent, hchannel⟩
    | _ => exact (hnotReady h.2.1).elim
  | bindListener => exact (hnotReady h.2.1).elim
  | readAddr => exact (hnotReady h.2.1).elim
  | serve listen => exact (hnotReady h.1).elim
  | endForwarders next => exact (hnotReady h.1.1).elim
  | drainInner =>
    rcases h.2.2 with ⟨-, hdropped⟩ | hserved
    · exact (hnotDropped hdropped).elim
    · exact (hnotReady hserved.1).elim
  | returned result =>
    obtain ⟨hnot, hnone, honce, hfailed, htyped⟩ := h
    have hended : ∃ joined, w.inner = .ended joined := by
      cases hi : w.inner with
      | absent => exact absurd hi hinner
      | running => exact absurd hi hnot
      | ended joined => exact ⟨joined, rfl⟩
    exact ⟨hsame ▸ hnot, hforwarders.trans hnone, hsends ▸ honce, hsends ▸ hfailed, fun e h ↦
      hsends.trans (htyped e (htimely hended e h))⟩

/-- **What a step of the others keeps.** -/
theorem Inv.other (h : Inv w) (hstep : OtherStep w w') : Inv w' := by
  obtain ⟨hbase, hplaced⟩ := h
  cases hstep with
  | reports hinner hchannel report =>
    have hnil := hbase.reports_nil (Or.inl hchannel)
    refine ⟨⟨⟨trivial, hbase.justified⟩, congrArg (report :: ·) hnil, fun given ↦ ?_,
      fun habsent ↦ absurd habsent hinner, ?_, fun addr haddr ↦ (hbase.targets addr haddr).cons _⟩,
      hplaced.of_live hbase hinner hchannel rfl (fun hended e htimely ↦ ?_) rfl rfl nofun⟩
    · show _ ↔ Event.spawned given ∈ Event.reported report :: w.log
      rw [List.mem_cons, or_iff_right nofun]
      exact hbase.spawned given
    · show _ ↔ Event.ended ∈ Event.reported report :: w.log
      rw [List.mem_cons, or_iff_right nofun]
      exact hbase.ended
    · exact htimely.of_cons (Or.inr (hbase.ended.1 hended))
  | drops hinner hchannel =>
    exact ⟨⟨hbase.justified, hbase.reports_nil (Or.inl hchannel), hbase.spawned, hbase.absent,
      hbase.ended, hbase.targets⟩,
      hplaced.of_live hbase hinner hchannel rfl (fun _ _ ↦ id) rfl rfl nofun⟩
  | ends hinner joined =>
    refine ⟨⟨⟨trivial, hbase.justified⟩, carries_congr rfl hbase.carries, fun given ↦ ?_, nofun, ?_,
      fun addr haddr ↦ (hbase.targets addr haddr).cons _⟩,
      hplaced.mono rfl rfl (fun hright ↦ hright.cons _) (fun e htimely ↦ ?_) id rfl
        (Or.inr ⟨hinner, joined, rfl⟩)⟩
    · show _ ↔ Event.spawned given ∈ Event.ended :: w.log
      rw [List.mem_cons, or_iff_right nofun]
      exact hbase.spawned given
    · exact iff_of_true ⟨joined, rfl⟩ (.head _)
    · exact htimely.of_cons (Or.inl nofun)
  | cancels =>
    exact ⟨⟨hbase.justified, hbase.carries, hbase.spawned, hbase.absent, hbase.ended,
      hbase.targets⟩, hplaced.mono rfl rfl id (fun _ ↦ id) id rfl (Or.inl rfl)⟩
  | deadline =>
    exact ⟨⟨hbase.justified, hbase.carries, hbase.spawned, hbase.absent, hbase.ended,
      hbase.targets⟩, hplaced.mono rfl rfl id (fun _ ↦ id) id rfl (Or.inl rfl)⟩
  | connects hforwarder =>
    have hgrounds : Grounds w.log (.connected _) := hbase.targets _ hforwarder
    exact ⟨hbase.note hgrounds (Or.inr (Or.inr ⟨_, rfl⟩)),
      hplaced.mono rfl rfl (fun hright ↦ hright.cons _)
        (fun e htimely ↦ htimely.of_cons (Or.inl nofun)) id rfl (Or.inl rfl)⟩
  | forwarderEnds addr =>
    refine ⟨⟨hbase.justified, hbase.carries, hbase.spawned, hbase.absent, hbase.ended,
      fun other hother ↦ hbase.targets other (List.mem_of_mem_erase hother)⟩,
      hplaced.mono rfl rfl id (fun _ ↦ id) (fun hnone ↦ ?_) rfl (Or.inl rfl)⟩
    show w.forwarders.erase addr = []
    rw [hnone]
    rfl

end OtherStep

/-! ### The runs -/

section Runs

variable {a : Args} {w : World}

theorem inv_start : Inv .start :=
  ⟨⟨trivial, rfl, fun _ ↦ iff_of_false nofun List.not_mem_nil, fun _ ↦ ⟨rfl, rfl⟩,
    iff_of_false (fun ⟨_, heq⟩ ↦ nomatch heq) List.not_mem_nil, nofun⟩, ⟨rfl, rfl⟩, rfl, rfl⟩

theorem Reachable.inv (h : Reachable a w) : Inv w := by
  induction h with
  | start => exact inv_start
  | step h hstep ih =>
    rcases hstep with htap | hother
    · exact ih.tap htap
    · exact ih.other hother

/-- At most one message is sent. -/
theorem Inv.once (h : Inv w) : (sends w.log).length ≤ 1 := by
  have hnil (hquiet : Quiet w) : (sends w.log).length ≤ 1 := by
    rw [hquiet.1]
    exact Nat.zero_le 1
  have hone (hserved : Served w) : (sends w.log).length ≤ 1 := by
    obtain ⟨-, m, hm⟩ := hserved
    rw [hm]
    exact le_rfl
  have hplaced := h.placed
  cases hplace : w.place with
  | pickPort => exact hnil (hplace ▸ hplaced).1
  | pause => exact hnil (hplace ▸ hplaced).1
  | awaitReport poll => exact hnil (hplace ▸ hplaced).1
  | awaitEnd poll => exact hnil (hplace ▸ hplaced).1
  | drainAfterShutdown => exact hnil (hplace ▸ hplaced).1
  | stopInner failure =>
    rw [hplace] at hplaced
    cases failure with
    | outside listen => exact hnil hplaced.1
    | typed e => exact hnil hplaced.1
    | notReady => exact hnil hplaced.1
    | bind e => exact hnil hplaced.1
    | address e => exact hnil hplaced.1
    | accept listen e => exact hone hplaced.2
  | bindListener => exact hnil (hplace ▸ hplaced).1
  | readAddr => exact hnil (hplace ▸ hplaced).1
  | serve listen =>
    rw [hplace] at hplaced
    exact hone hplaced
  | endForwarders next => exact hone (hplace ▸ hplaced).1
  | drainInner =>
    rw [hplace] at hplaced
    rcases hplaced.2.2 with ⟨hnone, -⟩ | hserved
    · rw [hnone]
      exact Nat.zero_le 1
    · exact hone hserved
  | returned result => exact (hplace ▸ hplaced).once

/-- Forwarders connect to the port of the inner plugin, on its address or that of the host. -/
theorem connectTarget_spec (given : SocketAddr) : (connectTarget given).port = given.port ∧
    ((connectTarget given).ip = given.ip ∨
      (given.ip.isUnspecified = true ∧ (connectTarget given).ip.isLoopback = true)) := by
  obtain ⟨ip, port⟩ := given
  cases ip with
  | v4 bits =>
    rw [connectTarget]
    dsimp only
    split
    · next hany =>
      have hloopback : (IpAddr.ofOctets 127 0 0 1).isLoopback = true := by decide
      exact ⟨rfl, Or.inr ⟨hany, hloopback⟩⟩
    · exact ⟨rfl, Or.inl rfl⟩
  | v6 bits =>
    rw [connectTarget]
    dsimp only
    split
    · next hany =>
      have hloopback : (IpAddr.v6 1).isLoopback = true := by decide
      exact ⟨rfl, Or.inr ⟨hany, hloopback⟩⟩
    · exact ⟨rfl, Or.inl rfl⟩

/-- **The tap is transparent to the chain.** -/
structure Transparent (w : World) : Prop where
  /-- The public listener is bound, and the tap says that it is ready, after the inner plugin
  reported the address that it was given. -/
  order : ∀ newer e older, w.log = newer ++ e :: older →
    e = .bound ∨ (∃ m, e = .sent (.ok m)) → Right older
  given : ∀ given, w.given = some given ↔ .spawned given ∈ w.log
  once : (sends w.log).length ≤ 1
  /-- A failure that the inner plugin delivered before its end is the one that is reported. -/
  typed : ∀ newer e older result, w.place = .returned result →
    w.log = newer ++ .reported (.error e) :: older → .ended ∉ older → sends w.log = [.error e]
  failed : ∀ e result, .sent (.error e) ∈ w.log → w.place = .returned result →
    ∃ error, result = .error error
  connects : ∀ addr, .connected addr ∈ w.log → ∃ given, w.given = some given ∧
    addr.port = given.port ∧
      (addr.ip = given.ip ∨ (given.ip.isUnspecified = true ∧ addr.ip.isLoopback = true))
  /-- Nothing outlives `run`. -/
  ended : ∀ result, w.place = .returned result → w.inner ≠ .running ∧ w.forwarders = []

/-- **The tap is transparent**, whatever the inner plugin does and in whatever order things
happen. -/
theorem transparent_of_reachable (h : Reachable a w) : Transparent w := by
  have hinv := h.inv
  have hreturned {result : Except Error Unit} (hplace : w.place = .returned result) :
      Returned w.inner w.forwarders w.log result := by
    have hplaced := hinv.placed
    rwa [hplace] at hplaced
  refine ⟨fun newer e older hlog he ↦ ?_, hinv.base.spawned, hinv.once,
    fun newer e older result hplace hlog hended ↦ ?_, fun e result hsent hplace ↦ ?_,
    fun addr hconnected ↦ ?_, fun result hplace ↦ ?_⟩
  · have hgrounds : Grounds older e := Justified.of_split (hlog ▸ hinv.base.justified)
    rcases he with rfl | ⟨m, rfl⟩
    · exact hgrounds
    · exact hgrounds
  · exact (hreturned hplace).typed e (hlog ▸ timely_of_split hended)
  · exact (hreturned hplace).failed e (mem_sends.2 hsent)
  · obtain ⟨newer, older, hlog⟩ := List.append_of_mem hconnected
    have hgrounds : Grounds older (.connected addr) :=
      Justified.of_split (hlog ▸ hinv.base.justified)
    obtain ⟨given, hgiven, rfl⟩ := hgrounds
    have hmem : .spawned given ∈ w.log :=
      hlog ▸ List.mem_append_right newer (.tail _ hgiven)
    exact ⟨given, (hinv.base.spawned given).2 hmem, connectTarget_spec given⟩
  · exact ⟨(hreturned hplace).inner, (hreturned hplace).forwarders⟩

end Runs

def sampleArgs : Args where
  name := "v2ray-plugin"
  localAddr := ⟨.ofOctets 127 0 0 1, 1080⟩
  remote := ⟨.ofOctets 127 0 0 1, 1081⟩

/-- An inner plugin that finds its port taken as it is shut down. -/
theorem transparent_sample : ∃ w : World, w.place = .returned (.error (.chain
      "tap[v2ray-plugin]: inner exited before becoming ready")) ∧ Transparent w := by
  have hspawned : Reachable sampleArgs (World.start.spawn ⟨.ofOctets 127 0 0 1, 2000⟩) :=
    .step .start (Or.inl (.probed rfl _ (by decide)))
  have hcancelled := hspawned.step (Or.inr .cancels)
  have hpending := hcancelled.step (Or.inl (.reportPending rfl rfl))
  have hnotLate := hpending.step (Or.inl (.reportNotLate rfl rfl))
  have hnotEnded := hnotLate.step (Or.inl (.reportNotEnded rfl rfl))
  have hshutdown := hnotEnded.step (Or.inl (.reportShutdown rfl rfl))
  have hreported := hshutdown.step (Or.inr (.reports (by intro h; cases h) rfl
    (.error (.bindConflict 98 ⟨.ofOctets 127 0 0 1, 2000⟩))))
  have hended := hreported.step (Or.inr (.ends rfl (.ok (.ok ()))))
  have hdrained := hended.step (Or.inl (.drainedAfterShutdown rfl rfl))
  exact ⟨_, rfl, transparent_of_reachable hdrained⟩

end Hole.Plugin.Tap
