import Hole.Effect.History
import Hole.Plugin.Sitrep
import Hole.Plugin.Supervise

/-!
# The readiness of a plugin

`BinaryPlugin::run` of `crates/garter/src/binary.rs` once its child is spawned, with the tasks that
it starts: the reader of standard output, the self-probes and the supervision, whose calls are
those of `Supervise`. Every await is a place where anything else may happen, a reader may be cut at
any of them, and the future of `run` may be dropped at its own.

A plugin has one sender, which is moved from hand to hand (`Sender`): a failure that the reader
decided on goes with it into the hold, or is sent at once where the hold is closed. What is done is
in `log`, newest first.
-/

namespace Hole.Plugin.Readiness

open Effect

/-! ### The values -/

/-- `ReadinessMode`. -/
inductive ReadinessMode
  | expectSitrep
  | probe
  | auto
  deriving DecidableEq

/-- `StartError`. -/
abbrev StartError : Type := Sitrep.StartError FullAddr (List Char)

/-- `PluginReady`. -/
abbrev PluginReady : Type := Sitrep.PluginReady FullAddr

/-- What is sent on `ready`. -/
abbrev Report : Type := Except StartError PluginReady

/-- `crate::Error`, as far as the end of a plugin makes one. -/
inductive Error
  | pluginExit (name : String) (code : Int)
  | pluginKilled (name : String)
  | chain (detail : String)
  | cosca (e : Supervise.CoscaError)

/-- `SITREP_PROTOCOL`. -/
def sitrepProtocol : List Char := "sitrep-1.0.0".toList

/-- `SHUTDOWN_GRACE`, in milliseconds. -/
def shutdownGrace : Nat := 5000

/-- The failure of a `ready` without transports. -/
def emptyTransports : StartError :=
  .fatal "sitrep ready reported empty transports (protocol violation)".toList none

/-- The failure of a standard output that is closed. -/
def streamClosed : StartError :=
  .fatal "plugin closed its sitrep stream before becoming ready".toList none

/-- What a plugin is run with. -/
structure Args where
  name : String
  localAddr : FullAddr
  readiness : ReadinessMode
  containment : Supervise.Containment
  /-- The major version of a text that `semver` parses. -/
  semverMajor : List Char → Option Nat

namespace Args

variable (a : Args)

/-- The major version of a protocol. -/
def major (protocol : List Char) : Option Nat :=
  if "sitrep-".toList.isPrefixOf protocol then a.semverMajor (protocol.drop 7) else none

/-- `protocol_support`. -/
def supports (protocol : List Char) : Bool :=
  (a.major sitrepProtocol).any fun ours ↦ (a.major protocol).any fun theirs ↦ ours == theirs

/-- Whether a line is a `hello`, and of a protocol that is supported. -/
def greeting (line : List Char) : Option Bool :=
  match SitrepEvent.parseEvent line with
  | some (.hello protocol) => some (a.supports protocol)
  | some (.ready _ _) | some (.bindConflict _ _) | some (.fatal _ _) | none => none

end Args

/-- What a line after the handshake says of the readiness. -/
def readinessOf (line : List Char) : Option Report :=
  match SitrepEvent.parseEvent line with
  | some (.ready listen transports) =>
    some (if transports = 0 then .error emptyTransports else .ok ⟨listen, transports⟩)
  | some (.bindConflict errno addr) => some (.error (.bindConflict errno addr))
  | some (.fatal detail errno) => some (.error (.fatal detail errno))
  | some (.hello _) | none => none

/-- What a line says of the readiness. -/
def heeded (handshakeOk : Bool) (line : List Char) : Option Report :=
  if handshakeOk then readinessOf line else none

/-- The result of a plugin whose exit is no error. -/
def okUnlessStartFailed (plugin : String) (startFailed : Bool) (how : String) : Except Error Unit :=
  if startFailed then .error (.chain ("plugin '" ++ plugin ++ "' failed to start and " ++ how))
  else .ok ()

/-- The result of a plugin that exited. -/
def exitResult (plugin : String) (startFailed : Bool) : Option Int → Except Error Unit
  | none => .error (.pluginKilled plugin)
  | some code =>
    if code = 0 then okUnlessStartFailed plugin startFailed "then exited cleanly"
    else .error (.pluginExit plugin code)

/-- `Supervised::outcome`. -/
def outcome (plugin : String) (startFailed : Bool) : Supervise.PluginEnd → Except Error Unit
  | .shutDown => okUnlessStartFailed plugin startFailed "was taken down"
  | .exited status => exitResult plugin startFailed status.code

/-- How a supervision ends. -/
abbrev Ended : Type := Except Supervise.CoscaError Supervise.PluginEnd

/-- What `run` returns. -/
def result (plugin : String) (startFailed : Bool) : Ended → Except Error Unit
  | .error e => .error (.cosca e)
  | .ok ended => outcome plugin startFailed ended

/-! ### The state -/

/-- What was done. -/
inductive Event
  | line (line : List Char)
  /-- It saw that its input is closed, that no probe owns the readiness and that the plugin was
  not taken down. -/
  | streamClosed
  /-- `mark_taken_down`. -/
  | takenDown
  /-- The reader decided that the start failed. -/
  | decided (e : StartError)
  | sent (report : Report)
  | readerEnded (r : Supervise.Reader)
  | dropped

/-- Who has the sender. -/
inductive Sender
  /-- The mutex that the reader and its probes share. -/
  | shared
  /-- The self-probe of a plugin that is only probed. -/
  | probe
  | reader (e : StartError)
  | held (e : StartError)
  | gone

/-- `FailureHold`. -/
inductive Hold
  | live
  /-- Its channel is closed, and was not received from since. -/
  | closed
  | none

/-- The task that reads standard output. -/
inductive Stdout
  | starting
  | reading
  /-- It waits for the sender. `last` says whether the loop is over. -/
  | locking (report : Report) (last : Bool)
  /-- It has the sender, and a failure to hold. -/
  | deciding (last : Bool)
  | draining
  | closing
  | leaving
  | ended

/-- The reader waits, so that it can be cut. -/
def Stdout.awaits : Stdout → Bool
  | starting | reading | locking _ _ | draining => true
  | deciding _ | closing | leaving | ended => false

/-- What a use of the sender is followed by. -/
def Stdout.next (last : Bool) : Stdout := if last then leaving else reading

/-- Why there is a probe. -/
inductive Kind
  | own
  | auto
  | fallback
  deriving DecidableEq

/-- A self-probe: it polls, or has connected and waits for the sender. -/
structure Probe where
  kind : Kind
  locking : Bool
  deriving DecidableEq

/-- Where `run` is. -/
inductive Place
  /-- The calls that the supervision made, with their answers. -/
  | supervising (done : List Supervise.Event)
  | delivering (ended : Ended)
  | endingProbes (result : Except Error Unit)
  | returned (result : Except Error Unit)
  | dropped

structure World where
  place : Place
  sender : Sender
  hold : Hold
  stdout : Stdout
  stderrEnded : Bool
  handshakeOk : Bool
  probeOwnsReadiness : Bool
  probes : List Probe
  /-- Whether the shutdown of the chain is cancelled. -/
  shutdown : Bool
  /-- Whether the token of the probes is. -/
  stop : Bool
  /-- Whether `probe_standdown` is. -/
  standdown : Bool
  /-- Whether `failed` is. -/
  failed : Bool
  takenDown : Bool
  /-- What `FailureHold::deliver` returned. -/
  startFailed : Bool
  /-- Newest first. -/
  log : List Event

namespace World

variable (a : Args) (w : World)

def note (e : Event) : World := { w with log := e :: w.log }

/-- The reader of standard output goes on. -/
def readOn (stdout : Stdout) : World := { w with stdout := stdout }

/-- `ready.send`, by whoever has the sender. -/
def send (report : Report) : World := { w.note (.sent report) with sender := .gone }

/-- `ReadinessProbes::spawn`. -/
def spawn (kind : Kind) : World :=
  { w with probes := if w.stop || w.shutdown then w.probes else ⟨kind, false⟩ :: w.probes }

/-- A probe ends. -/
def endProbe (p : Probe) : World := { w with probes := w.probes.erase p }

/-- What a probe reports. -/
def probed : Report := .ok ⟨a.localAddr, Transports.tcp⟩

/-- A probe is told to stop. -/
def Stopped (kind : Kind) : Prop :=
  w.shutdown = true ∨ w.stop = true ∨ (kind = .auto ∧ w.standdown = true)

/-- `FailureHold::finish` up to the receive. -/
def closeHold : Hold → Hold
  | .live | .closed => .closed
  | .none => .none

/-- The reader ended. -/
def Ended : Supervise.Reader → Prop
  | .stdout => w.stdout = .ended
  | .stderr => w.stderrEnded = true

/-- A call of the supervision can be answered so. -/
structure Possible (e : Supervise.Event) : Prop where
  ended : ∀ r, Supervise.EndsReader r e → w.Ended r
  shutdown : Supervise.takedown? e = some .shutdown → w.shutdown = true
  failed : Supervise.takedown? e = some .startFailed → w.failed = true ∨ w.shutdown = true

/-- A plugin once it is spawned. `cancelled` says whether the chain is shut down already. -/
def start (cancelled : Bool) : World where
  place := .supervising []
  sender := match a.readiness with
    | .probe => if cancelled then .gone else .probe
    | .expectSitrep | .auto => .shared
  hold := match a.readiness with
    | .probe => .none
    | .expectSitrep | .auto => .live
  stdout := match a.readiness with
    | .probe => .draining
    | .expectSitrep | .auto => .starting
  stderrEnded := false
  handshakeOk := false
  probeOwnsReadiness := a.readiness == .auto
  probes := match a.readiness with
    | .probe => if cancelled then [] else [⟨.own, false⟩]
    | .expectSitrep | .auto => []
  shutdown := cancelled
  stop := false
  standdown := false
  failed := false
  takenDown := false
  startFailed := false
  log := []

end World

/-- The supervision of the plugin. -/
def Args.supervision (a : Args) : Supervise.Supervision Ended :=
  Supervise.supervise a.containment (a.readiness != .probe) shutdownGrace

/-! ### The steps -/

section Steps

variable (a : Args) (w : World)

/-- A step of the reader of standard output. -/
inductive ReaderStep : World → Prop
  | starts (hstdout : w.stdout = .starting) (hauto : a.readiness ≠ .auto) :
    ReaderStep (w.readOn .reading)
  | startsAuto (hstdout : w.stdout = .starting) (hauto : a.readiness = .auto) :
    ReaderStep ((w.spawn .auto).readOn .reading)
  | handshake (hstdout : w.stdout = .reading) {line : List Char}
      (hline : a.greeting line = some true) :
    ReaderStep { w.note (.line line) with handshakeOk := true
                                          probeOwnsReadiness := false
                                          standdown := true }
  | fallsBack (hstdout : w.stdout = .reading) {line : List Char}
      (hline : a.greeting line = some false) (hauto : a.readiness ≠ .auto) :
    ReaderStep { ((w.spawn .fallback).note (.line line)).readOn .draining with
      probeOwnsReadiness := true }
  | fallsBackAuto (hstdout : w.stdout = .reading) {line : List Char}
      (hline : a.greeting line = some false) (hauto : a.readiness = .auto) :
    ReaderStep { (w.note (.line line)).readOn .draining with probeOwnsReadiness := true }
  | heeds (hstdout : w.stdout = .reading) {line : List Char} {report : Report}
      (hline : heeded w.handshakeOk line = some report) :
    ReaderStep ((w.note (.line line)).readOn (.locking report false))
  | relays (hstdout : w.stdout = .reading) {line : List Char} (hgreeting : a.greeting line = none)
      (hline : heeded w.handshakeOk line = none) : ReaderStep (w.note (.line line))
  /-- The end of the output, or an error. -/
  | closes (hstdout : w.stdout = .reading) : ReaderStep (w.readOn .closing)
  | closedEarly (hstdout : w.stdout = .closing) (howns : w.probeOwnsReadiness = false)
      (hdown : w.takenDown = false) :
    ReaderStep ((w.note .streamClosed).readOn (.locking (.error streamClosed) true))
  | closedQuietly (hstdout : w.stdout = .closing)
      (hquiet : w.probeOwnsReadiness = true ∨ w.takenDown = true) : ReaderStep (w.readOn .leaving)
  | drained (hstdout : w.stdout = .draining) : ReaderStep (w.readOn .leaving)
  | readies {report : PluginReady} {last : Bool} (hstdout : w.stdout = .locking (.ok report) last)
      (hsender : w.sender = .shared) :
    ReaderStep ((w.send (.ok report)).readOn (.next last))
  | decides {e : StartError} {last : Bool} (hstdout : w.stdout = .locking (.error e) last)
      (hsender : w.sender = .shared) :
    ReaderStep { (w.note (.decided e)).readOn (.deciding last) with sender := .reader e }
  /-- The readiness is decided already. -/
  | tooLate {report : Report} {last : Bool} (hstdout : w.stdout = .locking report last)
      (hsender : w.sender ≠ .shared) : ReaderStep (w.readOn (.next last))
  | holds {e : StartError} {last : Bool} (hstdout : w.stdout = .deciding last)
      (hsender : w.sender = .reader e) (hhold : w.hold = .live) :
    ReaderStep { w.readOn (.next last) with sender := .held e
                                            failed := true }
  | sends {e : StartError} {last : Bool} (hstdout : w.stdout = .deciding last)
      (hsender : w.sender = .reader e) (hhold : w.hold ≠ .live) :
    ReaderStep { (w.send (.error e)).readOn (.next last) with failed := true }
  | ends (hstdout : w.stdout = .leaving) :
    ReaderStep ((w.note (.readerEnded .stdout)).readOn .ended)
  /-- It is aborted, or panics. -/
  | cut (hstdout : w.stdout.awaits = true) :
    ReaderStep ((w.note (.readerEnded .stdout)).readOn .ended)

/-- A step of a self-probe. -/
inductive ProbeStep : World → Prop
  | readies (hprobe : ⟨.own, false⟩ ∈ w.probes) (hsender : w.sender = .probe) :
    ProbeStep ((w.send (World.probed a)).endProbe ⟨.own, false⟩)
  | connects {kind : Kind} (hprobe : ⟨kind, false⟩ ∈ w.probes) (hkind : kind ≠ .own) :
    ProbeStep { w with probes := ⟨kind, true⟩ :: w.probes.erase ⟨kind, false⟩ }
  | takes {kind : Kind} (hprobe : ⟨kind, true⟩ ∈ w.probes) (hsender : w.sender = .shared) :
    ProbeStep ((w.send (World.probed a)).endProbe ⟨kind, true⟩)
  | tooLate {kind : Kind} (hprobe : ⟨kind, true⟩ ∈ w.probes) (hsender : w.sender ≠ .shared) :
    ProbeStep (w.endProbe ⟨kind, true⟩)
  | stops {kind : Kind} (hprobe : ⟨kind, false⟩ ∈ w.probes) (hkind : kind ≠ .own)
      (hstopped : w.Stopped kind) : ProbeStep (w.endProbe ⟨kind, false⟩)
  /-- A probe that is stopped drops its sender. -/
  | stopsOwn (hprobe : ⟨.own, false⟩ ∈ w.probes) (hsender : w.sender = .probe)
      (hstopped : w.Stopped .own) : ProbeStep { w.endProbe ⟨.own, false⟩ with sender := .gone }

/-- A step of `run`. -/
inductive RunStep : World → Prop
  | supervises {done : List Supervise.Event} (hplace : w.place = .supervising done)
      {e : Supervise.Event} (hother : e.1 ≠ .markTakenDown)
      (hnext : ∃ rest ended, a.supervision.HasTrace (done ++ e :: rest) ended)
      (hpossible : w.Possible e) : RunStep { w with place := .supervising (done ++ [e]) }
  | marks {done : List Supervise.Event} (hplace : w.place = .supervising done)
      (hnext : ∃ rest ended, a.supervision.HasTrace (done ++ ⟨.markTakenDown, ()⟩ :: rest) ended) :
    RunStep { w.note .takenDown with place := .supervising (done ++ [⟨.markTakenDown, ()⟩])
                                     takenDown := true }
  | supervised {done : List Supervise.Event} (hplace : w.place = .supervising done) {ended : Ended}
      (hdone : a.supervision.HasTrace done ended) :
    RunStep { w with place := .delivering ended
                     hold := World.closeHold w.hold }
  | delivered {ended : Ended} (hplace : w.place = .delivering ended) (hhold : w.hold = .none) :
    RunStep { w with place := .endingProbes (result a.name w.startFailed ended)
                     stop := true }
  | returns {result : Except Error Unit} (hplace : w.place = .endingProbes result)
      (hprobes : w.probes = []) : RunStep { w with place := .returned result }
  | drops {done : List Supervise.Event} (hplace : w.place = .supervising done) :
    RunStep { w.note .dropped with place := .dropped
                                   hold := World.closeHold w.hold }
  | dropsLate {result : Except Error Unit} (hplace : w.place = .endingProbes result) :
    RunStep { w.note .dropped with place := .dropped }

/-- A step of the rest of `FailureHold::finish`, and of the surroundings. -/
inductive OtherStep : World → Prop
  | receives {e : StartError} (hhold : w.hold = .closed) (hsender : w.sender = .held e) :
    OtherStep { w.send (.error e) with hold := .none
                                       startFailed := true }
  | receivesNone (hhold : w.hold = .closed) (hsender : ∀ e, w.sender ≠ .held e) :
    OtherStep { w with hold := .none }
  | stderrEnds (hstderr : w.stderrEnded = false) :
    OtherStep { w.note (.readerEnded .stderr) with stderrEnded := true }
  | cancels : OtherStep { w with shutdown := true }

/-- A step of the plugin. -/
def Step (w' : World) : Prop :=
  ReaderStep a w w' ∨ ProbeStep a w w' ∨ RunStep a w w' ∨ OtherStep w w'

/-- A world that a plugin can come to. -/
inductive Reachable (a : Args) : World → Prop
  | start (cancelled : Bool) : Reachable a (.start a cancelled)
  | step {w w' : World} (h : Reachable a w) (hstep : Step a w w') : Reachable a w'

end Steps

/-! ### What the log says -/

section Log

variable (a : Args)

/-- What was sent on the readiness channel, newest first. -/
def sends : List Event → List Report
  | [] => []
  | .sent report :: log => report :: sends log
  | .line _ :: log | .streamClosed :: log | .takenDown :: log | .decided _ :: log |
    .readerEnded _ :: log | .dropped :: log => sends log

/-- What the reader decided. -/
def decisions : List Event → List StartError
  | [] => []
  | .decided e :: log => e :: decisions log
  | .line _ :: log | .streamClosed :: log | .takenDown :: log | .sent _ :: log |
    .readerEnded _ :: log | .dropped :: log => decisions log

/-- The plugin said `hello` with a protocol that is supported. -/
def handshaken : List Event → Bool
  | [] => false
  | .line line :: log => a.greeting line == some true || handshaken log
  | .streamClosed :: log | .takenDown :: log | .decided _ :: log | .sent _ :: log |
    .readerEnded _ :: log | .dropped :: log => handshaken log

/-- A probe owns the readiness: the last `hello` was of no protocol that is supported, or there
was none and the probe was started at once. -/
def probeOwns : List Event → Bool
  | [] => a.readiness == .auto
  | .line line :: log => (a.greeting line).elim (probeOwns log) not
  | .streamClosed :: log | .takenDown :: log | .decided _ :: log | .sent _ :: log |
    .readerEnded _ :: log | .dropped :: log => probeOwns log

/-- The plugin reported a failure, or its standard output was closed. -/
def Reason (e : StartError) (log : List Event) : Prop :=
  (∃ newer line older, log = newer ++ .line line :: older ∧
    heeded (handshaken a older) line = some (.error e)) ∨
  (e = streamClosed ∧ .streamClosed ∈ log)

/-- What came before an event. -/
def Grounds (older : List Event) : Event → Prop
  | .decided e => Reason a e older
  | .streamClosed => probeOwns a older = false ∧ .takenDown ∉ older
  | .sent (.error _) => .dropped ∈ older ∨ ∀ r, .readerEnded r ∈ older
  | .sent (.ok _) | .line _ | .takenDown | .readerEnded _ | .dropped => True

variable {a} {log : List Event}

theorem Reason.cons {e : StartError} (h : Reason a e log) (e' : Event) :
    Reason a e (e' :: log) := by
  obtain ⟨newer, line, older, rfl, hline⟩ | ⟨he, hclosed⟩ := h
  · exact Or.inl ⟨e' :: newer, line, older, rfl, hline⟩
  · exact Or.inr ⟨he, List.mem_cons_of_mem e' hclosed⟩

theorem mem_decisions {e : StartError} : e ∈ decisions log ↔ .decided e ∈ log := by
  induction log with
  | nil => exact iff_of_false List.not_mem_nil List.not_mem_nil
  | cons e' log ih =>
    rw [List.mem_cons, ← ih]
    cases e' with
    | decided e' =>
      show e ∈ e' :: decisions log ↔ _
      rw [List.mem_cons, Event.decided.injEq]
    | _ => exact (or_iff_right nofun).symm

/-- A line that is heeded is no greeting. -/
theorem greeting_of_heeded {handshakeOk : Bool} {line : List Char} {report : Report}
    (h : heeded handshakeOk line = some report) : a.greeting line = none := by
  cases handshakeOk with
  | false => cases h
  | true =>
    have hreadiness : readinessOf line = some report := h
    rw [Args.greeting]
    rw [readinessOf] at hreadiness
    cases hevent : SitrepEvent.parseEvent line with
    | none => rfl
    | some event =>
      rw [hevent] at hreadiness
      cases event with
      | hello protocol => cases hreadiness
      | _ => rfl

end Log

/-! ### The invariant -/

/-- What became of the sender that is gone. -/
inductive Settled (place : Place) (startFailed : Bool) (log : List Event) : Prop
  | unused (hdecided : decisions log = []) (hsent : sends log = [])
  | ready (hdecided : decisions log = []) (report : PluginReady) (hsent : sends log = [.ok report])
  | failed (e : StartError) (hdecided : decisions log = [e]) (hsent : sends log = [.error e])
      (hmarked : startFailed = true ∨ place = .dropped)

/-- What was decided and sent, by who has the sender. -/
def Account (hold : Hold) (place : Place) (startFailed : Bool) (log : List Event) : Sender → Prop
  | .shared | .probe => decisions log = [] ∧ sends log = []
  | .reader e => decisions log = [e] ∧ sends log = []
  | .held e => decisions log = [e] ∧ sends log = [] ∧ hold ≠ .none
  | .gone => Settled place startFailed log

/-- Nothing can be decided any more, and what was decided makes `run` fail. -/
structure Over (w : World) (result : Except Error Unit) : Prop where
  readers : ∀ r, w.Ended r
  hold : w.hold = .none
  stop : w.stop = true
  failed : decisions w.log ≠ [] → ∃ error, result = .error error

/-- What holds at a place of `run`. -/
def Placed (w : World) : Place → Prop
  | .supervising done => (∀ e ∈ done, ∀ r, Supervise.EndsReader r e → w.Ended r) ∧
    (w.hold = .live ∨ w.sender = .probe ∨ w.sender = .gone)
  | .delivering _ => (∀ r, w.Ended r) ∧ w.hold ≠ .live
  | .endingProbes result => Over w result
  | .returned result => Over w result ∧ w.probes = []
  | .dropped => .dropped ∈ w.log ∧ w.hold ≠ .live

/-- What holds in every world. -/
structure Inv (a : Args) (w : World) : Prop where
  justified : Justified (Grounds a) w.log
  account : Account w.hold w.place w.startFailed w.log w.sender
  deciding : (∃ e, w.sender = .reader e) ↔ ∃ last, w.stdout = .deciding last
  ended : ∀ r, w.Ended r → .readerEnded r ∈ w.log
  handshake : w.handshakeOk = handshaken a w.log
  owns : w.probeOwnsReadiness = probeOwns a w.log
  down : .takenDown ∈ w.log → w.takenDown = true
  reason : ∀ e last, w.stdout = .locking (.error e) last → Reason a e w.log
  own : w.sender = .probe → ⟨.own, false⟩ ∈ w.probes
  placed : Placed w w.place

section Placed

variable {a : Args} {w w' : World}

/-- Where the reader runs. -/
theorem Placed.active {place : Place} (h : Placed w place) (hstdout : w.stdout ≠ .ended) :
    (∃ done, place = .supervising done) ∨ place = .dropped := by
  cases place with
  | supervising done => exact Or.inl ⟨done, rfl⟩
  | delivering ended => exact absurd (h.1 .stdout) hstdout
  | endingProbes result => exact absurd (h.readers .stdout) hstdout
  | returned result => exact absurd (h.1.readers .stdout) hstdout
  | dropped => exact Or.inr rfl

theorem Over.mono {result : Except Error Unit} (h : Over w result)
    (hended : ∀ r, w.Ended r → w'.Ended r) (hhold : w.hold = .none → w'.hold = .none)
    (hstop : w'.stop = w.stop)
    (hdecided : (∀ r, w.Ended r) → decisions w'.log = decisions w.log) : Over w' result :=
  ⟨fun r ↦ hended r (h.readers r), hhold h.hold, hstop.trans h.stop, fun hne ↦
    h.failed (hdecided h.readers ▸ hne)⟩

/-- What a step that leaves `run` where it is has to keep. -/
theorem Placed.mono {place : Place} (h : Placed w place)
    (hended : ∀ r, w.Ended r → w'.Ended r) (hlive : w'.hold = .live ↔ w.hold = .live)
    (hnone : w.hold = .none → w'.hold = .none)
    (hsender : w.sender = .probe ∨ w.sender = .gone → w'.sender = .probe ∨ w'.sender = .gone)
    (hstop : w'.stop = w.stop) (hprobes : w.stop = true → w.probes = [] → w'.probes = [])
    (hdecided : (∀ r, w.Ended r) → decisions w'.log = decisions w.log)
    (hdropped : .dropped ∈ w.log → .dropped ∈ w'.log) : Placed w' place := by
  cases place with
  | supervising done =>
    exact ⟨fun e he r hends ↦ hended r (h.1 e he r hends), h.2.imp hlive.2 hsender⟩
  | delivering ended => exact ⟨fun r ↦ hended r (h.1 r), mt hlive.1 h.2⟩
  | endingProbes result => exact Over.mono h hended hnone hstop hdecided
  | returned result =>
    exact ⟨h.1.mono hended hnone hstop hdecided, hprobes h.1.stop h.2⟩
  | dropped => exact ⟨hdropped h.1, mt hlive.1 h.2⟩

end Placed

section Account

variable {hold hold' : Hold} {place place' : Place} {startFailed : Bool} {log log' : List Event}
  {sender : Sender}

theorem Settled.mono (h : Settled place startFailed log)
    (hplace : place = .dropped → place' = .dropped) (hdecided : decisions log' = decisions log)
    (hsent : sends log' = sends log) : Settled place' startFailed log' := by
  cases h with
  | unused hnone hquiet => exact .unused (hdecided.trans hnone) (hsent.trans hquiet)
  | ready hnone report hreport => exact .ready (hdecided.trans hnone) report (hsent.trans hreport)
  | failed e he herror hmarked =>
    exact .failed e (hdecided.trans he) (hsent.trans herror) (hmarked.imp_right hplace)

theorem Account.mono (h : Account hold place startFailed log sender)
    (hhold : hold ≠ .none → hold' ≠ .none) (hplace : place = .dropped → place' = .dropped)
    (hdecided : decisions log' = decisions log) (hsent : sends log' = sends log) :
    Account hold' place' startFailed log' sender := by
  cases sender with
  | shared => exact ⟨hdecided.trans h.1, hsent.trans h.2⟩
  | probe => exact ⟨hdecided.trans h.1, hsent.trans h.2⟩
  | reader e => exact ⟨hdecided.trans h.1, hsent.trans h.2⟩
  | held e => exact ⟨hdecided.trans h.1, hsent.trans h.2.1, hhold h.2.2⟩
  | gone => exact Settled.mono h hplace hdecided hsent

theorem closeHold_ne_live (hold : Hold) : World.closeHold hold ≠ .live := by
  cases hold <;> exact nofun

theorem closeHold_ne_none (h : hold ≠ .none) : World.closeHold hold ≠ .none := by
  cases hold with
  | live => exact nofun
  | closed => exact nofun
  | none => exact absurd rfl h

/-- A plugin whose start failed does not end well. -/
theorem error_of_startFailed (plugin : String) (ended : Ended) :
    ∃ error, result plugin true ended = .error error := by
  cases ended with
  | error e => exact ⟨_, rfl⟩
  | ok ended =>
    cases ended with
    | shutDown => exact ⟨_, rfl⟩
    | exited status =>
      show ∃ error, exitResult plugin true status.code = .error error
      cases status.code with
      | none => exact ⟨_, rfl⟩
      | some code =>
        rw [exitResult]
        split
        · exact ⟨_, rfl⟩
        · exact ⟨_, rfl⟩

end Account

/-! ### The parts of a step -/

/-- The reader runs, and does not hold the sender. -/
def Stdout.isFree : Stdout → Bool
  | starting | reading | locking _ _ | draining | closing | leaving => true
  | deciding _ | ended => false

/-- An event that decides nothing. -/
def Event.isQuiet : Event → Bool
  | streamClosed | readerEnded _ | dropped => true
  | line _ | takenDown | decided _ | sent _ => false

section Parts

variable {a : Args} {w : World} {s : Stdout}

theorem Stdout.ne_ended_of_isFree (h : s.isFree = true) : s ≠ .ended := by
  rintro rfl
  cases h

theorem Stdout.ne_deciding_of_isFree (h : s.isFree = true) (last : Bool) : s ≠ .deciding last := by
  rintro rfl
  cases h

theorem Stdout.isFree_of_awaits (h : s.awaits = true) : s.isFree = true := by
  cases s <;> first | rfl | cases h

theorem Stdout.isFree_next (last : Bool) : (next last).isFree = true := by cases last <;> rfl

theorem Stdout.next_ne_locking (last last' : Bool) (report : Report) :
    next last ≠ .locking report last' := by cases last <;> exact nofun

theorem Inv.ne_reader (h : Inv a w) (hstdout : w.stdout.isFree = true) (e : StartError) :
    w.sender ≠ .reader e := fun hsender ↦ by
  obtain ⟨last, hlast⟩ := h.deciding.1 ⟨e, hsender⟩
  exact Stdout.ne_deciding_of_isFree hstdout last hlast

/-- The sender of a failure is with the reader that decided on it. -/
theorem Inv.ne_deciding (h : Inv a w) (hsender : ∀ e, w.sender ≠ .reader e) (last : Bool) :
    w.stdout ≠ .deciding last := fun hlast ↦ by
  obtain ⟨e, he⟩ := h.deciding.2 ⟨last, hlast⟩
  exact hsender e he

theorem ended_readOn (hfrom : w.stdout.isFree = true) (r : Supervise.Reader) (h : w.Ended r) :
    (w.readOn s).Ended r := by
  cases r with
  | stdout => exact absurd h (Stdout.ne_ended_of_isFree hfrom)
  | stderr => exact h

/-- The reader goes on. -/
theorem Inv.readOn (h : Inv a w) (hfrom : w.stdout.isFree = true) (hto : s.isFree = true)
    (hreason : ∀ e last, s = .locking (.error e) last → Reason a e w.log) :
    Inv a (w.readOn s) :=
  { h with
    deciding := iff_of_false (fun ⟨e, he⟩ ↦ h.ne_reader hfrom e he)
      fun ⟨last, hlast⟩ ↦ Stdout.ne_deciding_of_isFree hto last hlast
    ended r hr := by
      cases r with
      | stdout => exact absurd hr (Stdout.ne_ended_of_isFree hto)
      | stderr => exact h.ended .stderr hr
    reason := hreason
    placed := h.placed.mono (ended_readOn hfrom) Iff.rfl id id rfl (fun _ ↦ id) (fun _ ↦ rfl) id }

/-- The reader ends. -/
theorem Inv.leave (h : Inv a w) (hfrom : w.stdout.isFree = true)
    (hmem : .readerEnded .stdout ∈ w.log) : Inv a (w.readOn .ended) :=
  { h with
    deciding := iff_of_false (fun ⟨e, he⟩ ↦ h.ne_reader hfrom e he) fun ⟨_, hlast⟩ ↦ nomatch hlast
    ended r hr := by
      cases r with
      | stdout => exact hmem
      | stderr => exact h.ended .stderr hr
    reason := nofun
    placed := h.placed.mono (ended_readOn hfrom) Iff.rfl id id rfl (fun _ ↦ id) (fun _ ↦ rfl) id }

/-- An event that decides nothing leaves what was decided. -/
theorem same_of_isQuiet {e : Event} (h : e.isQuiet = true) (log : List Event) :
    sends (e :: log) = sends log ∧ decisions (e :: log) = decisions log ∧
      handshaken a (e :: log) = handshaken a log ∧ probeOwns a (e :: log) = probeOwns a log ∧
      (.takenDown ∈ e :: log → .takenDown ∈ log) := by
  have hdown : e ≠ .takenDown := by
    rintro rfl
    cases h
  refine ⟨?_, ?_, ?_, ?_, fun hmem ↦ (List.mem_cons.1 hmem).resolve_left hdown.symm⟩ <;>
    cases e <;> first | rfl | cases h

theorem Inv.note (h : Inv a w) {e : Event} (hquiet : e.isQuiet = true)
    (hgrounds : Grounds a w.log e) : Inv a (w.note e) := by
  obtain ⟨hsends, hdecisions, hhandshaken, howns, hdown⟩ := same_of_isQuiet (a := a) hquiet w.log
  exact
    { justified := ⟨hgrounds, h.justified⟩
      account := h.account.mono id id hdecisions hsends
      deciding := h.deciding
      ended := fun r hr ↦ List.mem_cons_of_mem e (h.ended r hr)
      handshake := h.handshake.trans hhandshaken.symm
      owns := h.owns.trans howns.symm
      down := fun hmem ↦ h.down (hdown hmem)
      reason := fun e' last hlast ↦ (h.reason e' last hlast).cons e
      own := h.own
      placed := h.placed.mono (fun _ ↦ id) Iff.rfl id id rfl (fun _ ↦ id) (fun _ ↦ hdecisions)
        (List.mem_cons_of_mem e) }

/-- The reader reads a line. -/
theorem Inv.line (h : Inv a w) {line : List Char} (handshakeOk probeOwnsReadiness standdown : Bool)
    (hok : handshakeOk = (a.greeting line == some true || w.handshakeOk))
    (howns : probeOwnsReadiness = (a.greeting line).elim w.probeOwnsReadiness not) :
    Inv a { w.note (.line line) with handshakeOk := handshakeOk
                                     probeOwnsReadiness := probeOwnsReadiness
                                     standdown := standdown } where
  justified := ⟨trivial, h.justified⟩
  account := h.account.mono id id rfl rfl
  deciding := h.deciding
  ended r hr := .tail _ (h.ended r hr)
  handshake := hok.trans (congrArg (a.greeting line == some true || ·) h.handshake)
  owns := howns.trans (congrArg ((a.greeting line).elim · not) h.owns)
  down hmem := h.down ((List.mem_cons.1 hmem).resolve_left nofun)
  reason e last hlast := (h.reason e last hlast).cons _
  own := h.own
  placed := h.placed.mono (fun _ ↦ id) Iff.rfl id id rfl (fun _ ↦ id) (fun _ ↦ rfl)
    (List.mem_cons_of_mem _)

/-- A line that is no greeting. -/
theorem Inv.pass (h : Inv a w) {line : List Char} (hline : a.greeting line = none) :
    Inv a (w.note (.line line)) := by
  refine h.line w.handshakeOk w.probeOwnsReadiness w.standdown ?_ ?_
  · rw [hline]
    rfl
  · rw [hline]
    rfl

/-- The probes change. -/
theorem Inv.withProbes (h : Inv a w) {probes : List Probe}
    (hown : w.sender = .probe → ⟨.own, false⟩ ∈ probes)
    (hnone : w.stop = true → w.probes = [] → probes = []) :
    Inv a { w with probes := probes } :=
  { h with
    own := hown
    placed := h.placed.mono (fun _ ↦ id) Iff.rfl id id rfl hnone (fun _ ↦ rfl) id }

theorem Inv.spawn (h : Inv a w) (kind : Kind) : Inv a (w.spawn kind) := by
  refine h.withProbes (fun hsender ↦ ?_) fun hstop hnil ↦ ?_
  · split
    · exact h.own hsender
    · exact .tail _ (h.own hsender)
  · rw [if_pos (by rw [hstop, Bool.true_or]), hnil]

/-- A probe that does not have the sender ends. -/
theorem Inv.endProbe (h : Inv a w) {p : Probe} (hp : w.sender = .probe → p ≠ ⟨.own, false⟩) :
    Inv a (w.endProbe p) := by
  refine h.withProbes (fun hsender ↦ ?_) fun _ hnil ↦ ?_
  · exact (List.mem_erase_of_ne (hp hsender).symm).2 (h.own hsender)
  · rw [hnil]
    rfl

/-- The plugin is reported to be ready. -/
theorem Inv.answer (h : Inv a w) (hsender : w.sender = .shared ∨ w.sender = .probe)
    (report : PluginReady) : Inv a (w.send (.ok report)) := by
  have hquiet : decisions w.log = [] ∧ sends w.log = [] := by
    have haccount := h.account
    rcases hsender with heq | heq
    · rwa [heq] at haccount
    · rwa [heq] at haccount
  have hreader (e : StartError) : w.sender ≠ .reader e := by
    rcases hsender with heq | heq
    · exact fun he ↦ nomatch heq.symm.trans he
    · exact fun he ↦ nomatch heq.symm.trans he
  exact
    { justified := ⟨trivial, h.justified⟩
      account := .ready hquiet.1 report (congrArg (Except.ok report :: ·) hquiet.2)
      deciding := iff_of_false (fun ⟨_, he⟩ ↦ nomatch he)
        fun ⟨last, hlast⟩ ↦ h.ne_deciding hreader last hlast
      ended := fun r hr ↦ .tail _ (h.ended r hr)
      handshake := h.handshake
      owns := h.owns
      down := fun hmem ↦ h.down ((List.mem_cons.1 hmem).resolve_left nofun)
      reason := fun e last hlast ↦ (h.reason e last hlast).cons _
      own := nofun
      placed := h.placed.mono (fun _ ↦ id) Iff.rfl id (fun _ ↦ Or.inr rfl) rfl (fun _ ↦ id)
        (fun _ ↦ rfl) (List.mem_cons_of_mem _) }

end Parts

/-! ### The steps keep the invariant -/

section Keeps

variable {a : Args} {w w' : World}

variable {e : StartError}

/-- A failure is decided. -/
theorem Inv.decide (h : Inv a w) {last : Bool} (hstdout : w.stdout = .locking (.error e) last)
    (hsender : w.sender = .shared) :
    Inv a { (w.note (.decided e)).readOn (.deciding last) with sender := .reader e } := by
  have hquiet : decisions w.log = [] ∧ sends w.log = [] := by
    have haccount := h.account
    rwa [hsender] at haccount
  have hfree : w.stdout.isFree = true := by rw [hstdout]; rfl
  have hdecided : decisions (.decided e :: w.log) = [e] := congrArg (e :: ·) hquiet.1
  exact
    { justified := ⟨h.reason e last hstdout, h.justified⟩
      account := ⟨hdecided, hquiet.2⟩
      deciding := iff_of_true ⟨e, rfl⟩ ⟨last, rfl⟩
      ended := fun r hr ↦ by
        cases r with
        | stdout => cases hr
        | stderr => exact .tail _ (h.ended .stderr hr)
      handshake := h.handshake
      owns := h.owns
      down := fun hmem ↦ h.down ((List.mem_cons.1 hmem).resolve_left nofun)
      reason := nofun
      own := nofun
      placed := h.placed.mono (ended_readOn hfree) Iff.rfl id (fun hgone ↦ by
          rw [hsender] at hgone
          exact hgone.elim nofun nofun)
        rfl (fun _ ↦ id) (fun hended ↦ absurd (hended .stdout) (Stdout.ne_ended_of_isFree hfree))
        (List.mem_cons_of_mem _) }

/-- A failure that was decided leaves the reader. -/
theorem Inv.release (h : Inv a w) {last : Bool} (hstdout : w.stdout = .deciding last)
    (hsender : w.sender = .reader e) (sender : Sender) {log : List Event}
    (hjustified : Justified (Grounds a) log)
    (hlog : ∃ pre, log = pre ++ w.log ∧ ∀ e ∈ pre, ∃ report, e = .sent report)
    (haccount : Account w.hold w.place w.startFailed log sender)
    (hnot : (∀ e, sender ≠ .reader e) ∧ sender ≠ .probe) :
    Inv a { w.readOn (.next last) with sender := sender
                                       failed := true
                                       log := log } := by
  obtain ⟨pre, rfl, hpre⟩ := hlog
  have hrunning : w.stdout ≠ .ended := by
    rw [hstdout]
    exact nofun
  have hended (r : Supervise.Reader) (hr : w.Ended r) : (w.readOn (.next last)).Ended r := by
    cases r with
    | stdout => exact absurd hr hrunning
    | stderr => exact hr
  -- A report that is sent changes nothing else that is read off the history.
  have hkeeps {α : Type} {f : List Event → α} (hf : ∀ report log, f (.sent report :: log) = f log) :
      f (pre ++ w.log) = f w.log := by
    clear hjustified haccount
    induction pre with
    | nil => rfl
    | cons e' pre ih =>
      obtain ⟨⟨report, rfl⟩, hrest⟩ := List.forall_mem_cons.1 hpre
      exact (hf report _).trans (ih hrest)
  exact
    { justified := hjustified
      account := haccount
      deciding := iff_of_false (fun ⟨e', he'⟩ ↦ hnot.1 e' he') fun ⟨last', hlast⟩ ↦
        Stdout.ne_deciding_of_isFree (Stdout.isFree_next last) last' hlast
      ended := fun r hr ↦ by
        cases r with
        | stdout => exact absurd hr (Stdout.ne_ended_of_isFree (Stdout.isFree_next last))
        | stderr => exact List.mem_append_right pre (h.ended .stderr hr)
      handshake := h.handshake.trans (hkeeps fun _ _ ↦ rfl).symm
      owns := h.owns.trans (hkeeps fun _ _ ↦ rfl).symm
      down := fun hmem ↦ (List.mem_append.1 hmem).elim (fun hmem ↦ by
          obtain ⟨report, hreport⟩ := hpre _ hmem
          cases hreport)
        h.down
      reason := fun e' last' hlast ↦ absurd hlast (Stdout.next_ne_locking last last' _)
      own := fun hprobe ↦ absurd hprobe hnot.2
      placed := h.placed.mono hended Iff.rfl id (fun hgone ↦ by
          rw [hsender] at hgone
          exact hgone.elim nofun nofun)
        rfl (fun _ ↦ id) (fun hall ↦ absurd (hall .stdout) hrunning)
        (List.mem_append_right pre) }

theorem Inv.decided (h : Inv a w) (hsender : w.sender = .reader e) :
    decisions w.log = [e] ∧ sends w.log = [] := by
  have haccount := h.account
  rwa [hsender] at haccount

/-- A reader that finds the hold gone outlives its `run`. -/
theorem Inv.dropped (h : Inv a w) {last : Bool} (hstdout : w.stdout = .deciding last)
    (hsender : w.sender = .reader e) (hhold : w.hold ≠ .live) :
    w.place = .dropped ∧ .dropped ∈ w.log := by
  have hplaced := h.placed
  have hrunning : w.stdout ≠ .ended := by
    rw [hstdout]
    exact nofun
  rcases hplaced.active hrunning with ⟨done, hplace⟩ | hplace
  · rw [hplace, Placed, hsender] at hplaced
    rcases hplaced.2 with hlive | hprobe | hgone
    · exact absurd hlive hhold
    · cases hprobe
    · cases hgone
  · rw [hplace] at hplaced
    exact ⟨hplace, hplaced.1⟩

/-- **What a step of the reader keeps.** -/
theorem Inv.reader (h : Inv a w) (hstep : ReaderStep a w w') : Inv a w' := by
  cases hstep with
  | starts hstdout hauto => exact h.readOn (by rw [hstdout]; rfl) rfl nofun
  | startsAuto hstdout hauto =>
    exact (h.spawn .auto).readOn (by rw [World.spawn, hstdout]; rfl) rfl nofun
  | handshake hstdout hline =>
    refine h.line true false true ?_ ?_
    · rw [hline]
      rfl
    · rw [hline]
      rfl
  | fallsBack hstdout hline hauto =>
    refine ((h.spawn .fallback).line w.handshakeOk true w.standdown ?_ ?_).readOn
      (by rw [World.spawn, World.note, hstdout]; rfl) rfl nofun
    · rw [hline]
      rfl
    · rw [hline]
      rfl
  | fallsBackAuto hstdout hline hauto =>
    refine (h.line w.handshakeOk true w.standdown ?_ ?_).readOn
      (by rw [World.note, hstdout]; rfl) rfl nofun
    · rw [hline]
      rfl
    · rw [hline]
      rfl
  | @heeds hstdout line report hline =>
    refine (h.pass (greeting_of_heeded hline)).readOn (by rw [World.note, hstdout]; rfl) rfl ?_
    intro e last hlocking
    cases hlocking
    -- The reason it locks with is the line that it has just read.
    exact Or.inl ⟨[], line, w.log, rfl, h.handshake ▸ hline⟩
  | relays hstdout hgreeting hline => exact h.pass hgreeting
  | closes hstdout => exact h.readOn (by rw [hstdout]; rfl) rfl nofun
  | closedEarly hstdout howns hdown =>
    have hgrounds : Grounds a w.log .streamClosed := by
      refine ⟨h.owns.symm.trans howns, fun hmem ↦ ?_⟩
      rw [h.down hmem] at hdown
      cases hdown
    refine (h.note rfl hgrounds).readOn (by rw [World.note, hstdout]; rfl) rfl ?_
    intro e last hlocking
    cases hlocking
    exact Or.inr ⟨rfl, .head _⟩
  | closedQuietly hstdout hquiet => exact h.readOn (by rw [hstdout]; rfl) rfl nofun
  | drained hstdout => exact h.readOn (by rw [hstdout]; rfl) rfl nofun
  | @readies report last hstdout hsender =>
    exact (h.answer (Or.inl hsender) report).readOn (by rw [World.send, World.note, hstdout]; rfl)
      (Stdout.isFree_next last) fun e last' hlast ↦
        absurd hlast (Stdout.next_ne_locking last last' _)
  | decides hstdout hsender => exact h.decide hstdout hsender
  | @tooLate report last hstdout hsender =>
    exact h.readOn (by rw [hstdout]; rfl) (Stdout.isFree_next last) fun e last' hlast ↦
      absurd hlast (Stdout.next_ne_locking last last' _)
  | holds hstdout hsender hhold =>
    have hdecided := h.decided hsender
    have hnone : w.hold ≠ .none := by
      rw [hhold]
      exact nofun
    exact h.release hstdout hsender (.held _) h.justified ⟨[], rfl, nofun⟩
      ⟨hdecided.1, hdecided.2, hnone⟩ ⟨nofun, nofun⟩
  | @sends e last hstdout hsender hhold =>
    have hdecided := h.decided hsender
    -- `run` is gone with its hold, so the failure is sent without it.
    obtain ⟨hplace, hdropped⟩ := h.dropped hstdout hsender hhold
    have hgrounds : Grounds a w.log (.sent (.error e)) := Or.inl hdropped
    exact h.release hstdout hsender .gone ⟨hgrounds, h.justified⟩
      ⟨[.sent (.error e)], rfl, fun e' he' ↦ ⟨_, List.mem_singleton.1 he'⟩⟩
      (.failed e hdecided.1 (congrArg (Except.error e :: ·) hdecided.2) (Or.inr hplace))
      ⟨nofun, nofun⟩
  | ends hstdout =>
    exact (h.note (e := .readerEnded .stdout) rfl trivial).leave
      (by rw [World.note, hstdout]; rfl) (.head _)
  | cut hstdout =>
    exact (h.note (e := .readerEnded .stdout) rfl trivial).leave
      (Stdout.isFree_of_awaits hstdout) (.head _)

/-- **What a step of a probe keeps.** -/
theorem Inv.probe (h : Inv a w) (hstep : ProbeStep a w w') : Inv a w' := by
  cases hstep with
  | readies hprobe hsender => exact (h.answer (Or.inr hsender) _).endProbe nofun
  | connects hprobe hkind =>
    refine h.withProbes (fun hsender ↦ ?_) fun hstop hnil ↦ ?_
    · have hne : Probe.mk .own false ≠ ⟨_, false⟩ := fun heq ↦ hkind (congrArg Probe.kind heq).symm
      exact .tail _ ((List.mem_erase_of_ne hne).2 (h.own hsender))
    · rw [hnil] at hprobe
      exact absurd hprobe List.not_mem_nil
  | takes hprobe hsender => exact (h.answer (Or.inl hsender) _).endProbe nofun
  | tooLate hprobe hsender => exact h.endProbe fun _ heq ↦ nomatch congrArg Probe.locking heq
  | stops hprobe hkind hstopped => exact h.endProbe fun _ heq ↦ hkind (congrArg Probe.kind heq)
  | stopsOwn hprobe hsender hstopped =>
    have hquiet : decisions w.log = [] ∧ Readiness.sends w.log = [] := by
      have haccount := h.account
      rwa [hsender] at haccount
    have hreader (e : StartError) : w.sender ≠ .reader e := fun he ↦ nomatch hsender.symm.trans he
    exact
      { h with
        account := .unused hquiet.1 hquiet.2
        deciding := iff_of_false (fun ⟨_, he⟩ ↦ nomatch he)
          fun ⟨last, hlast⟩ ↦ h.ne_deciding hreader last hlast
        own := nofun
        placed := h.placed.mono (fun _ ↦ id) Iff.rfl id (fun _ ↦ Or.inr rfl) rfl (fun _ hnil ↦ by
            rw [hnil] at hprobe
            exact absurd hprobe List.not_mem_nil)
          (fun _ ↦ rfl) id }

/-- `run` goes on to another place. -/
theorem Inv.goTo (h : Inv a w) {place : Place} (hold : Hold) (stop : Bool)
    (hhold : w.hold ≠ .none → hold ≠ .none) (hplace : w.place = .dropped → place = .dropped)
    (hplaced : Placed { w with place := place
                               hold := hold
                               stop := stop } place) :
    Inv a { w with place := place
                   hold := hold
                   stop := stop } :=
  { h with
    account := h.account.mono hhold hplace rfl rfl
    placed := hplaced }

/-- What was decided before the hold ended is why `run` fails. -/
theorem Inv.startFailed (h : Inv a w) {ended : Ended} (hplace : w.place = .delivering ended)
    (hhold : w.hold = .none) (hdecided : decisions w.log ≠ []) : w.startFailed = true := by
  have hplaced := h.placed
  rw [hplace] at hplaced
  have hstdout : w.stdout = .ended := hplaced.1 .stdout
  have haccount := h.account
  cases hsender : w.sender with
  | shared =>
    rw [hsender] at haccount
    exact absurd haccount.1 hdecided
  | probe =>
    rw [hsender] at haccount
    exact absurd haccount.1 hdecided
  | reader e =>
    obtain ⟨last, hlast⟩ := h.deciding.1 ⟨e, hsender⟩
    cases hstdout.symm.trans hlast
  | held e =>
    rw [hsender] at haccount
    exact absurd hhold haccount.2.2
  | gone =>
    rw [hsender] at haccount
    cases haccount with
    | unused hnone _ => exact absurd hnone hdecided
    | ready hnone _ _ => exact absurd hnone hdecided
    | failed e _ _ hmarked => exact hmarked.resolve_right fun hdropped ↦
        nomatch hplace.symm.trans hdropped

/-- **What a step of `run` keeps.** -/
theorem Inv.run (h : Inv a w) (hstep : RunStep a w w') : Inv a w' := by
  have hplaced := h.placed
  cases hstep with
  | @supervises done hplace e hother hnext hpossible =>
    rw [hplace] at hplaced
    refine h.goTo w.hold w.stop id (fun heq ↦ nomatch hplace.symm.trans heq)
      ⟨fun e' he' r hends ↦ ?_, hplaced.2⟩
    rcases List.mem_append.1 he' with hdone | hnew
    · exact hplaced.1 e' hdone r hends
    · obtain rfl := List.mem_singleton.1 hnew
      exact hpossible.ended r hends
  | @marks done hplace hnext =>
    rw [hplace] at hplaced
    exact
      { h with
        justified := ⟨trivial, h.justified⟩
        account := h.account.mono id (fun heq ↦ nomatch hplace.symm.trans heq) rfl rfl
        ended := fun r hr ↦ .tail _ (h.ended r hr)
        down := fun _ ↦ rfl
        reason := fun e last hlast ↦ (h.reason e last hlast).cons _
        placed := by
          refine ⟨fun e' he' r hends ↦ ?_, hplaced.2⟩
          rcases List.mem_append.1 he' with hdone | hnew
          · exact hplaced.1 e' hdone r hends
          · obtain rfl := List.mem_singleton.1 hnew
            cases hends }
  | @supervised done hplace ended hdone =>
    rw [hplace] at hplaced
    refine h.goTo (World.closeHold w.hold) w.stop closeHold_ne_none
      (fun heq ↦ nomatch hplace.symm.trans heq) ⟨fun r ↦ ?_, closeHold_ne_live _⟩
    obtain ⟨e, he, hends⟩ := (Supervise.orderly_supervise hdone).readersEnd r
    exact hplaced.1 e he r hends
  | @delivered ended hplace hhold =>
    rw [hplace] at hplaced
    refine h.goTo w.hold true id (fun heq ↦ nomatch hplace.symm.trans heq)
      ⟨hplaced.1, hhold, rfl, fun hdecided ↦ ?_⟩
    rw [h.startFailed hplace hhold hdecided]
    exact error_of_startFailed a.name ended
  | returns hplace hprobes =>
    rw [hplace] at hplaced
    have hover : Over w _ := hplaced
    exact h.goTo w.hold w.stop id (fun heq ↦ nomatch hplace.symm.trans heq)
      ⟨⟨hover.readers, hover.hold, hover.stop, hover.failed⟩, hprobes⟩
  | drops hplace =>
    exact (h.note (e := .dropped) rfl trivial).goTo (World.closeHold w.hold) w.stop
      closeHold_ne_none (fun _ ↦ rfl) ⟨.head _, closeHold_ne_live _⟩
  | dropsLate hplace =>
    rw [hplace] at hplaced
    have hnone : w.hold = .none := hplaced.hold
    refine (h.note (e := .dropped) rfl trivial).goTo w.hold w.stop id (fun _ ↦ rfl)
      ⟨.head _, fun hlive ↦ ?_⟩
    cases hnone.symm.trans hlive

/-- What is held is sent when the output was read, or after a drop. -/
theorem Inv.sendable (h : Inv a w) (hhold : w.hold = .closed) (hsender : w.sender = .held e) :
    .dropped ∈ w.log ∨ ∀ r, .readerEnded r ∈ w.log := by
  have hplaced := h.placed
  cases hplace : w.place with
  | supervising done =>
    rw [hplace, Placed, hhold, hsender] at hplaced
    rcases hplaced.2 with heq | heq | heq <;> cases heq
  | delivering ended =>
    rw [hplace] at hplaced
    exact Or.inr fun r ↦ h.ended r (hplaced.1 r)
  | endingProbes result =>
    rw [hplace] at hplaced
    exact Or.inr fun r ↦ h.ended r (hplaced.readers r)
  | returned result =>
    rw [hplace] at hplaced
    exact Or.inr fun r ↦ h.ended r (hplaced.1.readers r)
  | dropped =>
    rw [hplace] at hplaced
    exact Or.inl hplaced.1

/-- **What a step of the others keeps.** -/
theorem Inv.other (h : Inv a w) (hstep : OtherStep w w') : Inv a w' := by
  have hclosed {hold : Hold} (hhold : hold = .closed) : Hold.none = .live ↔ hold = .live :=
    iff_of_false nofun fun heq ↦ nomatch hhold.symm.trans heq
  cases hstep with
  | @receives e hhold hsender =>
    have hdecided : decisions w.log = [e] ∧ Readiness.sends w.log = [] := by
      have haccount := h.account
      rw [hsender] at haccount
      exact ⟨haccount.1, haccount.2.1⟩
    have hreader (e' : StartError) : w.sender ≠ .reader e' := fun he ↦
      nomatch hsender.symm.trans he
    have hgrounds : Grounds a w.log (.sent (.error e)) := h.sendable hhold hsender
    exact
      { justified := ⟨hgrounds, h.justified⟩
        account := .failed e hdecided.1 (congrArg (Except.error e :: ·) hdecided.2) (Or.inl rfl)
        deciding := iff_of_false (fun ⟨_, he⟩ ↦ nomatch he)
          fun ⟨last, hlast⟩ ↦ h.ne_deciding hreader last hlast
        ended := fun r hr ↦ .tail _ (h.ended r hr)
        handshake := h.handshake
        owns := h.owns
        down := fun hmem ↦ h.down ((List.mem_cons.1 hmem).resolve_left nofun)
        reason := fun e' last hlast ↦ (h.reason e' last hlast).cons _
        own := nofun
        placed := h.placed.mono (fun _ ↦ id) (hclosed hhold) (fun _ ↦ rfl) (fun _ ↦ Or.inr rfl) rfl
          (fun _ ↦ id) (fun _ ↦ rfl) (List.mem_cons_of_mem _) }
  | receivesNone hhold hsender =>
    exact
      { h with
        account := by
          have haccount := h.account
          cases heq : w.sender with
          | held e => exact absurd heq (hsender e)
          | shared => rwa [heq] at haccount
          | probe => rwa [heq] at haccount
          | reader e => rwa [heq] at haccount
          | gone => rwa [heq] at haccount
        placed := h.placed.mono (fun _ ↦ id) (hclosed hhold) (fun _ ↦ rfl) id rfl (fun _ ↦ id)
          (fun _ ↦ rfl) id }
  | stderrEnds hstderr =>
    have hnoted := h.note (e := .readerEnded .stderr) rfl trivial
    have hended (r : Supervise.Reader) (hr : w.Ended r) :
        World.Ended { w with stderrEnded := true } r := by
      cases r with
      | stdout => exact hr
      | stderr => exact rfl
    exact
      { hnoted with
        ended := fun r hr ↦ by
          cases r with
          | stdout => exact hnoted.ended .stdout hr
          | stderr => exact .head _
        placed := hnoted.placed.mono hended Iff.rfl id id rfl (fun _ ↦ id) (fun _ ↦ rfl) id }
  | cancels =>
    exact
      { h with
        placed := h.placed.mono (fun _ ↦ id) Iff.rfl id id rfl (fun _ ↦ id) (fun _ ↦ rfl) id }

end Keeps

/-! ### The runs -/

section Runs

variable {a : Args} {w : World}

theorem inv_start (cancelled : Bool) : Inv a (.start a cancelled) := by
  have hgone : Settled (.supervising []) false [] := .unused rfl rfl
  have hstart {w : World} (hlog : w.log = []) (hok : w.handshakeOk = false)
      (howns : w.probeOwnsReadiness = (a.readiness == .auto)) (hplace : w.place = .supervising [])
      (haccount : Account w.hold w.place w.startFailed [] w.sender)
      (hreader : ∀ e, w.sender ≠ .reader e)
      (hstdout : w.stdout = .starting ∨ w.stdout = .draining) (hstderr : w.stderrEnded = false)
      (hown : w.sender = .probe → ⟨.own, false⟩ ∈ w.probes)
      (hhold : w.hold = .live ∨ w.sender = .probe ∨ w.sender = .gone) : Inv a w := by
    have hnot {s : Stdout} (hs : s ≠ .starting ∧ s ≠ .draining) : w.stdout ≠ s := by
      rintro rfl
      exact hstdout.elim hs.1 hs.2
    exact
      { justified := by
          rw [hlog]
          exact justified_nil
        account := by rwa [hlog]
        deciding := iff_of_false (by rintro ⟨e, he⟩; exact hreader e he) (by
          rintro ⟨last, hlast⟩
          exact hnot (s := .deciding last) ⟨nofun, nofun⟩ hlast)
        ended := fun r hr ↦ by
          cases r with
          | stdout => exact absurd hr (hnot (s := .ended) ⟨nofun, nofun⟩)
          | stderr => cases hstderr.symm.trans hr
        handshake := by rwa [hlog]
        owns := by rwa [hlog]
        down := fun hmem ↦ by
          rw [hlog] at hmem
          exact absurd hmem List.not_mem_nil
        reason := fun e last hlast ↦
          absurd hlast (hnot (s := .locking (.error e) last) ⟨nofun, nofun⟩)
        own := hown
        placed := by
          rw [hplace]
          exact ⟨nofun, hhold⟩ }
  cases hreadiness : a.readiness with
  | probe =>
    cases cancelled with
    | false =>
      refine hstart rfl rfl rfl rfl ?_ ?_ (Or.inr ?_) rfl ?_ (Or.inr (Or.inl ?_))
      all_goals simp [World.start, hreadiness, Account, decisions, sends]
    | true =>
      refine hstart rfl rfl rfl rfl ?_ ?_ (Or.inr ?_) rfl ?_ (Or.inr (Or.inr ?_))
      all_goals simp [World.start, hreadiness, Account, hgone]
  | expectSitrep =>
    refine hstart rfl rfl rfl rfl ?_ ?_ (Or.inl ?_) rfl ?_ (Or.inl ?_)
    all_goals simp [World.start, hreadiness, Account, decisions, sends]
  | auto =>
    refine hstart rfl rfl rfl rfl ?_ ?_ (Or.inl ?_) rfl ?_ (Or.inl ?_)
    all_goals simp [World.start, hreadiness, Account, decisions, sends]

theorem Reachable.inv (h : Reachable a w) : Inv a w := by
  induction h with
  | start cancelled => exact inv_start cancelled
  | step h hstep ih =>
    rcases hstep with hreader | hprobe | hrun | hother
    · exact ih.reader hreader
    · exact ih.probe hprobe
    · exact ih.run hrun
    · exact ih.other hother

/-- A supervision whose calls can be answered so is carried through. -/
theorem Reachable.supervise (h : Reachable a w) (done rest : List Supervise.Event) {ended : Ended}
    (hplace : w.place = .supervising done) (hrun : a.supervision.HasTrace (done ++ rest) ended)
    (hrest : ∀ e ∈ rest, e.1 ≠ .markTakenDown ∧ w.Possible e) :
    Reachable a { w with place := .supervising (done ++ rest) } := by
  induction rest generalizing w done with
  | nil =>
    rw [List.append_nil, ← hplace]
    exact h
  | cons e rest ih =>
    obtain ⟨⟨hother, hpossible⟩, hrest⟩ := List.forall_mem_cons.1 hrest
    have hstep := h.step
      (Or.inr (Or.inr (Or.inl (.supervises hplace hother ⟨rest, ended, hrun⟩ hpossible))))
    rw [List.append_cons] at hrun ⊢
    exact ih hstep (done ++ [e]) rfl hrun fun e' he' ↦
      ⟨(hrest e' he').1, (hrest e' he').2.1, (hrest e' he').2.2, (hrest e' he').2.3⟩

/-- What was decided and sent, whoever has the sender. -/
theorem Inv.totals (h : Inv a w) :
    (decisions w.log = [] ∧ (sends w.log = [] ∨ ∃ report, sends w.log = [.ok report])) ∨
      ∃ e, decisions w.log = [e] ∧ (sends w.log = [.error e] ∨
        (sends w.log = [] ∧ (w.sender = .reader e ∨ (w.sender = .held e ∧ w.hold ≠ .none)))) := by
  have haccount := h.account
  cases hsender : w.sender with
  | shared =>
    rw [hsender] at haccount
    exact Or.inl ⟨haccount.1, Or.inl haccount.2⟩
  | probe =>
    rw [hsender] at haccount
    exact Or.inl ⟨haccount.1, Or.inl haccount.2⟩
  | reader e =>
    rw [hsender] at haccount
    exact Or.inr ⟨e, haccount.1, Or.inr ⟨haccount.2, Or.inl rfl⟩⟩
  | held e =>
    rw [hsender] at haccount
    exact Or.inr ⟨e, haccount.1, Or.inr ⟨haccount.2.1, Or.inr ⟨rfl, haccount.2.2⟩⟩⟩
  | gone =>
    rw [hsender] at haccount
    cases haccount with
    | unused hdecided hsent => exact Or.inl ⟨hdecided, Or.inl hsent⟩
    | ready hdecided report hsent => exact Or.inl ⟨hdecided, Or.inr ⟨report, hsent⟩⟩
    | failed e hdecided hsent _ => exact Or.inr ⟨e, hdecided, Or.inl hsent⟩

/-- A failure that was decided is on its way, or was sent. -/
theorem Inv.sent (h : Inv a w) {e : StartError} (he : .decided e ∈ w.log) :
    sends w.log = [.error e] ∨
      (sends w.log = [] ∧ (w.sender = .reader e ∨ (w.sender = .held e ∧ w.hold ≠ .none))) := by
  have hmem : e ∈ decisions w.log := mem_decisions.2 he
  rcases h.totals with ⟨hnone, -⟩ | ⟨e', he', hsent⟩
  · rw [hnone] at hmem
    exact absurd hmem List.not_mem_nil
  · rw [he', List.mem_singleton] at hmem
    exact hmem ▸ hsent

theorem Inv.over (h : Inv a w) {result : Except Error Unit} (hplace : w.place = .returned result) :
    Over w result ∧ w.probes = [] := by
  have hplaced := h.placed
  rwa [hplace] at hplaced

/-- **The readiness is decided once, and what was decided is not lost.** -/
structure DecidedOnce (a : Args) (w : World) : Prop where
  /-- At most one message is sent. -/
  once : (sends w.log).length ≤ 1
  /-- The reader decides at most once. -/
  decides : (decisions w.log).length ≤ 1
  /-- A failure is decided for an event, or for a standard output that is closed. -/
  reason : ∀ newer e older, w.log = newer ++ .decided e :: older → Reason a e older
  /-- The latter counts where no probe owns the readiness and no take-down was marked. -/
  closed : ∀ newer older, w.log = newer ++ .streamClosed :: older →
    probeOwns a older = false ∧ .takenDown ∉ older
  /-- Nothing else is sent once a failure was decided. -/
  kept : ∀ e, .decided e ∈ w.log → sends w.log = [] ∨ sends w.log = [.error e]
  /-- It is sent before `run` returns. -/
  sent : ∀ e result, .decided e ∈ w.log → w.place = .returned result → sends w.log = [.error e]
  /-- It is sent after a drop too, once the hold is dropped and the reader is not at it. -/
  sentAfterDrop : ∀ e, .decided e ∈ w.log → w.hold = .none →
    (∀ last, w.stdout ≠ .deciding last) → sends w.log = [.error e]
  /-- Without a drop it is sent after both readers ended. -/
  drained : ∀ newer e older, w.log = newer ++ .sent (.error e) :: older →
    .dropped ∈ older ∨ ∀ r, .readerEnded r ∈ older
  failed : ∀ e result, .decided e ∈ w.log → w.place = .returned result →
    ∃ error, result = .error error
  /-- No probe outlives `run`, or has the sender then. -/
  probes : ∀ result, w.place = .returned result → w.probes = [] ∧ w.sender ≠ .probe

/-- **The readiness of a plugin is decided once**, whatever it writes and in whatever order things
happen. -/
theorem decidedOnce_of_reachable (h : Reachable a w) : DecidedOnce a w := by
  have hinv := h.inv
  have hsent {e : StartError} (he : .decided e ∈ w.log) (hhold : w.hold = .none)
      (hstdout : ∀ last, w.stdout ≠ .deciding last) : sends w.log = [.error e] := by
    rcases hinv.sent he with hsent | ⟨-, hreader | ⟨-, hheld⟩⟩
    · exact hsent
    · obtain ⟨last, hlast⟩ := hinv.deciding.1 ⟨e, hreader⟩
      exact absurd hlast (hstdout last)
    · exact absurd hhold hheld
  have hover {result : Except Error Unit} (hplace : w.place = .returned result) := hinv.over hplace
  refine
    { once := ?_
      decides := ?_
      reason := fun newer e older hlog ↦ ?_
      closed := fun newer older hlog ↦ ?_
      kept := fun e he ↦ (hinv.sent he).symm.imp_left And.left
      sent := fun e result he hplace ↦ hsent he (hover hplace).1.hold fun last hlast ↦ ?_
      sentAfterDrop := fun e he ↦ hsent he
      drained := fun newer e older hlog ↦ ?_
      failed := fun e result he hplace ↦ (hover hplace).1.failed fun hnone ↦ ?_
      probes := fun result hplace ↦ ⟨(hover hplace).2, fun hprobe ↦ ?_⟩ }
  · rcases hinv.totals with ⟨-, hnone | ⟨report, hreport⟩⟩ | ⟨e, -, herror | ⟨hnone, -⟩⟩
    · exact hnone ▸ Nat.zero_le 1
    · exact hreport ▸ le_rfl
    · exact herror ▸ le_rfl
    · exact hnone ▸ Nat.zero_le 1
  · rcases hinv.totals with ⟨hnone, -⟩ | ⟨e, he, -⟩
    · exact hnone ▸ Nat.zero_le 1
    · exact he ▸ le_rfl
  · have hgrounds : Grounds a older (.decided e) := Justified.of_split (hlog ▸ hinv.justified)
    exact hgrounds
  · have hgrounds : Grounds a older .streamClosed := Justified.of_split (hlog ▸ hinv.justified)
    exact hgrounds
  · have hended : w.stdout = .ended := (hover hplace).1.readers .stdout
    cases hended.symm.trans hlast
  · have hgrounds : Grounds a older (.sent (.error e)) := Justified.of_split (hlog ▸ hinv.justified)
    exact hgrounds
  · have hmem := mem_decisions.2 he
    rw [hnone] at hmem
    exact List.not_mem_nil hmem
  · have hmem := hinv.own hprobe
    rw [(hover hplace).2] at hmem
    exact List.not_mem_nil hmem

end Runs

def sampleArgs : Args where
  name := "v2ray-plugin"
  localAddr := .v4 0x7f000001 1080
  readiness := .expectSitrep
  containment := .processGroup
  semverMajor _ := some 1

/-- A root that exits by itself, and whose output was read. -/
def exitedRun : List Supervise.Event :=
  [⟨.waitRootExitOrTakedown true, ⟨some (.ok ()), false, false, Supervise.held_of_not_failed, rfl⟩⟩,
    ⟨.killTree, .ok ()⟩, ⟨.joinReaders, true⟩, ⟨.reap, .ok ⟨some 0⟩⟩, ⟨.disarm, ()⟩]

/-- A plugin that closes its standard output, and then exits without an error. -/
theorem decidedOnce_sample : ∃ w : World, w.place = .returned (.error (.chain
      "plugin 'v2ray-plugin' failed to start and then exited cleanly")) ∧
    sends w.log = [.error streamClosed] ∧ DecidedOnce sampleArgs w := by
  have hrun : sampleArgs.supervision.HasTrace exitedRun (.ok (.exited ⟨some 0⟩)) :=
    .call _ <| .call _ <| .call _ <| .call _ <| .call _ <| .pure _
  have hstarted := (Reachable.start (a := sampleArgs) false).step (Or.inl (.starts rfl nofun))
  have hclosing := hstarted.step (Or.inl (.closes rfl))
  have hclosed := hclosing.step (Or.inl (.closedEarly rfl rfl rfl))
  have hdecided := hclosed.step (Or.inl (.decides rfl rfl))
  have hheld := hdecided.step (Or.inl (.holds rfl rfl rfl))
  have hstdout := hheld.step (Or.inl (.ends rfl))
  have hstderr := hstdout.step (Or.inr (Or.inr (Or.inr (.stderrEnds rfl))))
  have hdone := hstderr.supervise [] exitedRun rfl hrun <|
    List.forall_mem_cons.2 ⟨⟨nofun, nofun, nofun, nofun⟩,
      List.forall_mem_cons.2 ⟨⟨nofun, nofun, nofun, nofun⟩,
        List.forall_mem_cons.2 ⟨⟨nofun, fun r _ ↦ by cases r <;> rfl, nofun, nofun⟩,
          List.forall_mem_cons.2 ⟨⟨nofun, nofun, nofun, nofun⟩,
            List.forall_mem_singleton.2 ⟨nofun, nofun, nofun, nofun⟩⟩⟩⟩⟩
  have hsupervised := hdone.step (Or.inr (Or.inr (Or.inl (.supervised rfl hrun))))
  have hreceived := hsupervised.step (Or.inr (Or.inr (Or.inr (.receives rfl rfl))))
  have hdelivered := hreceived.step (Or.inr (Or.inr (Or.inl (.delivered rfl rfl))))
  have hreturned := hdelivered.step (Or.inr (Or.inr (Or.inl (.returns rfl rfl))))
  exact ⟨_, rfl, rfl, decidedOnce_of_reachable hreturned⟩

end Hole.Plugin.Readiness
