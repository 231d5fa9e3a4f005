import Hole.Effect.History
import Hole.Effect.Pool

/-!
# Progress reports of a stop

`StopProgress` (`bridge/src/service_stop.rs`): the Stop control of the service manager and the main
task both report how far the stop is. Reports are made under one lock, which the control only tries
and the main task waits for; what the control's report came to is held in a slot under a second lock
until an `enter` or a `log_stop_control` takes and logs it.

A call is a program of one task of a pool, so that calls of any number interleave at their
operations. The slot's lock is held only to store or to take, and so is that of the shutdown sender:
each such operation is one step. A report ends well, with an error, or in a panic; a panic unwinds
an `enter`, which leaves the lock poisoned, and is caught by the control. Texts and times of the log
are left out.
-/

namespace Hole.Bridge.ServiceStop

open Effect
open Prog (perform)

/-- `StopPhase`. -/
inductive StopPhase
  | stopRequested
  | acquireProxy
  | persistTarget
  | restoreDns
  | stopEngine
  | reapPlugins
  | stopProxy
  | tearDownRoutes
  | settleCover
  | closeEtw
  | dropResources
  | shutdownRuntime
  deriving DecidableEq

namespace StopPhase

/-- `StopPhase::checkpoint`. -/
def checkpoint : StopPhase → Nat
  | stopRequested => 1
  | acquireProxy => 2
  | persistTarget => 3
  | restoreDns => 4
  | stopEngine => 5
  | reapPlugins => 6
  | stopProxy => 7
  | tearDownRoutes => 8
  | settleCover => 9
  | closeEtw => 10
  | dropResources => 11
  | shutdownRuntime => 12

/-- The order of the declaration. -/
def reaches (last phase : StopPhase) : Bool := phase.ctorIdx ≤ last.ctorIdx

theorem checkpoint_eq (phase : StopPhase) : phase.checkpoint = phase.ctorIdx + 1 := by
  cases phase <;> rfl

theorem reaches_iff {last phase : StopPhase} :
    last.reaches phase ↔ phase.checkpoint ≤ last.checkpoint := by
  simp only [reaches, decide_eq_true_eq, checkpoint_eq, Nat.add_le_add_iff_right]

theorem stopRequested_le (phase : StopPhase) : stopRequested.checkpoint ≤ phase.checkpoint := by
  cases phase <;> decide

end StopPhase

/-- How a report ends. -/
inductive ReportEnd
  | returned (ok : Bool)
  | panicked
  deriving DecidableEq

/-- `StopControl`. -/
inductive StopControl
  | reported (ok : Bool)
  | reportPanicked
  | superseded
  deriving DecidableEq

/-- `StopControl::merge`. -/
def StopControl.merge : StopControl → StopControl → StopControl
  | .reportPanicked, .reportPanicked => .reportPanicked
  | .reportPanicked, .reported _ => .reportPanicked
  | .reportPanicked, .superseded => .reportPanicked
  | .reported _, .reportPanicked => .reportPanicked
  | .reported ok, .reported _ => .reported ok
  | .reported ok, .superseded => .reported ok
  | .superseded, .reportPanicked => .reportPanicked
  | .superseded, .reported ok => .reported ok
  | .superseded, .superseded => .superseded

/-- A report was made. -/
def StopControl.isReport : StopControl → Bool
  | reported _ => true
  | reportPanicked => true
  | superseded => false

/-- What the attempt of the control to report came to. -/
def StopControl.of : Option ReportEnd → StopControl
  | some (.returned ok) => .reported ok
  | some .panicked => .reportPanicked
  | none => .superseded

/-! ### The calls -/

/-- The calls that the threads make. -/
inductive Call
  /-- `stop_control`. -/
  | control
  | enter (phase : StopPhase)
  | logStopControl
  deriving DecidableEq

/-- How a call ends. -/
inductive Ended
  | returned
  | unwound
  deriving DecidableEq

/-- What an attempt for the report lock gives. -/
inductive TryLock
  | ok
  | poisoned
  | wouldBlock

/-- The operations of the calls. -/
inductive ProgressOp
  | begin (call : Call)
  | lockLast
  | tryLockLast
  | getLast
  | setLast (phase : StopPhase)
  /-- Report a phase. The call that does is for the history only. -/
  | report (call : Call) (phase : StopPhase)
  | dropLast (panicking : Bool)
  | store (outcome : StopControl)
  | take
  | logControl (outcome : StopControl)
  | logReported (phase : StopPhase) (ok : Bool)
  | signal
  deriving DecidableEq

/-- Their answers. -/
@[reducible] def ProgressOp.Ans : ProgressOp → Type
  | tryLockLast => TryLock
  | getLast => Option StopPhase
  | report _ _ => ReportEnd
  | take => Option StopControl
  | _ => Unit

/-- A program over the operations. -/
abbrev ProgressM (α : Type) : Type := Prog ProgressOp ProgressOp.Ans α

/-- `StopProgress::report_if_advancing`. -/
def reportIfAdvancing (call : Call) (phase : StopPhase) : ProgressM (Option ReportEnd) := do
  let last : Option StopPhase ← perform ProgressOp.getLast
  if last.any (·.reaches phase) then pure none
  else do
    let _ : Unit ← perform (ProgressOp.setLast phase)
    let outcome : ReportEnd ← perform (ProgressOp.report call phase)
    pure (some outcome)

/-- `StopProgress::log_stop_control`. -/
def logStopControl : ProgressM Unit := do
  let taken : Option StopControl ← perform ProgressOp.take
  match taken with
  | some outcome => perform (ProgressOp.logControl outcome)
  | none => pure ()

/-- `StopProgress::enter`. -/
def enter (phase : StopPhase) : ProgressM Ended := do
  let _ : Unit ← perform ProgressOp.lockLast
  let outcome ← reportIfAdvancing (.enter phase) phase
  match outcome with
  | some .panicked => do
    let _ : Unit ← perform (ProgressOp.dropLast true)
    pure .unwound
  | some (.returned ok) => do
    let _ : Unit ← perform (ProgressOp.dropLast false)
    logStopControl
    let _ : Unit ← perform (ProgressOp.logReported phase ok)
    pure .returned
  | none => do
    let _ : Unit ← perform (ProgressOp.dropLast false)
    logStopControl
    pure .returned

/-- The closure of `report_stop_control`, with the drop of its guard. -/
def reportAndStore : ProgressM Unit := do
  let outcome ← reportIfAdvancing .control .stopRequested
  let _ : Unit ← perform (ProgressOp.store (.of outcome))
  perform (ProgressOp.dropLast false)

/-- `StopProgress::report_stop_control`. -/
def reportStopControl : ProgressM Unit := do
  let lock : TryLock ← perform ProgressOp.tryLockLast
  match lock with
  | .ok => reportAndStore
  | .poisoned => reportAndStore
  | .wouldBlock => perform (ProgressOp.store .superseded)

/-- `stop_control`: `request_stop` with the signal of the shutdown. -/
def stopControl : ProgressM Ended := do
  reportStopControl
  let _ : Unit ← perform ProgressOp.signal
  pure .returned

/-- What a call runs. -/
def Call.run : Call → ProgressM Ended
  | control => stopControl
  | enter phase => ServiceStop.enter phase
  | logStopControl => do
    ServiceStop.logStopControl
    pure .returned

/-- A call, from its beginning. -/
def Call.body (call : Call) : ProgressM Ended := do
  let _ : Unit ← perform (ProgressOp.begin call)
  call.run

/-! ### The state they share -/

/-- What happened, by task. -/
inductive ProgressEvent
  | begins (i : Nat) (call : Call)
  | reports (i : Nat) (call : Call) (phase : StopPhase) (how : ReportEnd)
  /-- What the slot held comes before what is stored. -/
  | stores (i : Nat) (held : Option StopControl) (outcome : StopControl)
  | takes (i : Nat) (found : Option StopControl)
  | logsControl (i : Nat) (outcome : StopControl)
  | signals (i : Nat)
  /-- Any other operation. -/
  | does (i : Nat) (o : ProgressOp)
  | ends (i : Nat) (call : Call) (how : Ended)
  deriving DecidableEq

/-- `StopProgress`, the sender of the shutdown, and what happened so far, newest first. -/
structure Progress where
  holder : Option Nat
  poisoned : Bool
  last : Option StopPhase
  stopControl : Option StopControl
  shutdownTx : Bool
  log : List ProgressEvent

namespace Progress

/-- Before the first call. -/
def new : Progress := ⟨none, false, none, none, true, []⟩

/-- What `store_stop_control` leaves in the slot. -/
def stored (held : Option StopControl) (outcome : StopControl) : StopControl :=
  match held with
  | some held => .merge held outcome
  | none => outcome

/-- The answer to an operation. -/
def answer (s : Progress) (how : ReportEnd) : (o : ProgressOp) → o.Ans
  | .tryLockLast =>
    if s.holder.isSome then .wouldBlock else if s.poisoned then .poisoned else .ok
  | .getLast => s.last
  | .report _ _ => how
  | .take => s.stopControl
  | .begin _ => ()
  | .lockLast => ()
  | .setLast _ => ()
  | .dropLast _ => ()
  | .store _ => ()
  | .logControl _ => ()
  | .logReported _ _ => ()
  | .signal => ()

/-- What an operation of task `i` leaves, the history apart. -/
def effect (s : Progress) (i : Nat) : ProgressOp → Progress
  | .lockLast => { s with holder := some i }
  | .tryLockLast => if s.holder.isSome then s else { s with holder := some i }
  | .setLast phase => { s with last := some phase }
  | .dropLast panicking => { s with holder := none, poisoned := s.poisoned || panicking }
  | .store outcome => { s with stopControl := some (stored s.stopControl outcome) }
  | .take => { s with stopControl := none }
  | .signal => { s with shutdownTx := false }
  | .begin _ => s
  | .getLast => s
  | .report _ _ => s
  | .logControl _ => s
  | .logReported _ _ => s

/-- What an operation of task `i` adds to the history. -/
def event (s : Progress) (i : Nat) (how : ReportEnd) : ProgressOp → ProgressEvent
  | .begin call => .begins i call
  | .report call phase => .reports i call phase how
  | .store outcome => .stores i s.stopControl outcome
  | .take => .takes i s.stopControl
  | .logControl outcome => .logsControl i outcome
  | .signal => if s.shutdownTx then .signals i else .does i .signal
  | o => .does i o

/-- What an operation of task `i` does. -/
def next (s : Progress) (i : Nat) (how : ReportEnd) (o : ProgressOp) : Progress :=
  { s.effect i o with log := s.event i how o :: s.log }

end Progress

/-- The threads that make calls, any number of them. Only a call that waits for the report lock
waits. -/
def stopThreads : System ProgressOp ProgressOp.Ans Progress ReportEnd Call Ended where
  body := Call.body
  arrives _ := true
  enabled s _ _ o :=
    match o with
    | .lockLast => s.holder.isNone
    | _ => true
  answer s _ _ o how := s.answer how o
  next s i _ o how := s.next i how o
  fork _ := none
  droppable _ _ := false
  finish s i call how := { s with log := .ends i call how :: s.log }
  cleanup s _ _ := s

/-! ### Ordered and complete -/

/-- The checkpoint that an event reports. -/
def ProgressEvent.checkpoint : ProgressEvent → Option Nat
  | reports _ _ phase _ => some phase.checkpoint
  | _ => none

/-- What an event logs of a report that a control made. -/
def ProgressEvent.line : ProgressEvent → Option StopControl
  | logsControl _ outcome => if outcome.isReport then some outcome else none
  | _ => none

/-- The log lines of reports that controls made. -/
def controlLines (log : List ProgressEvent) : List StopControl := log.filterMap ProgressEvent.line

/-- A call of task `j` begins and then returns. -/
def RunsIn (j : Nat) (call : Call) : List ProgressEvent → Prop
  | [] => False
  | e :: log => RunsIn j call log ∨ (e = .ends j call .returned ∧ .begins j call ∈ log)

instance RunsIn.decidable (j : Nat) (call : Call) : ∀ log, Decidable (RunsIn j call log)
  | [] => isFalse id
  | e :: log =>
    have := RunsIn.decidable j call log
    inferInstanceAs (Decidable (RunsIn j call log ∨ (e = .ends j call .returned ∧
      .begins j call ∈ log)))

/-- An `enter` that returns begins after the report of control `i`, or a `log_stop_control` after
what the report came to was stored. What followed the report is `newer`. -/
def LogsAfter (newer : List ProgressEvent) (i : Nat) (outcome : StopControl) : Prop :=
  (∃ j phase, RunsIn j (.enter phase) newer) ∨
    ∃ newest mid held, newer = newest ++ ProgressEvent.stores i held outcome :: mid ∧
      ∃ j, RunsIn j .logStopControl newest

/-- The state of the pool after the steps. -/
abbrev afterSteps (ls : List (Label ReportEnd Call)) :
    Pool ProgressOp ProgressOp.Ans Progress Call Ended :=
  stopThreads.exec (.idle .new) ls

/-- No `enter` and no `log_stop_control` is running. -/
def OnlyControls (p : Pool ProgressOp ProgressOp.Ans Progress Call Ended) : Prop :=
  ∀ i t, p.tasks i = some t → t.kind = .control

/-- What the reports of a stop meet. -/
structure OrderedComplete (p : Pool ProgressOp ProgressOp.Ans Progress Call Ended) : Prop where
  /-- Checkpoints are reported in strictly increasing order; the newest comes first. -/
  ordered : (p.shared.log.filterMap ProgressEvent.checkpoint).Pairwise (· > ·)
  /-- A control never waits. -/
  runs : ∀ i o f, p.tasks i = some ⟨.control, .call o f⟩ →
    stopThreads.enabled p.shared p.live i o = true
  /-- A control that ends has returned, and the shutdown was signalled before. -/
  signals : ∀ newer older i how,
    p.shared.log = newer ++ ProgressEvent.ends i .control how :: older →
    how = .returned ∧ ∃ j, .signals j ∈ older
  /-- Only a report of a control is logged as one, and only once. -/
  once : (controlLines p.shared.log).length ≤ 1
  /-- It is logged where a call runs after it. -/
  logged : ∀ newer older i how,
    p.shared.log = newer ++ ProgressEvent.reports i .control .stopRequested how :: older →
      LogsAfter newer i (.of (some how)) → OnlyControls p →
        controlLines p.shared.log = [.of (some how)]
  /-- Two reports never meet. -/
  merges : ∀ i held outcome, .stores i (some held) outcome ∈ p.shared.log →
    ¬(held.isReport ∧ outcome.isReport)

end Hole.Bridge.ServiceStop
