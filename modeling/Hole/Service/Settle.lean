import Hole.Service.Hold

/-!
# The stop wait

`settle_stopped` of `bridge/src/service_scm/settle.rs`. Every decision is taken on a look at the
service, and the loop returns only on a scan of its own that found nothing.

A wait for the SCM follows one of two rules. The wait for the effect of a Stop arms the notification
**before the Stop**; the wait for a transition of the SCM's own arms it, **looks again**, and sleeps
only if that look asks for the same wait. A service that is marked for deletion cannot be armed on,
and its processes are waited out instead.
-/

namespace Hole.Service

open Effect

/-- `WantState`. -/
inductive WantState
  | stopped
  | running

/-- `states_to_arm`. -/
def statesToArm (want : WantState) (started : Bool) (except : Option Observed) : List Observed :=
  let base : List Observed :=
    match want, started with
    | .stopped, _ => [.stopped, .startPending, .stopPending, .running]
    | .running, true => [.stopped, .startPending, .running]
    | .running, false => [.startPending, .running]
  base.filter fun state ↦ some state ≠ except

/-- `SettleError`. -/
structure SettleError where
  step : SettleFailure
  error : CallError

/-- Programs of the stop wait. -/
abbrev SettleM := Fallible StopOp StopOp.Ans (Halt SettleError)

/-- `map_err`. -/
def inStep {α : Type} (step : SettleFailure) (p : HoldM α) : SettleM α :=
  ExceptT.adapt (Halt.map (SettleError.mk step)) p

/-- `SettleStep`. -/
inductive SettleStep
  | quiescent
  | sendStop
  | awaitHeldExit
  | awaitChange (from_ : Observed)
  deriving DecidableEq

/-- `Look::settle_step`. -/
def Look.settleStep (l : Look) : SettleStep :=
  match l.observed with
  | .running =>
    match l.fate with
    | .unheld => .sendStop
    | .alive => .sendStop
    | .exited => .awaitChange .running
  | .startPending => .awaitChange .startPending
  | .stopPending => .awaitChange .stopPending
  | .stopped => if l.heldAlive then .awaitHeldExit else .quiescent

/-- `Look::shows_its_processes_gone`. -/
def Look.showsItsProcessesGone (l : Look) : Bool :=
  match l.fate with
  | .exited => true
  | .alive => false
  | .unheld => l.everHeld

/-- `SettleStep::ends_the_wait`. -/
def SettleStep.endsTheWait : SettleStep → Bool
  | quiescent => true
  | sendStop => false
  | awaitHeldExit => false
  | awaitChange _ => false

/-- `SettleStep::is_a_stop_the_service_takes`. -/
def SettleStep.isAStopTheServiceTakes : SettleStep → Bool
  | quiescent => false
  | sendStop => true
  | awaitHeldExit => false
  | awaitChange _ => false

/-- `StopWait`. -/
inductive StopWait
  | heldProcess
  | statusChange

/-- `ProcessFate::wait_after_stop`. -/
def ProcessFate.waitAfterStop : ProcessFate → StopWait
  | alive => .heldProcess
  | unheld => .statusChange
  | exited => .statusChange

/-- `Look::exit_wait`. -/
def Look.exitWait (l : Look) : ExitWait :=
  match l.observed with
  | .running => .onTheirOwn
  | .startPending => .onTheirOwn
  | .stopPending => .onTheirOwn
  | .stopped => .terminateOrphansThenWait

/-- `Settle`, less the actor: what the wait carries from call to call. -/
structure Settle where
  holds : ProcessHolds
  /-- The SCM refused an arm because the service is marked for deletion. -/
  refused : Bool

/-- `Next`. -/
inductive Next
  | look (l : Look)
  | settled

section

variable (this fuel : Nat)

/-- `Settle::observe`. -/
def observeService (st : Settle) : SettleM (Look × Settle) := do
  let (l, holds) ← inStep .observe (look fuel st.holds)
  pure (l, { st with holds := holds })

/-- `Settle::hold_scanned`. -/
def scanService (st : Settle) : SettleM (ScanFinding × Settle) := do
  let (finding, holds) ← inStep .scan (holdScanned this st.holds)
  pure (finding, { st with holds := holds })

/-- A look that the loop goes on with. -/
def lookAgain (st : Settle) : SettleM (Next × Settle) := do
  let (l, st) ← observeService fuel st
  pure (.look l, st)

/-- `Settle::await_exits_then_look`. -/
def awaitExitsThenLook (wait : ExitWait) (st : Settle) : SettleM (Next × Settle) := do
  inStep .awaitExit (awaitExits st.holds wait)
  lookAgain fuel st

/-- `Settle::await_callback`. -/
def awaitCallback : SettleM Unit := inStep .awaitChange do
    let fired ← ask .awaitCallback
    orFail fired

/-- What an arm that the SCM answered comes to. -/
def armed (st : Settle) : Except CallError Unit → SettleM (Bool × Settle)
  | .ok () => pure (true, st)
  | .error e =>
    match e.serviceGone with
    | some gone =>
      if gone.answersThroughAnOpenHandle then pure (false, { st with refused := true })
      else throw (.error ⟨.arm, e⟩)
    | none => throw (.error ⟨.arm, e⟩)

/-- `Settle::arm_leaving`. An arm for no state would never fire. -/
def armLeaving (from_ : Observed) (st : Settle) : SettleM (Bool × Settle) :=
  if st.refused then pure (false, st)
  else if (statesToArm .stopped false (some from_)).isEmpty then throw .panicked
  else do
    let answer ← Fallible.call (StopOp.arm (statesToArm .stopped false (some from_)))
    armed st answer

/-- The end of `Settle::without_arm`, once it has scanned and looked. -/
def withoutArmOn (finding : ScanFinding) (l : Look) (st : Settle) : SettleM (Next × Settle) :=
  if l.heldAlive then awaitExitsThenLook fuel l.exitWait st
  else if l.settleStep.endsTheWait then pure (.look l, st)
  else if !finding.endsTheWait then pure (.look l, st)
  else if l.showsItsProcessesGone then pure (.settled, st)
  else awaitExitsThenLook fuel l.exitWait st

/-- `Settle::without_arm`. -/
def withoutArm (st : Settle) : SettleM (Next × Settle) := do
  let (finding, st) ← scanService this st
  let (l, st) ← observeService fuel st
  withoutArmOn fuel finding l st

/-- The arm of a Stop, where its effect is a transition. -/
def armForStop (l : Look) (st : Settle) : SettleM (Bool × Settle) :=
  match l.fate.waitAfterStop with
  | .heldProcess => pure (false, st)
  | .statusChange => armLeaving l.observed st

/-- The wait for the effect of an accepted Stop. -/
def awaitStop (l : Look) (armed : Bool) (st : Settle) : SettleM (Next × Settle) :=
  match l.fate.waitAfterStop with
  | .heldProcess => awaitExitsThenLook fuel l.exitWait st
  | .statusChange =>
    if armed then do
      awaitCallback
      lookAgain fuel st
    else withoutArm this fuel st

/-- A Stop that was refused is an error only while the service would take one. -/
def stopRefused (e : CallError) (st : Settle) : SettleM (Next × Settle) := do
  let (again, st) ← observeService fuel st
  if again.settleStep.isAStopTheServiceTakes then throw (.error ⟨.stop, e⟩)
  else pure (.look again, st)

/-- `Settle::stop`. -/
def stop (l : Look) (st : Settle) : SettleM (Next × Settle) := do
  let (armed, st) ← armForStop l st
  let answer : Except CallError Unit ← Fallible.call StopOp.controlStop
  match answer with
  | .error e => stopRefused fuel e st
  | .ok () => awaitStop this fuel l armed st

/-- The sleep of `Settle::await_change`, if the look after the arm still asks for it. -/
def awaitChangeArmed (step : SettleStep) (st : Settle) : SettleM (Next × Settle) := do
  let (again, st) ← observeService fuel st
  if again.settleStep ≠ step then pure (.look again, st)
  else do
    awaitCallback
    lookAgain fuel st

/-- `Settle::await_change`. -/
def awaitChange (step : SettleStep) (st : Settle) : SettleM (Next × Settle) :=
  match step with
  | .awaitChange from_ => do
    let (armed, st) ← armLeaving from_ st
    if armed then awaitChangeArmed fuel step st else withoutArm this fuel st
  | .quiescent => throw .panicked
  | .sendStop => throw .panicked
  | .awaitHeldExit => throw .panicked

/-- The quiescent step: a scan of its own, and a look that still finds the service stopped. -/
def quiesce (st : Settle) : SettleM (Next × Settle) := do
  let (finding, st) ← scanService this st
  let (l, st) ← observeService fuel st
  if finding.endsTheWait && l.settleStep.endsTheWait then pure (.settled, st)
  else pure (.look l, st)

/-- One turn of the loop. -/
def settleTurn (l : Look) (st : Settle) : SettleM (Next × Settle) :=
  match l.settleStep with
  | .quiescent => quiesce this fuel st
  | .sendStop => stop this fuel l st
  | .awaitHeldExit => awaitExitsThenLook fuel l.exitWait st
  | .awaitChange from_ => awaitChange this fuel (.awaitChange from_) st

/-- The loop. -/
def settleLoop : Nat → Look → Settle → SettleM Unit
  | 0, _, _ => throw .unfinished
  | turns + 1, l, st => do
    let (next, st) ← settleTurn this fuel l st
    match next with
    | .look again => settleLoop turns again st
    | .settled => pure ()

/-- `settle_stopped`. -/
def settleStopped (turns : Nat) : SettleM Unit := do
  let (l, st) ← observeService fuel ⟨⟨[], []⟩, false⟩
  settleLoop this fuel turns l st

end

end Hole.Service
