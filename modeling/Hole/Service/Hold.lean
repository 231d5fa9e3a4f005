import Hole.Effect.Fallible
import Hole.Service.Retire

/-!
# Holding the processes of a service

`bridge/src/service_scm/hold.rs` and `scan.rs`, with the probe of a process from
`platform/windows/service_processes.rs`, as programs over single system calls.

A process id that the SCM names is a claim. A process is held only if its token carries the
service's identity, and it stays held, with the **origin** of the hold, which later says whether the
process may be terminated. A scan opens every listed process and keeps those that are the service's;
a listed process that is gone by its probe counts as *vanished* unless the scan before found it gone
already.

The branches that the source calls unreachable are `panicked` here, and an unbounded loop has a fuel
that runs out as `unfinished`.
-/

namespace Hole.Service

open Effect

/-! ### States and identities -/

/-- `Observed`. -/
inductive Observed
  | running
  | stopped
  | startPending
  | stopPending
  deriving DecidableEq

/-- `ReportedPid`. -/
inductive ReportedPid
  | valid
  | mayBeInvalid
  | never

/-- `ReportedPid::is_a_claim_about_the_service`. -/
def ReportedPid.isAClaimAboutTheService : ReportedPid → Bool
  | valid => true
  | mayBeInvalid => false
  | never => false

/-- `ReportedPid::gone_id_is_an_exit`. -/
def ReportedPid.goneIdIsAnExit : ReportedPid → Bool
  | valid => true
  | mayBeInvalid => false
  | never => false

/-- `Observed::reported_pid`. -/
def Observed.reportedPid : Observed → ReportedPid
  | running => .valid
  | startPending => .mayBeInvalid
  | stopPending => .mayBeInvalid
  | stopped => .never

/-- `Observed::names_a_process`. -/
def Observed.namesAProcess (o : Observed) : Bool :=
  match o.reportedPid with
  | .valid => true
  | .mayBeInvalid => true
  | .never => false

/-- `Reading`: the state, and the process id that goes with it, 0 for none. -/
structure Reading where
  observed : Observed
  pid : Nat

/-- `Reading::process_to_hold`. -/
def Reading.processToHold (r : Reading) : Option Nat :=
  if r.observed.namesAProcess && r.pid != 0 then some r.pid else none

/-- `ListedProcess`: the id that the system reuses, and the creation time that tells its holders
apart. An open handle is of one such process. -/
structure ListedProcess where
  pid : Nat
  created : Nat
  deriving DecidableEq

/-! ### Failed calls -/

/-- The calls, as far as a failure names them. -/
inductive ScmCall
  | queryServiceStatusEx
  | notifyServiceStatusChange
  | controlService
  | openProcess
  | openProcessToken
  | getProcessTimes
  | waitForSingleObject
  | terminateProcess
  | processList
  deriving DecidableEq

/-- A failed call, with the code it failed with where there is one. -/
structure CallError where
  call : ScmCall
  code : Option Nat

/-- `ERROR_ACCESS_DENIED`. -/
def errorAccessDenied : Nat := 5

/-- `ERROR_INVALID_PARAMETER`. -/
def errorInvalidParameter : Nat := 87

/-- `ERROR_SERVICE_DOES_NOT_EXIST`. -/
def errorServiceDoesNotExist : Nat := 1060

/-- `ERROR_SERVICE_MARKED_FOR_DELETE`. -/
def errorServiceMarkedForDelete : Nat := 1072

/-- `service_gone`. -/
def CallError.serviceGone (e : CallError) : Option ServiceGone := e.code.bind fun code ↦
    if code = errorServiceDoesNotExist then some .doesNotExist
    else if code = errorServiceMarkedForDelete then some .markedForDeletion
    else none

/-- `ServiceGone::answers_through_an_open_handle`. -/
def ServiceGone.answersThroughAnOpenHandle : ServiceGone → Bool
  | doesNotExist => false
  | markedForDeletion => true

/-- `ProbeFailure`. -/
inductive ProbeFailure
  | noSuchProcess
  | accessDenied
  | other
  deriving DecidableEq

/-- `ProbeFailure::of_error`. -/
def ProbeFailure.ofError (e : CallError) : ProbeFailure :=
  match e.code with
  | none => other
  | some code =>
    if e.call = .openProcess ∧ code = errorInvalidParameter then noSuchProcess
    else if code = errorAccessDenied then accessDenied
    else other

/-- `Basis`. -/
inductive Basis
  | named (reported : ReportedPid)
  | scanned

/-- `Verdict`. -/
inductive Verdict
  | gone
  | notOurs
  | fatal
  | undetermined

/-- `Basis::verdict`; `none` where the source panics. -/
def Basis.verdict (basis : Basis) (failure : ProbeFailure) : Option Verdict :=
  match basis, failure with
  | .named .valid, .noSuchProcess => some .gone
  | .named .valid, .accessDenied => some .fatal
  | .named .valid, .other => some .fatal
  | .named .mayBeInvalid, .noSuchProcess => some .gone
  | .named .mayBeInvalid, .accessDenied => some .notOurs
  | .named .mayBeInvalid, .other => some .fatal
  | .named .never, _ => none
  | .scanned, .noSuchProcess => some .gone
  | .scanned, .accessDenied => some .notOurs
  | .scanned, .other => some .undetermined

/-! ### Calls -/

/-- The calls of the stop wait. -/
inductive StopOp
  /-- The state and the process id, in one query. -/
  | read
  | openProcess (pid : Nat)
  /-- The creation time of an open process. -/
  | processTimes (h : ListedProcess)
  | tokenCarries (h : ListedProcess)
  | hasExited (h : ListedProcess)
  | list
  | arm (states : List Observed)
  | controlStop
  | awaitCallback
  | terminate (pid : Nat)
  /-- A wait on each of these processes, for so long each where there is a bound. -/
  | waitOnEach (held : List ListedProcess) (millis : Option Nat)

/-- The answers. -/
@[reducible] def StopOp.Ans : StopOp → Type
  | read => Except CallError Reading
  | openProcess _ => Except CallError ListedProcess
  | processTimes _ => Except CallError Nat
  | tokenCarries _ => Except CallError Bool
  | hasExited _ => Except CallError Bool
  | list => Except CallError (List ListedProcess)
  | arm _ => Except CallError Unit
  | controlStop => Except CallError Unit
  | awaitCallback => Except CallError Unit
  | terminate _ => Except CallError Unit
  | waitOnEach _ _ => Except CallError Unit

/-- How a program ends without a value. -/
inductive Halt (ε : Type)
  | error (e : ε)
  /-- A branch that the source calls unreachable was reached. -/
  | panicked
  | unfinished

/-- An error renamed. -/
def Halt.map {ε δ : Type} (f : ε → δ) : Halt ε → Halt δ
  | error e => error (f e)
  | panicked => panicked
  | unfinished => unfinished

/-- Programs of the stop wait whose errors are those of single calls. -/
abbrev HoldM := Fallible StopOp StopOp.Ans (Halt CallError)

/-- One call. -/
abbrev ask (o : StopOp) : HoldM o.Ans := Fallible.call o

/-- The `?` of a call. -/
def orFail {α : Type} : Except CallError α → HoldM α
  | .ok a => pure a
  | .error e => throw (.error e)

/-- Whether an open process has exited. -/
def hasExited (h : ListedProcess) : HoldM Bool := do
  let exited ← ask (.hasExited h)
  orFail exited

/-! ### Probing a process -/

/-- `Opened`. -/
inductive Opened
  | noSuchProcess
  | notTheService
  | service (h : ListedProcess)
  | undetermined (code : Option Nat)

/-- `Opened::of_failure`. -/
def Opened.ofFailure (basis : Basis) (e : CallError) : HoldM Opened :=
  match basis.verdict (ProbeFailure.ofError e) with
  | none => throw .panicked
  | some .gone => pure noSuchProcess
  | some .notOurs => pure notTheService
  | some .fatal => throw (.error e)
  | some .undetermined => pure (undetermined e.code)

/-- `opened_from_token_read`. -/
def openedFromTokenRead (h : ListedProcess) (basis : Basis) : Except CallError Bool → HoldM Opened
  | .ok true => pure (.service h)
  | .ok false => pure .notTheService
  | .error e => do
    let exited ← hasExited h
    if exited then pure .noSuchProcess else Opened.ofFailure basis e

/-- The token read of a probe. -/
def readToken (h : ListedProcess) (basis : Basis) : HoldM Opened := do
  let read ← ask (.tokenCarries h)
  openedFromTokenRead h basis read

/-- `open_process`. -/
def openProcess (pid : Nat) (basis : Basis) : HoldM Opened := do
  let opened : Except CallError ListedProcess ← ask (StopOp.openProcess pid)
  match opened with
  | .ok h => readToken h basis
  | .error e => Opened.ofFailure basis e

/-- The check that an opened process is the listed one. -/
def openedAsListed (listed h : ListedProcess) : Except CallError Nat → HoldM Opened
  | .ok created =>
    if created = listed.created then readToken h .scanned else pure .noSuchProcess
  | .error e => Opened.ofFailure .scanned e

/-- `open_listed_process`. -/
def openListedProcess (listed : ListedProcess) : HoldM Opened := do
  let opened : Except CallError ListedProcess ← ask (StopOp.openProcess listed.pid)
  match opened with
  | .ok h => do
    let created ← ask (.processTimes h)
    openedAsListed listed h created
  | .error e => Opened.ofFailure .scanned e

/-! ### Scans -/

/-- `ScanResult`. -/
structure ScanResult where
  alive : List (Nat × ListedProcess)
  /-- The processes whose probe no row of the table decides, with the code. -/
  undetermined : List (Nat × Option Nat)
  vanished : List ListedProcess
  unprobeable : List ListedProcess

/-- `ScanResult::gone_at_probe`. -/
def ScanResult.goneAtProbe (r : ScanResult) (p : ListedProcess) (before : List ListedProcess) :
    ScanResult :=
  { r with
    unprobeable := r.unprobeable ++ [p]
    vanished := if p ∈ before then r.vanished else r.vanished ++ [p] }

/-- `ScanFinding`. -/
inductive ScanFinding
  | nothing
  | alive
  | vanished

/-- `ScanFinding::ends_the_wait`. -/
def ScanFinding.endsTheWait : ScanFinding → Bool
  | nothing => true
  | alive => false
  | vanished => false

/-- `ScanResult::finding`. -/
def ScanResult.finding (r : ScanResult) : ScanFinding :=
  if !r.alive.isEmpty then .alive
  else if !r.vanished.isEmpty then .vanished
  else .nothing

/-- What a scan makes of one probe. -/
def scanOpened (before : List ListedProcess) (r : ScanResult) (listed : ListedProcess) :
    Opened → HoldM ScanResult
  | .noSuchProcess => pure (r.goneAtProbe listed before)
  | .notTheService => pure r
  | .service h => do
    let exited ← hasExited h
    pure (if exited then r.goneAtProbe listed before
      else { r with alive := r.alive ++ [(listed.pid, h)] })
  | .undetermined code => pure { r with undetermined := r.undetermined ++ [(listed.pid, code)] }

/-- One round of a scan, by the process with id `this`. -/
def scanOne (this : Nat) (before : List ListedProcess) (r : ScanResult) (listed : ListedProcess) :
    HoldM ScanResult :=
  if listed.pid = this then pure r
  else do
    let opened ← openListedProcess listed
    scanOpened before r listed opened

/-- `scan`. -/
def scan (this : Nat) (before : List ListedProcess) : HoldM ScanResult := do
  let listing ← ask .list
  let listing ← orFail listing
  listing.foldlM (scanOne this before) ⟨[], [], [], []⟩

/-! ### Holds -/

/-- `Origin`: how a held process came to be held. -/
inductive Origin
  | named
  | claimed
  | scanned

/-- `Origin::first_held_on`; `none` where the source calls it unreachable. -/
def Origin.firstHeldOn : ReportedPid → Option Origin
  | .valid => some named
  | .mayBeInvalid => some claimed
  | .never => none

/-- `Origin::after_claim`. -/
def Origin.afterClaim (o : Origin) (claim : ReportedPid) : Origin :=
  match o with
  | named => named
  | claimed => if claim.isAClaimAboutTheService then named else claimed
  | scanned => if claim.isAClaimAboutTheService then named else scanned

/-- `Origin::is_terminated_at_stopped`. -/
def Origin.isTerminatedAtStopped : Origin → Bool
  | named => false
  | claimed => true
  | scanned => true

/-- `Held`. -/
structure Held where
  pid : Nat
  process : ListedProcess
  origin : Origin

/-- `ProcessHolds`. -/
structure ProcessHolds where
  held : List Held
  vanished : List ListedProcess

/-- The hold of a process id. -/
def ProcessHolds.find (holds : ProcessHolds) (pid : Nat) : Option Held :=
  holds.held.find? fun held ↦ held.pid == pid

/-- The first hold of `pid`, once the SCM names it again. -/
def reclaim (pid : Nat) (claim : ReportedPid) : List Held → List Held
  | [] => []
  | held :: rest =>
    if held.pid = pid then { held with origin := held.origin.afterClaim claim } :: rest
    else held :: reclaim pid claim rest

/-- `ProcessHolds::orphans`. -/
def ProcessHolds.orphans (holds : ProcessHolds) : List (Nat × ListedProcess) :=
  (holds.held.filter (·.origin.isTerminatedAtStopped)).map fun held ↦ (held.pid, held.process)

/-- `ProcessHolds::adopt`. -/
def ProcessHolds.adopt (holds : ProcessHolds) (found : Nat × ListedProcess) : ProcessHolds :=
  if holds.held.all fun held ↦ held.pid != found.1 then
    { holds with held := holds.held ++ [⟨found.1, found.2, .scanned⟩] }
  else holds

/-- `Named`: what the process that a look names came to. -/
inductive Named
  | nothing
  | held
  | noSuchProcess
  | notTheService

/-- `Hold`. -/
structure Hold where
  reading : Reading
  named : Named

/-- One query of the service. -/
def readService : HoldM Reading := do
  let reading ← ask .read
  orFail reading

/-- What becomes of an opened candidate that a second look confirms. -/
def holdConfirmed (holds : ProcessHolds) (pid : Nat) (reading again : Reading) :
    Option ListedProcess → HoldM (Hold × ProcessHolds)
  | none => pure (⟨again, .notTheService⟩, holds)
  | some h =>
    match Origin.firstHeldOn reading.observed.reportedPid with
    | none => throw .panicked
    | some origin =>
      let held := ⟨pid, h, origin.afterClaim again.observed.reportedPid⟩
      pure (⟨again, .held⟩, { holds with held := holds.held ++ [held] })

/-- The second look: the open is acted on only if it names the same id, and is else acted on as a
first look by `follow`. -/
def confirm (follow : Reading → HoldM (Hold × ProcessHolds)) (holds : ProcessHolds) (pid : Nat)
    (reading : Reading) (candidate : Option ListedProcess) : HoldM (Hold × ProcessHolds) := do
  let again ← readService
  if again.processToHold = some pid then holdConfirmed holds pid reading again candidate
  else follow again

/-- The loop of `ProcessHolds::hold_current`. -/
def holdFrom : Nat → ProcessHolds → Reading → HoldM (Hold × ProcessHolds)
  | 0, _, _ => throw .unfinished
  | fuel + 1, holds, reading =>
    match reading.processToHold with
    | none => pure (⟨reading, .nothing⟩, holds)
    | some pid =>
      match holds.find pid with
      | some _ =>
        pure (⟨reading, .held⟩,
          { holds with held := reclaim pid reading.observed.reportedPid holds.held })
      | none => do
        let opened ← openProcess pid (.named reading.observed.reportedPid)
        match opened with
        | .noSuchProcess => pure (⟨reading, .noSuchProcess⟩, holds)
        | .undetermined _ => throw .panicked
        | .notTheService => confirm (holdFrom fuel holds) holds pid reading none
        | .service h => confirm (holdFrom fuel holds) holds pid reading (some h)

/-- `ProcessHolds::hold_current`. -/
def holdCurrent (fuel : Nat) (holds : ProcessHolds) : HoldM (Hold × ProcessHolds) := do
  let reading ← readService
  holdFrom fuel holds reading

/-- `ProcessFate`. -/
inductive ProcessFate
  | unheld
  | alive
  | exited

/-- `Look`. -/
structure Look where
  observed : Observed
  fate : ProcessFate
  heldAlive : Bool
  everHeld : Bool

/-- `Named::fate`, with the read of the held process that `ProcessHolds::look` gives it. -/
def fate (holds : ProcessHolds) (hold : Hold) : HoldM ProcessFate :=
  match hold.named with
  | .nothing => pure .unheld
  | .notTheService => pure .unheld
  | .noSuchProcess =>
    pure (if hold.reading.observed.reportedPid.goneIdIsAnExit then .exited else .unheld)
  | .held =>
    match hold.reading.processToHold.bind holds.find with
    | none => throw .panicked
    | some held => do
      let exited ← hasExited held.process
      pure (if !exited then .alive
        else if hold.reading.observed.reportedPid.goneIdIsAnExit then .exited
        else .unheld)

/-- `ProcessHolds::any_alive`. -/
def anyAlive : List Held → HoldM Bool
  | [] => pure false
  | held :: rest => do
    let exited ← hasExited held.process
    if exited then anyAlive rest else pure true

/-- `ProcessHolds::look`. -/
def look (fuel : Nat) (holds : ProcessHolds) : HoldM (Look × ProcessHolds) := do
  let (hold, holds) ← holdCurrent fuel holds
  let fate ← fate holds hold
  let heldAlive ← anyAlive holds.held
  pure (⟨hold.reading.observed, fate, heldAlive, !holds.held.isEmpty⟩, holds)

/-- `ProcessHolds::hold_scanned`. -/
def holdScanned (this : Nat) (holds : ProcessHolds) : HoldM (ScanFinding × ProcessHolds) := do
  let result ← scan this holds.vanished
  pure (result.finding,
    result.alive.foldl ProcessHolds.adopt { holds with vanished := result.unprobeable })

/-! ### Waiting the processes out -/

/-- `SCM_REQUERY_MILLIS`. -/
def scmRequeryMillis : Nat := 2000

/-- `ExitWait`. -/
inductive ExitWait
  | onTheirOwn
  | terminateOrphansThenWait

/-- `ExitWait::terminates_orphans`. -/
def ExitWait.terminatesOrphans : ExitWait → Bool
  | onTheirOwn => false
  | terminateOrphansThenWait => true

/-- `ExitWait::requery_millis`. -/
def ExitWait.requeryMillis : ExitWait → Option Nat
  | onTheirOwn => some scmRequeryMillis
  | terminateOrphansThenWait => none

/-- `terminate`: a failure counts only if the process has not exited by then. -/
def terminate (pid : Nat) (h : ListedProcess) : HoldM Unit := do
  let terminated : Except CallError Unit ← ask (StopOp.terminate pid)
  match terminated with
  | .ok () => pure ()
  | .error e => do
    let exited ← hasExited h
    if exited then pure () else throw (.error e)

/-- `terminate_live`. -/
def terminateLive : List (Nat × ListedProcess) → HoldM Unit
  | [] => pure ()
  | (pid, h) :: rest => do
    let exited ← hasExited h
    if exited then terminateLive rest
    else do
      terminate pid h
      terminateLive rest

/-- The orphans are ended only where the wait says so. -/
def terminateOrphans (holds : ProcessHolds) (wait : ExitWait) : HoldM Unit :=
  if wait.terminatesOrphans then terminateLive holds.orphans else pure ()

/-- `await_exits`. -/
def awaitExits (holds : ProcessHolds) (wait : ExitWait) : HoldM Unit := do
  terminateOrphans holds wait
  let waited ← ask (.waitOnEach (holds.held.map (·.process)) wait.requeryMillis)
  orFail waited

end Hole.Service
