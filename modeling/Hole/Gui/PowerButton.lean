import Hole.Gui.ProxyStateCell
import Mathlib.Logic.Function.Basic
import Mathlib.Order.Basic

/-!
# The power button

`ui/power-button.ts` and `ui/toggle-flow.ts` against the backend's `set_proxy_enabled_inner`
(`crates/hole/src/tray.rs`). A click that leaves an idle state mints an operation and asks the
backend; the reply comes at some time or never. A later operation supersedes it. Meanwhile anyone's
exchange with the bridge may commit to the cell, and any snapshot that it published may be observed.

Each state leans to a side, which is that of the idle states that it was left from. While the button
leans to the other side than the cell's, the cell is ahead of what was applied (`Inv.leaning`): an
observation is applied in an idle state only, and a transition keeps its side until a reply comes
that the cell has agreed with since the click. The cancel's own call, the attempt id and what is
done about the public IP change nothing here.
-/

namespace Hole.Gui

/-! ### States -/

/-- `ConnectionState`. -/
inductive ConnectionState
  | disconnected
  | connecting
  | cancelling
  | connected
  | disconnecting
  | connectionFailed
  | disconnectionFailed
  deriving DecidableEq

/-- `ToggleOutcome`. -/
inductive ToggleOutcome
  | running
  | stopped
  | cancelled
  deriving DecidableEq

namespace ConnectionState

/-- `IDLE_STATES`. -/
def idleStates : List ConnectionState :=
  [.disconnected, .connected, .connectionFailed, .disconnectionFailed]

/-- `isEffectivelyOn`. -/
def isEffectivelyOn (state : ConnectionState) : Bool :=
  state = .connected || state = .disconnectionFailed

/-- `stateForToggleOutcome`. -/
def forToggleOutcome : ToggleOutcome → ConnectionState
  | .running => .connected
  | .stopped => .disconnected
  | .cancelled => .disconnected

/-- `stateForPolledRunning`. -/
def forPolledRunning (running : Bool) : ConnectionState :=
  if running then .connected else .disconnected

/-- The side of the idle states that this one was left from. -/
def leansOn : ConnectionState → Bool
  | .connected | .disconnectionFailed | .disconnecting => true
  | .disconnected | .connectionFailed | .connecting | .cancelling => false

end ConnectionState

/-! ### The backend's replies -/

/-- `StartDecision`. -/
inductive StartDecision
  | outcome (o : ToggleOutcome)
  | needsElevation
  | fail (message : String)

/-- `bridge_error_toast`. -/
def bridgeErrorToast (message : String) : String := "Bridge error: " ++ message

/-- `CONCURRENT_START_MESSAGE`. -/
def concurrentStartMessage : String := "Another start is already in progress."

/-- `NETWORK_BLOCKED_MESSAGE`. -/
def networkBlockedMessage : String :=
  "The network is blocking the connection to this server — the handshake was reset or got no " ++
    "response. This usually means a firewall or censorship; try a different server."

/-- `start_error_toast`. -/
def startErrorToast : StartError → String
  | .networkBlocked => networkBlockedMessage
  | .failed message => bridgeErrorToast message
  | .cancelled | .alreadyRunning => bridgeErrorToast "unexpected start outcome"

/-- `external_bridge_denied_toast`. -/
def externalBridgeDeniedToast : String :=
  "Permission denied by the bridge. Hole does not elevate an externally-supervised bridge " ++
    "(HOLE_BRIDGE_SOCKET); ensure your user was granted access to its socket. See gui.log for " ++
    "details."

/-- `outcome_for_start_response`. -/
def outcomeForStartResponse : Except ClientError BridgeResponse → StartDecision
  | .ok .ack => .outcome .running
  | .ok (.startFailed .cancelled) => .outcome .cancelled
  | .ok (.startFailed .alreadyRunning) => .outcome .running
  | .ok (.startFailed e) => .fail (startErrorToast e)
  | .ok _ => .fail "Unexpected response from bridge"
  | .error .permissionDenied => .needsElevation
  | .error .concurrentStart => .fail concurrentStartMessage
  | .error e => .fail ("Failed to connect to bridge: " ++ e.display)

/-- `outcome_for_stop_response`. -/
def outcomeForStopResponse : Except ClientError BridgeResponse → StartDecision
  | .ok .ack => .outcome .stopped
  | .ok (.error message) => .fail (bridgeErrorToast message)
  | .ok _ => .fail "Unexpected response from bridge"
  | .error .permissionDenied => .needsElevation
  | .error e => .fail ("Failed to connect to bridge: " ++ e.display)

/-- `ElevationResult`. -/
inductive ElevationResult
  | success
  | startFailed (e : StartError)
  | concurrentStart
  | bridgeError (message : String)
  | transport (detail : String)
  | cancelled
  | launchFailure

/-- How far the backend is with a call. -/
inductive Stage
  | asked
  | elevating
  /-- It failed, and a Status is asked for before the error is returned. -/
  | failing (message : String)
  | answered (result : Except String ToggleOutcome)

/-- What is made of the reply to a start or stop, with `decide_elevation` for a click. -/
def Stage.ofDecision (externallySupervised : Bool) : StartDecision → Stage
  | .outcome o => .answered (.ok o)
  | .needsElevation =>
    if externallySupervised then .failing externalBridgeDeniedToast else .elevating
  | .fail message => .failing message

/-- `elevate_and_confirm`, where `cell` is what the Status after a success leaves. -/
def Stage.ofElevation (cell : ProxyStateCell) : ElevationResult → Stage
  | .success => .answered (.ok (if cell.snap.running then .running else .stopped))
  | .startFailed e => .failing (startErrorToast e)
  | .concurrentStart => .failing concurrentStartMessage
  | .bridgeError message => .failing (bridgeErrorToast message)
  | .transport detail =>
    .failing ("Could not reach the Hole bridge after elevation. " ++ detail ++
      " See gui.log for details.")
  | .cancelled => .failing "Elevation was cancelled."
  | .launchFailure =>
    .failing "The elevated helper could not start. See gui.log for details."

/-! ### The button -/

/-- What an operation awaits. -/
inductive Awaits
  /-- `start_proxy` or `stop_proxy`. -/
  | toggle (goingToConnect : Bool)
  /-- The `stop_proxy` after a cancel that lost the race. -/
  | followUp
  /-- `mark_validated_by_proxy_start`. -/
  | mark

/-- A call that has not returned. -/
structure Call where
  awaits : Awaits
  stage : Stage

/-- What is shown. A death is shown with its reason, which is of the snapshot with that `seq`. -/
inductive Toast
  | death (seq : Nat) (reason : String)
  | message (text : String)

/-- The variables of `power-button.ts`, and the calls of the operations. -/
structure PowerButton where
  currentState : ConnectionState
  /-- Of `operations`. -/
  generation : Nat
  lastAppliedSeq : Int
  toasts : List Toast
  calls : Nat → Option Call

namespace PowerButton

variable (b : PowerButton)

def new : PowerButton where
  currentState := .disconnected
  generation := 0
  lastAppliedSeq := -1
  toasts := []
  calls _ := none

def setState (state : ConnectionState) : PowerButton := { b with currentState := state }

def showToast (t : Toast) : PowerButton := { b with toasts := b.toasts ++ [t] }

/-- `operations.begin`. -/
def begin : PowerButton := { b with generation := b.generation + 1 }

/-- `settle`, of the operation `op`. -/
def settle (op : Nat) (write : PowerButton → PowerButton) : PowerButton :=
  if op = b.generation then write b else b

/-- `invoke`, by the operation `op`. -/
def invoke (op : Nat) (awaits : Awaits) : PowerButton :=
  { b with calls := Function.update b.calls op (some ⟨awaits, .asked⟩) }

/-- `toggleFromIdle`, up to its first await. -/
def toggleFromIdle (goingToConnect : Bool) : PowerButton :=
  let b := b.begin
  let op := b.generation
  let b := b.settle op fun b ↦ b.setState (if goingToConnect then .connecting else .disconnecting)
  b.invoke op (.toggle goingToConnect)

/-- `handlePowerClick`. -/
def handlePowerClick : PowerButton :=
  match b.currentState with
  | .connecting => b.setState .cancelling
  | .cancelling =>
    (b.begin.setState .connectionFailed).showToast
      (.message "Cancelling is taking too long. The connection may still come up — try again.")
  | .disconnecting =>
    (b.begin.setState .disconnectionFailed).showToast
      (.message "Disconnecting is taking too long. The proxy may still be active — try again.")
  | state => b.toggleFromIdle (!state.isEffectivelyOn)

/-- The rest of `toggleFromIdle` once what it awaits is there. `selected` is whether the
configuration has a selected server. -/
def resume (op : Nat) (selected : Bool) (awaits : Awaits)
    (result : Except String ToggleOutcome) : PowerButton :=
  match awaits, result with
  | .toggle goingToConnect, .error message =>
    b.settle op fun b ↦ (b.showToast (.message message)).setState
      (if goingToConnect then .connectionFailed else .disconnectionFailed)
  | .toggle goingToConnect, .ok outcome =>
    if op = b.generation ∧ b.currentState = .cancelling ∧ outcome = .running then
      let b := b.begin
      let stopOp := b.generation
      let b := b.settle stopOp fun b ↦ b.setState .disconnecting
      b.invoke stopOp .followUp
    else
      let b := b.settle op fun b ↦ b.setState (.forToggleOutcome outcome)
      if goingToConnect = true ∧ outcome = .running ∧ selected = true ∧ op = b.generation then
        b.invoke op .mark
      else b
  | .followUp, .ok outcome => b.settle op fun b ↦ b.setState (.forToggleOutcome outcome)
  | .followUp, .error message =>
    b.settle op fun b ↦ (b.showToast (.message message)).setState .disconnectionFailed
  | .mark, .ok _ => b
  | .mark, .error message =>
    b.settle op fun b ↦ b.showToast
      (.message ("Connected, but couldn't record server validation: " ++ message))

/-- A call returns to the operation `op`. -/
def deliver (op : Nat) (selected : Bool) : PowerButton :=
  match b.calls op with
  | some ⟨awaits, .answered result⟩ =>
    { b with calls := Function.update b.calls op none }.resume op selected awaits result
  | _ => b

/-- `applyProxyStateObservation`. -/
def applyProxyStateObservation (seq : Nat) (running : Bool) (error : Option String) : PowerButton :=
  if seq ≤ b.lastAppliedSeq then b
  else if b.currentState ∉ ConnectionState.idleStates then b
  else
    let prior := b.currentState
    let polled := ConnectionState.forPolledRunning running
    let b := { b with lastAppliedSeq := seq }
    if polled = prior then b
    else
      let b := b.setState polled
      match error with
      | some reason =>
        if polled = .disconnected ∧ prior.isEffectivelyOn then b.showToast
          (.death seq reason) else b
      | none => b

end PowerButton

/-! ### The system -/

/-- The button and the cell of the backend. -/
structure World where
  button : PowerButton
  cell : ProxyStateCell

/-- What happens. -/
inductive Event
  | click
  /-- Anyone's exchange with the bridge. -/
  | exchange (kind : ReqKind) (r : Report)
  /-- The exchange of an operation's start or stop. -/
  | reply (op : Nat) (r : Report) (externallySupervised : Bool)
  /-- The elevated helper has ended; on success a Status follows. -/
  | elevated (op : Nat) (result : ElevationResult) (r : Report)
  /-- The Status after a failure. -/
  | follow (op : Nat) (r : Report)
  /-- The call is refused before any exchange, or its transport fails. -/
  | refuse (op : Nat) (message : String)
  | marked (op : Nat) (result : Except String ToggleOutcome)
  | deliver (op : Nat) (selected : Bool)
  | observe (s : ProxySnapshot)

namespace World

variable (w : World)

def new : World := ⟨.new, .new⟩

/-- How far the backend is with the call of `op` changes. -/
def setStage (op : Nat) (awaits : Awaits) (stage : Stage) (cell : ProxyStateCell) : World where
  button := { w.button with calls := Function.update w.button.calls op (some ⟨awaits, stage⟩) }
  cell := cell

/-- What one event does. -/
def step : Event → World
  | .click => { w with button := w.button.handlePowerClick }
  | .exchange kind r => { w with cell := w.cell.exchange kind r }
  | .reply op r externallySupervised =>
    match w.button.calls op with
    | some ⟨.toggle true, .asked⟩ =>
      w.setStage op (.toggle true)
        (.ofDecision externallySupervised (outcomeForStartResponse r.result))
        (w.cell.exchange .start r)
    | some ⟨.toggle false, .asked⟩ =>
      w.setStage op (.toggle false)
        (.ofDecision externallySupervised (outcomeForStopResponse r.result))
        (w.cell.exchange .stop r)
    | some ⟨.followUp, .asked⟩ =>
      w.setStage op .followUp (.ofDecision externallySupervised (outcomeForStopResponse r.result))
        (w.cell.exchange .stop r)
    | _ => w
  | .elevated op result r =>
    match w.button.calls op with
    | some ⟨awaits, .elevating⟩ =>
      match result with
      | .success =>
        let cell := w.cell.exchange .status r
        w.setStage op awaits (.ofElevation cell .success) cell
      | result => w.setStage op awaits (.ofElevation w.cell result) w.cell
    | _ => w
  | .follow op r =>
    match w.button.calls op with
    | some ⟨awaits, .failing message⟩ =>
      w.setStage op awaits (.answered (.error message)) (w.cell.exchange .status r)
    | _ => w
  | .refuse op message =>
    match w.button.calls op with
    | some ⟨awaits, .asked⟩ => w.setStage op awaits (.answered (.error message)) w.cell
    | _ => w
  | .marked op result =>
    match w.button.calls op with
    | some ⟨.mark, .asked⟩ => w.setStage op .mark (.answered result) w.cell
    | _ => w
  | .deliver op selected => { w with button := w.button.deliver op selected }
  | .observe s =>
    if s ∈ w.cell.published then
      { w with button := w.button.applyProxyStateObservation s.seq s.running s.error }
    else w

/-- What a run of events does. -/
def run (events : List Event) : World := events.foldl step w

end World

end Hole.Gui
