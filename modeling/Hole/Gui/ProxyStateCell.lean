import Hole.FailClosed.Cover
import Mathlib.Data.List.Basic

/-!
# The cell of the proxy's state

`ProxyStateCell` of `crates/hole/src/state.rs`, and what an exchange with the bridge makes of it.
`published` is all that the channel has held: each watcher may see any of it, at any time.

The commits differ in what they compare and what they keep. What the rest rests on is the same of
all of them (`Advances`): a commit leaves the cell alone, or publishes a snapshot with the next
`seq`.
-/

namespace Hole.Gui

open FailClosed

/-- `ProxySnapshot`. -/
structure ProxySnapshot where
  seq : Nat
  running : Bool
  error : Option String
  lockdownEnabled : Bool
  coverPresence : CoverPresence
  blockedUntilConnected : Bool
  deriving DecidableEq

/-- `ProxyStateCell`. -/
structure ProxyStateCell where
  snap : ProxySnapshot
  /-- The snapshots that the channel has held, the last first. -/
  published : List ProxySnapshot

/-- What a Status says of the lockdown. -/
structure Lockdown where
  enabled : Bool
  coverPresence : CoverPresence
  blocked : Bool

namespace ProxyStateCell

variable (cell : ProxyStateCell)

/-- `ProxyStateCell::new`. -/
def new : ProxyStateCell :=
  let snap : ProxySnapshot :=
    { seq := 0
      running := false
      error := none
      lockdownEnabled := false
      coverPresence := .absent
      blockedUntilConnected := false }
  ⟨snap, [snap]⟩

/-- `send_if_modified`, of a snapshot that was modified. -/
def send (snap : ProxySnapshot) : ProxyStateCell := ⟨snap, snap :: cell.published⟩

/-- `commit`. -/
def commit (running : Bool) : ProxyStateCell :=
  if cell.snap.running = running ∧ ¬cell.snap.blockedUntilConnected then cell
  else
    cell.send
      { cell.snap with
        seq := cell.snap.seq + 1
        running := running
        error := none
        blockedUntilConnected := false }

/-- `commit_status`. -/
def commitStatus (running : Bool) (error : Option String) (l : Lockdown) : ProxyStateCell :=
  if cell.snap.running = running ∧ cell.snap.lockdownEnabled = l.enabled ∧
      cell.snap.coverPresence = l.coverPresence ∧ cell.snap.blockedUntilConnected = l.blocked then
    cell
  else
    cell.send
      { seq := cell.snap.seq + 1
        running := running
        error := error
        lockdownEnabled := l.enabled
        coverPresence := l.coverPresence
        blockedUntilConnected := l.blocked }

/-- `commit_update_failed`. -/
def commitUpdateFailed (reason : String) (lockdown : Option Lockdown) : ProxyStateCell :=
  let l := lockdown.getD
    ⟨cell.snap.lockdownEnabled, cell.snap.coverPresence, cell.snap.blockedUntilConnected⟩
  if cell.snap.running = false ∧ cell.snap.error = some reason ∧
      cell.snap.lockdownEnabled = l.enabled ∧ cell.snap.coverPresence = l.coverPresence ∧
      cell.snap.blockedUntilConnected = l.blocked then cell
  else
    cell.send
      { seq := cell.snap.seq + 1
        running := false
        error := some reason
        lockdownEnabled := l.enabled
        coverPresence := l.coverPresence
        blockedUntilConnected := l.blocked }

/-- `clear_update_failed`. -/
def clearUpdateFailed (reason : String) : ProxyStateCell :=
  if cell.snap.error ≠ some reason then cell
  else cell.send { cell.snap with seq := cell.snap.seq + 1, error := none }

end ProxyStateCell

/-! ### Exchanges -/

/-- `StartError`. -/
inductive StartError
  | cancelled
  | alreadyRunning
  | networkBlocked
  | failed (message : String)

/-- The replies of the bridge that the state of the proxy is read from. -/
inductive BridgeResponse
  | ack
  | error (message : String)
  | startFailed (e : StartError)
  | status (running : Bool) (error : Option String) (lockdown : Lockdown)
  | other

/-- `ClientError`; `other` has what it is displayed as. -/
inductive ClientError
  | permissionDenied
  | versionMismatch
  | concurrentStart
  | other (display : String)

/-- `Display`. -/
def ClientError.display : ClientError → String
  | .permissionDenied =>
    "permission denied: insufficient privileges to connect to the Hole bridge"
  | .versionMismatch => "version mismatch: the Hole bridge is a different version"
  | .concurrentStart => "a start is already in progress"
  | .other display => display

/-- `CutoverDecision`. -/
inductive CutoverDecision
  | passThrough
  | mask
  | unmaskFailed
  deriving DecidableEq

/-- `ReqKind`. -/
inductive ReqKind
  | status
  | start
  | stop
  | other

/-- `observed_running`. -/
def observedRunning (kind : ReqKind) (result : Except ClientError BridgeResponse)
    (updateInProgress : Bool) : Option Bool :=
  match kind, result with
  | .other, _ => none
  | _, .error .permissionDenied => none
  | _, .error .versionMismatch => none
  | _, .error .concurrentStart => none
  | _, .error (.other _) => if updateInProgress then none else some false
  | .status, .ok (.status running _ _) =>
    if running = false ∧ updateInProgress then none else some running
  | .start, .ok .ack => some true
  | .start, .ok (.startFailed e) =>
    match e with
    | .cancelled | .networkBlocked | .failed _ => some false
    | .alreadyRunning => some true
  | .stop, .ok .ack => some false
  | .stop, .ok (.error _) => none
  | _, .ok _ => none

/-- `observed_error`. -/
def observedError : Except ClientError BridgeResponse → Option String
  | .ok (.status _ error _) => error
  | _ => none

/-- `observed_lockdown`. -/
def observedLockdown : Except ClientError BridgeResponse → Option Lockdown
  | .ok (.status _ _ lockdown) => some lockdown
  | _ => none

/-- `UPDATE_FAILED`. -/
def updateFailed : String := "The update didn't finish and the connection was lost."

/-- What an exchange brings: the reply, the decision on a cutover, and whether its marker is there
at the commit. -/
structure Report where
  result : Except ClientError BridgeResponse
  decision : CutoverDecision
  markerPresent : Bool

namespace ProxyStateCell

variable (cell : ProxyStateCell)

/-- `commit_observation`. -/
def commitObservation (running : Bool) (r : Report) : ProxyStateCell :=
  if running = false ∧ r.decision = .unmaskFailed ∧ r.markerPresent then
    cell.commitUpdateFailed updateFailed (observedLockdown r.result)
  else
    match observedLockdown r.result with
    | some l =>
      (cell.clearUpdateFailed updateFailed).commitStatus running (observedError r.result) l
    | none => (cell.clearUpdateFailed updateFailed).commit running

/-- `BridgeLink::send`, once the bridge has answered. -/
def exchange (kind : ReqKind) (r : Report) : ProxyStateCell :=
  match observedRunning kind r.result (r.decision = .mask) with
  | some running => cell.commitObservation running r
  | none => cell

/-! ### What a commit does -/

/-- Snapshots are published, each with the next `seq`. -/
inductive Advances (cell : ProxyStateCell) : ProxyStateCell → Prop
  | refl : Advances cell cell
  | send {c : ProxyStateCell} (h : Advances cell c) (snap : ProxySnapshot)
      (hseq : snap.seq = c.snap.seq + 1) : Advances cell (c.send snap)

variable {cell} {c c' : ProxyStateCell}

theorem Advances.trans (h : Advances cell c) (h' : Advances c c') : Advances cell c' := by
  induction h' with
  | refl => exact h
  | send _ snap hseq ih => exact ih.send snap hseq

theorem advances_commit (running : Bool) : Advances cell (cell.commit running) := by
  rw [commit]
  split
  · exact .refl
  · exact Advances.refl.send _ rfl

theorem advances_commitStatus (running : Bool) (error : Option String) (l : Lockdown) :
    Advances cell (cell.commitStatus running error l) := by
  rw [commitStatus]
  split
  · exact .refl
  · exact Advances.refl.send _ rfl

theorem advances_commitUpdateFailed (reason : String) (lockdown : Option Lockdown) :
    Advances cell (cell.commitUpdateFailed reason lockdown) := by
  rw [commitUpdateFailed]
  split
  · exact .refl
  · exact Advances.refl.send _ rfl

theorem advances_clearUpdateFailed (reason : String) :
    Advances cell (cell.clearUpdateFailed reason) := by
  rw [clearUpdateFailed]
  split
  · exact .refl
  · exact Advances.refl.send _ rfl

theorem advances_exchange (kind : ReqKind) (r : Report) : Advances cell (cell.exchange kind r) := by
  rw [exchange]
  split
  · rw [commitObservation]
    split
    · exact advances_commitUpdateFailed _ _
    · split
      · exact (advances_clearUpdateFailed _).trans (advances_commitStatus _ _ _)
      · exact (advances_clearUpdateFailed _).trans (advances_commit _)
  · exact .refl

theorem Advances.seq_le (h : Advances cell c) : cell.snap.seq ≤ c.snap.seq := by
  induction h with
  | refl => exact Nat.le_refl _
  | send _ snap hseq ih =>
    change cell.snap.seq ≤ snap.seq
    omega

/-- The proxy's state does not change unless the `seq` does. -/
theorem Advances.seq_lt (h : Advances cell c) (hne : c.snap.running ≠ cell.snap.running) :
    cell.snap.seq < c.snap.seq := by
  cases h with
  | refl => exact absurd rfl hne
  | send h snap hseq =>
    have hle := h.seq_le
    change cell.snap.seq < snap.seq
    omega

theorem Advances.published (h : Advances cell c) {s : ProxySnapshot} (hs : s ∈ cell.published) :
    s ∈ c.published := by
  induction h with
  | refl => exact hs
  | send _ snap _ ih => exact .tail _ ih

/-- The snapshots are in the order of their `seq`s, and the cell's is the last. -/
structure Ordered (cell : ProxyStateCell) : Prop where
  last : cell.snap ∈ cell.published
  le : ∀ s ∈ cell.published, s.seq ≤ cell.snap.seq
  inj : ∀ s ∈ cell.published, ∀ s' ∈ cell.published, s.seq = s'.seq → s = s'

theorem ordered_new : Ordered new where
  last := .head _
  le s hs := by
    rw [List.mem_singleton.1 hs]
    exact Nat.le_refl _
  inj s hs s' hs' _ := by rw [List.mem_singleton.1 hs, List.mem_singleton.1 hs']

theorem Ordered.advances (o : Ordered cell) (h : Advances cell c) : Ordered c := by
  induction h with
  | refl => exact o
  | @send c _ snap hseq ih =>
    have hlt {s : ProxySnapshot} (hs : s ∈ c.published) : s.seq < snap.seq := by
      have hle := ih.le s hs
      omega
    constructor
    case last => exact .head _
    case le =>
      intro s hs
      rcases List.mem_cons.1 hs with rfl | hs
      · exact Nat.le_refl _
      · exact Nat.le_of_lt (hlt hs)
    case inj =>
      intro s hs s' hs' heq
      rcases List.mem_cons.1 hs with rfl | hold
      · rcases List.mem_cons.1 hs' with rfl | hold'
        · rfl
        · exact absurd heq.symm (Nat.ne_of_lt (hlt hold'))
      · rcases List.mem_cons.1 hs' with rfl | hold'
        · exact absurd heq (Nat.ne_of_lt (hlt hold))
        · exact ih.inj s hold s' hold' heq

/-- What was observed is what the cell says. -/
theorem running_commitObservation (running : Bool) (r : Report) :
    (cell.commitObservation running r).snap.running = running := by
  rw [commitObservation]
  split
  · next hfailed =>
    rw [commitUpdateFailed, hfailed.1]
    split
    · next hsame => exact hsame.1
    · rfl
  · split
    · rw [commitStatus]
      split
      · next hsame => exact hsame.1
      · rfl
    · rw [commit]
      split
      · next hsame => exact hsame.1
      · rfl

end ProxyStateCell

end Hole.Gui
