import Hole.Effect.Machine

/-!
# Retiring, repairing and enabling the service

The operations of `bridge/src/service_scm/retire.rs` and `repair.rs` and the Windows half of
`run_cutover`, over the SCM as they see it: a start type, the restart-on-failure setting, and the
**record** that says a disable is ours. Each is a program over single session calls, any of which
may fail; a call that fails changes nothing. Stopping the service is one call here, since the stop
wait touches none of the three.

The decisions (`Hardening.plan`, `Hardening.restored`, `RepairStep.of`) are the source's tables, arm
for arm. A record that cannot be read counts as present.
-/

namespace Hole.Service

open Effect

/-! ### Start types and records -/

/-- `StartType`. -/
inductive StartType
  | auto
  | demand
  | disabled
  /-- A boot or system start. -/
  | other
  deriving DecidableEq

/-- `StartWrite`: a start type that is written. -/
inductive StartWrite
  | auto
  | demand
  | disabled
  deriving DecidableEq

/-- The start type that a write leaves. -/
def StartWrite.startType : StartWrite → StartType
  | auto => .auto
  | demand => .demand
  | disabled => .disabled

/-- `RecordState`. -/
inductive RecordState
  | absent
  | present
  deriving DecidableEq

/-- `FailureActions`. -/
inductive FailureActions
  | none
  | restart

/-- `Disposition`. -/
inductive Disposition
  | stopOnly
  | deregister

/-- `Hardening`. -/
structure Hardening where
  observed : StartType
  /-- Whether the disable is the retirement's own. -/
  ours : Bool

/-- `Hardening::restored`. -/
def Hardening.restored (h : Hardening) : StartWrite :=
  match h.observed, h.ours with
  | .auto, true => .auto
  | .auto, false => .auto
  | .demand, true => .demand
  | .demand, false => .demand
  | .disabled, true => .auto
  | .disabled, false => .disabled
  | .other, true => .auto
  | .other, false => .auto

/-- `RecordWrite`. -/
inductive RecordWrite
  | none
  | make
  | restamp

/-- `RecordWrite::over`. -/
def RecordWrite.over : RecordState → RecordWrite
  | .absent => make
  | .present => restamp

/-- `RecordWrite::writes`. -/
def RecordWrite.writes : RecordWrite → Bool
  | none => false
  | make => true
  | restamp => true

/-- `RecordWrite::clears_on_failure`. -/
def RecordWrite.clearsOnFailure : RecordWrite → Bool
  | none => false
  | make => true
  | restamp => false

/-- `Hardening::plan`: whose disable it is, and what becomes of the record. -/
def Hardening.plan (observed : StartType) (record : RecordState) : Hardening × RecordWrite :=
  match observed, record with
  | .auto, .absent => (⟨observed, true⟩, .make)
  | .auto, .present => (⟨observed, true⟩, .restamp)
  | .demand, .absent => (⟨observed, true⟩, .make)
  | .demand, .present => (⟨observed, true⟩, .restamp)
  | .disabled, .absent => (⟨observed, false⟩, .none)
  | .disabled, .present => (⟨observed, true⟩, .restamp)
  | .other, .absent => (⟨observed, true⟩, .make)
  | .other, .present => (⟨observed, true⟩, .restamp)

/-- `DisabledBy`. -/
inductive DisabledBy
  | interruptedChange
  | elsewhere

/-- `RepairStep`. -/
inductive RepairStep
  | nothing
  | clearRecordOnly
  | resetThenClear
  | leaveDisabled

/-- `RepairStep::of`. -/
def RepairStep.of (record : RecordState) (start : StartType) : RepairStep :=
  match record, start with
  | .present, .disabled => resetThenClear
  | .present, .auto => clearRecordOnly
  | .present, .demand => clearRecordOnly
  | .present, .other => clearRecordOnly
  | .absent, .disabled => leaveDisabled
  | .absent, .auto => nothing
  | .absent, .demand => nothing
  | .absent, .other => nothing

/-- `RepairStep::starts_service`. -/
def RepairStep.startsService : RepairStep → Bool
  | nothing => true
  | clearRecordOnly => true
  | resetThenClear => true
  | leaveDisabled => false

/-- `RepairStep::disabled_by`. -/
def RepairStep.disabledBy : RepairStep → Option DisabledBy
  | nothing => none
  | clearRecordOnly => none
  | resetThenClear => some .interruptedChange
  | leaveDisabled => some .elsewhere

/-! ### Errors -/

/-- What a call can fail with, as far as the operations tell. -/
inductive ScmError
  /-- `ERROR_SERVICE_MARKED_FOR_DELETE`. -/
  | marked
  /-- `ERROR_SERVICE_DOES_NOT_EXIST`. -/
  | doesNotExist
  | processOpenRefused
  | other
  deriving DecidableEq

/-- `ServiceGone`. -/
inductive ServiceGone
  | doesNotExist
  | markedForDeletion

/-- `service_gone`. -/
def ScmError.serviceGone : ScmError → Option ServiceGone
  | marked => some .markedForDeletion
  | doesNotExist => some .doesNotExist
  | processOpenRefused | other => none

/-- `ServiceGone::harden_goes_on_marked`. -/
def ServiceGone.hardenGoesOnMarked : ServiceGone → Bool
  | doesNotExist => false
  | markedForDeletion => true

/-- `ServiceGone::delete_is_done`. -/
def ServiceGone.deleteIsDone : ServiceGone → Bool
  | doesNotExist => false
  | markedForDeletion => true

/-- `answered_as_marked`. -/
def ScmError.answeredAsMarked (e : ScmError) : Bool := e.serviceGone.any (·.hardenGoesOnMarked)

/-- The steps of the stop wait, by which it fails. -/
inductive SettleFailure
  | observe
  | arm
  | stop
  | awaitChange
  | scan
  | awaitExit

/-- The steps of a retirement, by which it fails. -/
inductive RetireStep
  | record
  | harden
  | observe
  | stop
  | hold
  | delete
  | exit

/-- `RetireError`. -/
structure RetireError where
  step : RetireStep
  error : ScmError

/-- `RetireError::of_step`. -/
def RetireError.ofStep (step : RetireStep) (error : ScmError) : RetireError :=
  if error = .processOpenRefused then ⟨.hold, error⟩ else ⟨step, error⟩

/-- `From<SettleError>`. -/
def RetireError.ofSettle : SettleFailure → ScmError → RetireError
  | .observe, e => ofStep .observe e
  | .arm, e => ofStep .stop e
  | .stop, e => ofStep .stop e
  | .awaitChange, e => ofStep .stop e
  | .scan, e => ofStep .hold e
  | .awaitExit, e => ofStep .exit e

/-- `RepairError`. -/
inductive RepairError
  | startType (e : ScmError)
  | reset (e : ScmError)

/-! ### Calls -/

/-- The calls that change something and answer with nothing but success: those of the session, and
the two other steps of a cutover. -/
inductive Change
  | setStartType (write : StartWrite)
  | clearRecord
  | writeRecord
  | setFailureActions (actions : FailureActions)
  | swapImages
  | startService

/-- The calls. -/
inductive ScmOp
  | startType
  | recordState
  | settle
  | delete
  | change (w : Change)

/-- The answers. -/
@[reducible] def ScmOp.Ans : ScmOp → Type
  | startType => Except ScmError StartType
  | recordState => RecordState
  | settle => Except (SettleFailure × ScmError) Unit
  | delete => Except ScmError Unit
  | change _ => Except ScmError Unit

/-- Programs over a session. -/
abbrev ScmM := Prog ScmOp ScmOp.Ans

/-- One call. -/
abbrev perform (o : ScmOp) : ScmM o.Ans := Prog.perform o

/-- One call that changes something. -/
abbrev change (w : Change) : ScmM (Except ScmError Unit) := perform (.change w)

/-! ### Hardening -/

/-- `Hardened`. -/
inductive Hardened
  | disabled (hardening : Hardening)
  | marked

/-- `clear_record`: a failure is a warning. -/
def clearRecord : ScmM Unit := do
  let _ ← change .clearRecord
  pure ()

/-- The record is cleared only where this call made it. -/
def clearMade (made : Bool) : ScmM Unit := if made then clearRecord else pure ()

/-- A failed write of the start type. -/
def hardenFailed (write : RecordWrite) (e : ScmError) : ScmM (Except RetireError Hardened) := do
  clearMade write.clearsOnFailure
  pure (if e.answeredAsMarked then .ok .marked else .error ⟨.harden, e⟩)

/-- The disable itself. -/
def disable (hardening : Hardening) (write : RecordWrite) : ScmM (Except RetireError Hardened) := do
  let written ← change (.setStartType .disabled)
  match written with
  | .error e => hardenFailed write e
  | .ok () => do
    let _ ← change (.setFailureActions .none)
    pure (.ok (.disabled hardening))

/-- `harden`, once both facts are read: the record first, then the start type. -/
def hardenPlanned (hardening : Hardening) (write : RecordWrite) :
    ScmM (Except RetireError Hardened) := do
  if write.writes then do
    let recorded ← change .writeRecord
    match recorded with
    | .error e => pure (.error ⟨.record, e⟩)
    | .ok () => disable hardening write
  else disable hardening write

/-- `harden`. -/
def harden : ScmM (Except RetireError Hardened) := do
  let observed : Except ScmError StartType ← perform .startType
  match observed with
  | .error e => pure (if e.answeredAsMarked then .ok .marked else .error ⟨.harden, e⟩)
  | .ok observed => do
    let record : RecordState ← perform .recordState
    let (hardening, write) := Hardening.plan observed record
    hardenPlanned hardening write

/-- The start type of a `restore`, and then the record, which goes only once that is written. -/
def restoreStart (hardening : Hardening) : ScmM Unit := do
  let written ← change (.setStartType hardening.restored)
  match written with
  | .error _ => pure ()
  | .ok () => if hardening.ours then clearRecord else pure ()

/-- `restore`: the failure actions first, so that their failure leaves no service disabled. -/
def restore (hardening : Hardening) : ScmM Unit := do
  let _ ← change (.setFailureActions .restart)
  restoreStart hardening

/-- `restore_hardened`. -/
def restoreHardened : Hardened → ScmM Unit
  | .disabled hardening => restore hardening
  | .marked => pure ()

/-! ### Retirement -/

/-- `deleted`. -/
def deleted (hardening : Hardening) : ScmM Unit :=
  if hardening.ours then clearRecord else pure ()

/-- The delete of a retirement. -/
def deregister (hardening : Hardening) : ScmM (Except RetireError Unit) := do
  let answer : Except ScmError Unit ← perform .delete
  match answer with
  | .ok () => do
    deleted hardening
    pure (.ok ())
  | .error e =>
    if e.serviceGone.any (·.deleteIsDone) then do
      deleted hardening
      pure (.ok ())
    else do
      restore hardening
      pure (.error ⟨.delete, e⟩)

/-- `retire`, once hardened. -/
def retireHardened (hardening : Hardening) (disposition : Disposition) :
    ScmM (Except RetireError Unit) := do
  let settled : Except (SettleFailure × ScmError) Unit ← perform .settle
  match settled with
  | .error (step, e) => do
    restore hardening
    pure (.error (RetireError.ofSettle step e))
  | .ok () =>
    match disposition with
    | .stopOnly => do
      restore hardening
      pure (.ok ())
    | .deregister => deregister hardening

/-- The stop of a service that someone else's delete has marked. -/
def settleMarked : ScmM (Except RetireError Unit) := do
  let settled : Except (SettleFailure × ScmError) Unit ← perform .settle
  pure (match settled with
    | .error (step, e) => .error (RetireError.ofSettle step e)
    | .ok () => .ok ())

/-- `retire`. -/
def retire (disposition : Disposition) : ScmM (Except RetireError Unit) := do
  let hardened ← harden
  match hardened with
  | .error e => pure (.error e)
  | .ok .marked => settleMarked
  | .ok (.disabled hardening) => retireHardened hardening disposition

/-! ### Repair -/

/-- `observe`. -/
def observe : ScmM (Except ScmError RepairStep) := do
  let start : Except ScmError StartType ← perform .startType
  match start with
  | .error e => pure (.error e)
  | .ok start => do
    let record : RecordState ← perform .recordState
    pure (.ok (RepairStep.of record start))

/-- `stamp`. -/
def stamp : ScmM Bool := do
  let written ← change .writeRecord
  pure (match written with
    | .ok () => true
    | .error _ => false)

/-- The step of a repair. -/
def takeStep (step : RepairStep) : ScmM (Except RepairError RepairStep) :=
  match step with
  | .nothing => pure (.ok step)
  | .leaveDisabled => pure (.ok step)
  | .clearRecordOnly => do
    clearRecord
    pure (.ok step)
  | .resetThenClear => do
    let _ ← stamp
    let written ← change (.setStartType .auto)
    match written with
    | .error e => pure (.error (.reset e))
    | .ok () => do
      clearRecord
      pure (.ok step)

/-- `repair`. -/
def repair : ScmM (Except RepairError RepairStep) := do
  let step ← observe
  match step with
  | .error e => pure (.error (.startType e))
  | .ok step => takeStep step

/-- `enable`, over the record found. -/
def enableOver (record : RecordState) : ScmM (Except RepairError Unit) := do
  let stamped ← stamp
  let written ← change (.setStartType .auto)
  match written with
  | .error e => do
    clearMade (stamped && (RecordWrite.over record).clearsOnFailure)
    pure (.error (.reset e))
  | .ok () => do
    clearRecord
    pure (.ok ())

/-- `enable`. -/
def enable : ScmM (Except RepairError Unit) := do
  let record : RecordState ← perform .recordState
  enableOver record

/-! ### Cutover -/

/-- How a cutover ends. -/
inductive CutoverResult
  | started
  | leftDisabled
  | failed

/-- `run_cutover`, from its repair step on. -/
def cutoverStart : ScmM CutoverResult := do
  let repaired ← repair
  match repaired with
  | .error _ => pure .failed
  | .ok step =>
    if step.startsService then do
      let started ← change .startService
      pure (match started with
        | .ok () => .started
        | .error _ => .failed)
    else pure .leftDisabled

/-- The stop and the swap of a cutover: the swap only after a stop that succeeded. -/
def stopAndSwap : ScmM Bool := do
  let stopped : Except (SettleFailure × ScmError) Unit ← perform .settle
  match stopped with
  | .error _ => pure false
  | .ok () => do
    let swapped ← change .swapImages
    pure (match swapped with
      | .ok () => true
      | .error _ => false)

/-- `run_cutover` on Windows. -/
def cutover : ScmM CutoverResult := do
  let hardened ← harden
  match hardened with
  | .error _ => pure .failed
  | .ok hardened => do
    let swapped ← stopAndSwap
    restoreHardened hardened
    if swapped then cutoverStart else pure .failed

end Hole.Service
