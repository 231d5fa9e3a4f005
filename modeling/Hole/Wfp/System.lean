import Hole.Effect.Machine
import Hole.Wfp.Engine

/-!
# A host under the Windows covers

The filter store of the Base Filtering Engine as a map from keys to filters, with one working copy
while a transaction is open, and the boot-time record. Engages, guard drops, detaches, recoveries,
sweeps, reclaims and reboots come in any order, every call may return any code, and a crash may
come after any call.

Codes are **truthful**: a delete answers `ERROR_SUCCESS` exactly where it removed a filter and
`FWP_E_FILTER_NOT_FOUND` exactly where there is none, an add answers `FWP_E_ALREADY_EXISTS`
exactly where there is one, and every other code changes nothing. A reboot keeps the persistent
filters and may take any of the boot-time ones out of the store; the policy record behind them
stays, which is what `outstanding` remembers.

Filters of other software live under other keys, and no call of the covers names one.
-/

namespace Hole.Wfp

open Effect FailClosed

/-- The filter store. -/
abbrev Store := Guid → Option FwpmFilter

/-- A store without a filter. -/
def Store.empty : Store := fun _ ↦ none

/-- Set what a key holds. -/
def Store.set (s : Store) (g : Guid) (f : Option FwpmFilter) : Store :=
  fun k ↦ if k = g then f else s k

@[simp] theorem Store.set_self (s : Store) (g : Guid) (f : Option FwpmFilter) :
    s.set g f g = f := if_pos rfl

theorem Store.set_of_ne (s : Store) {g k : Guid} (f : Option FwpmFilter) (h : k ≠ g) :
    s.set g f k = s k := if_neg h

/-- How the host resolves a call. -/
inductive WfpChoice
  | ok
  | code (c : Code)
  | view (rs : List FilterRecord)
  | fail
  deriving DecidableEq

/-- What a call without an effect on filters returns. -/
def WfpChoice.toCode : WfpChoice → Code
  | code c => c
  | _ => errorSuccess

/-- A failure code of a call whose other answers are `truth`. -/
def WfpChoice.failure (c : WfpChoice) (benign : Code) : Option Code :=
  match c with
  | code n => if n = errorSuccess ∨ n = benign then none else some n
  | _ => none

/-- The host. The last five fields are ghosts. -/
structure World where
  store : Store
  txn : Option Store
  /-- The boot-time record: `none` without a file, else whether it says armed. -/
  record : Option Bool
  /-- The boot-time keys that were armed and that no sweep watched going since. -/
  outstanding : List Guid
  /-- Twins were armed and the record was not written yet. -/
  unrecorded : Bool
  /-- A write of the record failed, or a crash came in front of one. -/
  recordLost : Bool
  /-- The standing cover was committed, and no delete of a guard drop, a disengage or a release
  came since. -/
  standing : Bool
  stale : List Guid
  commits : Nat

namespace World

/-- What a call sees. -/
def view (w : World) : Store := w.txn.getD w.store

/-- Change what the calls see. -/
def setView (w : World) (s : Store) : World :=
  match w.txn with
  | some _ => { w with txn := some s }
  | none => { w with store := s }

end World

/-- What can be asked of the covers, and what can happen to the host. -/
inductive WfpAct
  | engage (serverIp : IpAddr) (resolverIp : Option IpAddr)
  | engageLockdown (serverIp : IpAddr) (tunLuid : BitVec 64) (appIds : List String)
  | dropCover (kind : CoverKind)
  | detach
  | recoverCover
  | disengageLockdown
  | releaseAll
  | reclaimStaleTunPermit (tunName : String)
  /-- A reboot, and the boot-time keys that no longer answer after it. -/
  | reboot (gone : List Guid)
  | crash

/-- Whether a removal by the act is a sweep's. -/
def WfpAct.sweeps : WfpAct → Bool
  | disengageLockdown => true
  | releaseAll => true
  | _ => false

/-- Whether the deletes of the act end the standing cover. -/
def WfpAct.releases : WfpAct → Bool
  | dropCover kind => kind = .lockdown
  | disengageLockdown => true
  | releaseAll => true
  | _ => false

/-- Whether a commit of the act arms the twins and puts the standing cover in force. -/
def WfpAct.arms : WfpAct → Bool
  | engageLockdown _ _ _ => true
  | _ => false

/-- The code of a delete. -/
def deleteCode (w : World) (g : Guid) (c : WfpChoice) : Code :=
  match c.failure fwpEFilterNotFound with
  | some n => n
  | none => if (w.view g).isSome then errorSuccess else fwpEFilterNotFound

/-- The code of an add. -/
def addCode (w : World) (f : FwpmFilter) (c : WfpChoice) : Code :=
  match c.failure fwpEAlreadyExists with
  | some n => n
  | none => if (w.view f.filterKey).isSome then fwpEAlreadyExists else errorSuccess

/-- The boot-time filters of a layer that the store holds. -/
def bootTimeView (s : Store) (layer : Layer) : List FilterRecord :=
  (lockdownBoottimeTwins.filter (·.layer = layer)).filterMap fun t ↦
    (s t.guid).map fun f ↦ ⟨f.filterKey, f.flags⟩

/-- A read of the boot-time record. -/
def World.readWitness (w : World) (c : WfpChoice) : ArmingWitness :=
  if c = .fail then .unreadable
  else
    match w.record with
    | none => .unset
    | some true => .armed
    | some false => .disarmed

/-- What each call answers. -/
def wfpAnswer (appId : String → Blob) (w : World) : (o : WfpOp) → WfpChoice → o.Ans
  | .engineOpen, c => c.toCode
  | .engineClose, c => c.toCode
  | .transactionBegin, c => c.toCode
  | .transactionCommit, c => c.toCode
  | .transactionAbort, c => c.toCode
  | .filterDeleteByKey g, c => deleteCode w g c
  | .filterAdd f, c => addCode w f c
  | .providerAdd, c => c.toCode
  | .subLayerAdd, c => c.toCode
  | .providerDelete, c => c.toCode
  | .subLayerDelete, c => c.toCode
  | .getAppId path, c =>
    if c.toCode = errorSuccess then Except.ok (appId path) else Except.error c.toCode
  | .enumBoottime layer _, c =>
    match c with
    | .view rs => Except.ok rs
    | .code n => if n = errorSuccess then Except.ok (bootTimeView w.view layer) else Except.error n
    | _ => Except.ok (bootTimeView w.view layer)
  | .resolveLuid _, c =>
    match c with
    | .ok => true
    | _ => false
  | .loadWitness, c => w.readWitness c
  | .saveWitness _, _ => ()

/-- The twins that a store holds. -/
def armedTwins (s : Store) : List Guid :=
  (lockdownBoottimeTwins.map (·.guid)).filter fun g ↦ (s g).isSome

/-- What a delete leaves. -/
def World.afterDelete (w : World) (act : WfpAct) (g : Guid) (code : Code) : World :=
  let w := { w with standing := w.standing && !act.releases }
  if code = errorSuccess then
    { w.setView (w.view.set g none) with
      outstanding := if act.sweeps then w.outstanding.filter (· ≠ g) else w.outstanding }
  else if code = fwpEFilterNotFound then w
  else { w with stale := g :: w.stale }

/-- What a commit leaves. -/
def World.commit (w : World) (act : WfpAct) : World :=
  { w with
    store := w.view
    txn := none
    outstanding := if act.arms then w.outstanding ++ armedTwins w.view else w.outstanding
    unrecorded := w.unrecorded || act.arms
    standing := w.standing || act.arms
    commits := w.commits + 1 }

/-- What each call does. -/
def wfpNext (act : WfpAct) (w : World) : WfpOp → WfpChoice → World
  | .transactionBegin, c =>
    if c.toCode = errorSuccess then { w with txn := some w.store, stale := [] } else w
  | .transactionCommit, c => if c.toCode = errorSuccess then w.commit act else w
  | .transactionAbort, _ => { w with txn := none }
  | .filterDeleteByKey g, c => w.afterDelete act g (deleteCode w g c)
  | .filterAdd f, c =>
    if addCode w f c = errorSuccess then w.setView (w.view.set f.filterKey (some f)) else w
  | .saveWitness armed, c =>
    match c with
    | .fail => { w with recordLost := true, unrecorded := false }
    | _ => { w with record := some armed, unrecorded := false }
  | _, _ => w

/-- The engine, as an act sees it. -/
def wfpHost (appId : String → Blob) (act : WfpAct) : Env WfpOp WfpOp.Ans World WfpChoice where
  answer := wfpAnswer appId
  next := wfpNext act

/-- What a crash loses: the open transaction, and a record not written yet. -/
def World.crash (w : World) : World :=
  { w with txn := none, recordLost := w.recordLost || w.unrecorded, unrecorded := false }

/-- A reboot: the boot-time objects in `gone` leave the store. -/
def World.reboot (w : World) (gone : List Guid) : World :=
  { w.crash with
    store := fun k ↦ (w.store k).filter fun f ↦
      !(k ∈ gone && f.flags = filterFlags .bootTime) }

/-- The program of an act. -/
def WfpAct.body : WfpAct → Option (WfpM Unit)
  | engage serverIp resolverIp => some do let _ ← Wfp.engage serverIp resolverIp
  | engageLockdown serverIp tunLuid appIds =>
    if appIds.length ≤ maxAppidBinaries then
      some do let _ ← Wfp.engageLockdown serverIp tunLuid appIds
    else none
  | dropCover kind => some (Wfp.dropCover kind)
  | detach => some Wfp.detach
  | recoverCover => some Wfp.recoverCover
  | disengageLockdown => some do let _ ← sweepWithWitness Wfp.disengageLockdown
  | releaseAll => some do let _ ← sweepWithWitness Wfp.releaseAll
  | reclaimStaleTunPermit tunName => some (Wfp.reclaimStaleTunPermit tunName)
  | reboot _ => some (pure ())
  | crash => some (pure ())

/-- The machine of the Windows covers. -/
def wfpMachine (appId : String → Blob) : Machine WfpOp WfpOp.Ans World WfpChoice WfpAct Unit where
  env := wfpHost appId
  body _ := WfpAct.body
  finish w act _ :=
    match act with
    | .reboot gone => w.reboot gone
    | .crash => w.crash
    | _ => w
  crash := World.crash

/-- A host that never had a cover. -/
def World.start : World where
  store := .empty
  txn := none
  record := none
  outstanding := []
  unrecorded := false
  recordLost := false
  standing := false
  stale := []
  commits := 0

/-! ### Single calls -/

variable {appId : String → Blob} {act : WfpAct} {w : World} {I : World → Prop} {α β : Type}

/-- Sequencing through the `?` operator. -/
theorem safe_andThen {p : WfpM (Except RoutingError α)}
    {k : α → WfpM (Except RoutingError β)} {R : Except RoutingError α → World → Prop}
    {Q : Except RoutingError β → World → Prop} (hp : p.Safe (wfpHost appId act) I R w)
    (herr : ∀ e w', I w' → R (.error e) w' → Q (.error e) w')
    (hk : ∀ a w', I w' → R (.ok a) w' → (k a).Safe (wfpHost appId act) I Q w') :
    (andThen p k).Safe (wfpHost appId act) I Q w := by
  refine hp.bind ?_
  rintro (e | a) w' hI' hR
  · exact ⟨hI', herr e w' hI' hR⟩
  · exact hk a w' hI' hR

/-- A commit takes the working copy over, or does nothing. -/
theorem safe_commitTransaction (hI : I w) (hcommit : I (w.commit act)) :
    commitTransaction.Safe (wfpHost appId act) I
      (fun r w' ↦ w' = if r.isOk then w.commit act else w) w := by
  refine ⟨hI, fun c ↦ ?_⟩
  show I (wfpNext act w .transactionCommit c) ∧ wfpNext act w .transactionCommit c =
    if (wfpCheck c.toCode "FwpmTransactionCommit0").isOk then w.commit act else w
  by_cases hc : c.toCode = errorSuccess
  · have hnext : wfpNext act w .transactionCommit c = w.commit act := if_pos hc
    have hok : wfpCheck c.toCode "FwpmTransactionCommit0" = .ok () := if_pos hc
    rw [hnext, hok]
    exact ⟨hcommit, rfl⟩
  · have hnext : wfpNext act w .transactionCommit c = w := if_neg hc
    have herr : (wfpCheck c.toCode "FwpmTransactionCommit0").isOk = false := by
      rw [wfpCheck, if_neg hc]
      rfl
    rw [hnext, herr]
    exact ⟨hI, rfl⟩

end Hole.Wfp
