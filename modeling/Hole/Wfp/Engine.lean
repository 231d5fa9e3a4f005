import Hole.Effect.Prog
import Hole.Wfp.Spec

/-!
# The Windows covers

The calls of `failclosed/windows.rs` as interactive programs over the Base Filtering Engine: the
two engages, the drop of their guards, the sweeps and the reclaim of a stale TUN permit. Every
return code is the engine's; what the source derives from a code is `classifyDeleteCode`,
`wfpCheck` and `okOrExists`.

Both engages are one transaction (`installCover`): the volatile keys are deleted, every filter of
the spec is added, and the transaction is committed or aborted. The sweeps delete outside any
transaction, **issue every delete before they read a code**, and go through `sweepWithWitness`,
which consults the boot-time record before the sweep and updates it after.
-/

namespace Hole.Wfp

open Effect FailClosed
open Prog (only_pure only_perform perform)

/-- A Windows return code. -/
abbrev Code := BitVec 32

/-- `ERROR_SUCCESS`. -/
def errorSuccess : Code := 0#32

/-- `FWP_E_ALREADY_EXISTS`. -/
def fwpEAlreadyExists : Code := 0x80320009#32

/-- `FWP_E_FILTER_NOT_FOUND`. -/
def fwpEFilterNotFound : Code := 0x80320003#32

/-- `0x{code:08x}`. -/
def Code.display (code : Code) : String :=
  let digits := Nat.toDigits 16 code.toNat
  "0x" ++ String.ofList (List.replicate (8 - digits.length) '0' ++ digits)

/-- `FilterRecord`: a filter as an enumeration returns it. -/
structure FilterRecord where
  key : Guid
  flags : BitVec 32
  deriving DecidableEq

/-- `FilterRecord::is_boottime`. -/
def FilterRecord.isBoottime (r : FilterRecord) : Bool := r.flags &&& flagBoottime ≠ 0

/-- `FilterRecord::is_disabled`. -/
def FilterRecord.isDisabled (r : FilterRecord) : Bool := r.flags &&& flagDisabled ≠ 0

/-! ### Calls -/

/-- The calls of the covers. -/
inductive WfpOp
  | engineOpen
  | engineClose
  | transactionBegin
  | transactionCommit
  | transactionAbort
  | filterDeleteByKey (g : Guid)
  | filterAdd (f : FwpmFilter)
  | providerAdd
  | subLayerAdd
  | providerDelete
  | subLayerDelete
  /-- `FwpmGetAppIdFromFileName0`. -/
  | getAppId (path : String)
  /-- `enum_boottime_on`: one view of the boot-time filters of a layer. -/
  | enumBoottime (layer : Layer) (overlapping : Bool)
  /-- `LuidResolver::resolve`. -/
  | resolveLuid (tunName : String)
  /-- `boottime_witness::load`. -/
  | loadWitness
  /-- `boottime_witness::write_or_warn`. -/
  | saveWitness (armed : Bool)

/-- The answers. -/
def WfpOp.Ans : WfpOp → Type
  | getAppId _ => Except Code Blob
  | enumBoottime _ _ => Except Code (List FilterRecord)
  | resolveLuid _ => Bool
  | loadWitness => ArmingWitness
  | saveWitness _ => Unit
  | _ => Code

/-- Programs of the covers. -/
abbrev WfpM := Prog WfpOp WfpOp.Ans

/-- The `?` operator. -/
def andThen {α β : Type} (p : WfpM (Except RoutingError α))
    (k : α → WfpM (Except RoutingError β)) : WfpM (Except RoutingError β) := do
  match ← p with
  | .error e => pure (.error e)
  | .ok a => k a

/-! ### Codes -/

/-- `classify_delete_code`. -/
def classifyDeleteCode (code : Code) : KeyOutcome :=
  if code = errorSuccess then .removed
  else if code = fwpEFilterNotFound then .notFound
  else .failed

theorem classifyDeleteCode_eq_removed {code : Code} :
    classifyDeleteCode code = .removed ↔ code = errorSuccess := by
  unfold classifyDeleteCode
  split
  · next h => simp [h]
  · next h => split <;> simp [h]

/-- `first_delete_failure`. -/
def firstDeleteFailure (codes : List (String × Code)) : Option RoutingError :=
  codes.findSome? fun (what, code) ↦
    match classifyDeleteCode code with
    | .removed => none
    | .notFound => none
    | .failed => some (.routeSetup (what ++ " delete failed: " ++ code.display))

/-- `wfp_check`. -/
def wfpCheck (code : Code) (what : String) : Except RoutingError Unit :=
  if code = errorSuccess then .ok ()
  else .error (.routeSetup (what ++ " failed: " ++ code.display))

/-- `ok_or_exists`. -/
def okOrExists (code : Code) (what : String) : Except RoutingError Unit :=
  if code = fwpEAlreadyExists then .ok () else wfpCheck code what

/-! ### Engages -/

/-- `pre_delete_label`. -/
def preDeleteLabel (guid : Guid) : String :=
  match lockdownBoottimeTwins.find? (·.guid = guid) with
  | some twin => twin.label
  | none =>
    match (List.range maxAppidBinaries).find? fun i ↦ guid ∈ pair (appidFilterGuid i) with
    | some slot =>
      "App-ID permit slot " ++ toString slot ++
        (if guid = appidFilterGuid slot .v4 then " V4" else " V6")
    | none =>
      if guid = Lockdown.tun .v4 then "TUN-LUID permit V4"
      else if guid = Lockdown.tun .v6 then "TUN-LUID permit V6"
      else if guid = Lockdown.server .v4 then "server-IP permit V4"
      else if guid = Lockdown.server .v6 then "server-IP permit V6"
      else if guid = Transient.server .v4 then "transient server-IP permit V4"
      else if guid = Transient.server .v6 then "transient server-IP permit V6"
      else if guid = Transient.resolver .v4 then "transient resolver permit V4"
      else if guid = Transient.resolver .v6 then "transient resolver permit V6"
      else "unnamed pre-delete key"

/-- Delete keys in order, whatever each answers. -/
def deleteKeys : List Guid → WfpM (List Code)
  | [] => pure []
  | g :: gs => do
    let code : Code ← perform (WfpOp.filterDeleteByKey g)
    let codes ← deleteKeys gs
    pure (code :: codes)

/-- `pre_delete_verdict`. -/
def preDeleteVerdict (policy : StaleKeyPolicy) (codes : List (String × Code)) :
    Except RoutingError Unit :=
  match firstDeleteFailure codes with
  | none => .ok ()
  | some e => if policy.refusesAStaleKey then .error e else .ok ()

/-- `issue_pre_deletes`. -/
def issuePreDeletes (preDelete : List Guid) (policy : StaleKeyPolicy) :
    WfpM (Except RoutingError Unit) := do
  let codes ← deleteKeys preDelete
  pure (preDeleteVerdict policy ((preDelete.map preDeleteLabel).zip codes))

/-- The verdict on an add: a duplicate is benign only where the key fixes the content, or where
the engage would rather keep a stale filter than no cover. -/
def addVerdict (f : FilterSpec) (policy : StaleKeyPolicy) (code : Code) :
    Except RoutingError Unit :=
  if f.requiresFreshAdd && policy.refusesAStaleKey then wfpCheck code "FwpmFilterAdd0"
  else okOrExists code "FwpmFilterAdd0"

/-- The conditions of a filter; only an image's blob is asked of the engine. -/
def filterConditions : Condition → WfpM (Except RoutingError (List FilterCondition))
  | .appId path => do
    match ← perform (WfpOp.getAppId path) with
    | .error code => pure (.error (.routeSetup
        ("FwpmGetAppIdFromFileName0 failed: " ++ Code.display code)))
    | .ok blob => pure (.ok [.appId blob])
  | c => pure (.ok (c.encode id))

/-- `add_filter`. -/
def addFilter (policy : StaleKeyPolicy) (f : FilterSpec) : WfpM (Except RoutingError Unit) :=
  andThen (filterConditions f.condition) fun conditions ↦ do
    let code : Code ← perform (WfpOp.filterAdd (f.filter conditions))
    pure (addVerdict f policy code)

/-- The filters of a spec, up to the first that fails. -/
def addFilters (policy : StaleKeyPolicy) : List FilterSpec → WfpM (Except RoutingError Unit)
  | [] => pure (.ok ())
  | f :: fs => andThen (addFilter policy f) fun _ ↦ addFilters policy fs

/-- `FwpmTransactionBegin0`. -/
def beginTransaction : WfpM (Except RoutingError Unit) := do
  let code : Code ← perform WfpOp.transactionBegin
  pure (wfpCheck code "FwpmTransactionBegin0")

/-- `add_provider`. -/
def addProvider : WfpM (Except RoutingError Unit) := do
  let code : Code ← perform WfpOp.providerAdd
  pure (okOrExists code "FwpmProviderAdd0")

/-- `add_sublayer`. -/
def addSublayer : WfpM (Except RoutingError Unit) := do
  let code : Code ← perform WfpOp.subLayerAdd
  pure (okOrExists code "FwpmSubLayerAdd0")

/-- The transaction of an engage, up to its last filter. -/
def stageCover (spec : CoverSpec) : WfpM (Except RoutingError Unit) :=
  andThen beginTransaction fun _ ↦
  andThen (issuePreDeletes spec.preDelete spec.staleKey) fun _ ↦
  andThen addProvider fun _ ↦
  andThen addSublayer fun _ ↦
  addFilters spec.staleKey spec.filters

/-- An engage: the transaction, its `commit`, and an abort where anything failed. -/
def installCover (spec : CoverSpec) (commit : WfpM (Except RoutingError Unit)) :
    WfpM (Except RoutingError Unit) := do
  let rc : Code ← perform WfpOp.engineOpen
  match wfpCheck rc "FwpmEngineOpen0" with
  | .error e => pure (.error e)
  | .ok () =>
    match ← andThen (stageCover spec) fun _ ↦ commit with
    | .ok () => pure (.ok ())
    | .error e =>
      let _ ← perform WfpOp.transactionAbort
      let _ ← perform WfpOp.engineClose
      pure (.error e)

/-- `FwpmTransactionCommit0`. -/
def commitTransaction : WfpM (Except RoutingError Unit) := do
  let code : Code ← perform WfpOp.transactionCommit
  pure (wfpCheck code "FwpmTransactionCommit0")

/-- `engage`. -/
def engage (serverIp : IpAddr) (resolverIp : Option IpAddr) : WfpM (Except RoutingError Unit) :=
  installCover (buildCoverSpec serverIp resolverIp) commitTransaction

/-- `commit_and_record`: the record is written the moment the twins are armed. -/
def commitAndRecord : WfpM (Except RoutingError Unit) := andThen commitTransaction fun _ ↦ do
    let _ ← perform (WfpOp.saveWitness true)
    pure (.ok ())

/-- `Readback`. -/
inductive Readback
  | found (r : FilterRecord)
  | absent
  | unreadable

/-- `readback::verdict`, over the two views. -/
def classifyTwinReadback (views : List (Except Code (List FilterRecord))) (key : Guid) :
    Readback :=
  match (views.flatMap fun v ↦ v.toOption.getD []).find? (·.key = key) with
  | some r => .found r
  | none => if views.isEmpty || views.any (!·.isOk) then .unreadable else .absent

/-- The verdict on one twin. -/
def twinVerdict (twin : BootTimeTwin) : Readback → Except RoutingError Unit
  | .unreadable => .ok ()
  | .absent => .error (.routeSetup (twin.label ++
      " committed but is absent from the boot-time view, so the kill switch would report " ++
      "armed over a pre-BFE window nothing covers"))
  | .found r =>
    if !r.isBoottime || r.isDisabled then
      .error (.routeSetup (twin.label ++ " committed but reads back unusable (flags " ++
        Code.display r.flags ++ ", boottime=" ++ toString r.isBoottime ++ ", disabled=" ++
        toString r.isDisabled ++ ")"))
    else .ok ()

/-- `verify_boottime_twins`. -/
def verifyBoottimeTwins : List BootTimeTwin → WfpM (Except RoutingError Unit)
  | [] => pure (.ok ())
  | twin :: twins => do
    let contained ← perform (WfpOp.enumBoottime twin.layer false)
    let overlapping ← perform (WfpOp.enumBoottime twin.layer true)
    match twinVerdict twin (classifyTwinReadback [contained, overlapping] twin.guid) with
    | .error e => pure (.error e)
    | .ok () => verifyBoottimeTwins twins

/-- `engage_lockdown`. A read-back that fails leaves the committed cover standing. -/
def engageLockdown (serverIp : IpAddr) (tunLuid : BitVec 64) (appIds : List String) :
    WfpM (Except RoutingError Unit) :=
  installCover (buildLockdownSpec serverIp tunLuid appIds)
    (andThen commitAndRecord fun _ ↦ verifyBoottimeTwins lockdownBoottimeTwins)

/-! ### Guards and sweeps -/

/-- `CoverKind`. -/
inductive CoverKind
  | transient
  | lockdown
  deriving DecidableEq

/-- `delete_all`. -/
def deleteAll : WfpM Unit := do
  let _ ← deleteKeys transientKeys
  let _ ← perform WfpOp.subLayerDelete
  let _ ← perform WfpOp.providerDelete

/-- The keys of a cover. -/
def CoverKind.keys : CoverKind → List Guid
  | transient => transientKeys
  | lockdown => lockdownKeys

/-- The deletes of a guard's drop. -/
def dropFilters : CoverKind → WfpM Unit
  | .transient => deleteAll
  | .lockdown => do let _ ← deleteKeys lockdownKeys

/-- `Drop for Cover`. -/
def dropCover (kind : CoverKind) : WfpM Unit := do
  dropFilters kind
  let _ ← perform WfpOp.engineClose

/-- `Cover::detach`: the filters stay. -/
def detach : WfpM Unit := do
  let _ ← perform WfpOp.engineClose

/-- `recover_cover`. -/
def recoverCover : WfpM Unit := do
  let rc : Code ← perform WfpOp.engineOpen
  if rc = errorSuccess then do
    deleteAll
    let _ ← perform WfpOp.engineClose
  else pure ()

/-- `reclaim_stale_tun_permit`: only where no adapter of the name exists. -/
def reclaimStaleTunPermit (tunName : String) : WfpM Unit := do
  let resolved : Bool ← perform (WfpOp.resolveLuid tunName)
  if resolved then pure ()
  else do
    let rc : Code ← perform WfpOp.engineOpen
    if rc = errorSuccess then do
      let _ ← deleteKeys (pair Lockdown.tun)
      let _ ← perform WfpOp.engineClose
    else pure ()

/-- `observations`. -/
def observations (swept : List (SweptKey × Code)) : List KeyObservation :=
  swept.map fun (k, code) ↦ ⟨k.label, k.lifetime, classifyDeleteCode code, k.role⟩

/-- The verdict of a sweep that issued its deletes (`disengage_verdict`). -/
def sweepVerdict (swept : List (SweptKey × Code)) (witness : ArmingWitness) : SweepOutcome where
  clearance := .fromObservations (observations swept) witness
  failure := firstDeleteFailure (swept.map fun (k, code) ↦ (k.label, code))

/-- The verdict of a sweep that could not open the engine: the empty fold. -/
def unreachableVerdict (rc : Code) (consequence : String) (witness : ArmingWitness) :
    SweepOutcome where
  clearance := .fromObservations [] witness
  failure := some (.routeSetup ("FwpmEngineOpen0 failed (" ++ Code.display rc ++
    "): the firewall could not be reached, so " ++ consequence))

/-- `disengage_lockdown`. -/
def disengageLockdown (witness : ArmingWitness) : WfpM SweepOutcome := do
  let rc : Code ← perform WfpOp.engineOpen
  if rc = errorSuccess then do
    let codes ← deleteKeys lockdownKeys
    let _ ← perform WfpOp.engineClose
    pure (sweepVerdict (sweptLockdownKeys.zip codes) witness)
  else
    pure (unreachableVerdict rc "the lockdown cover could not be disengaged" witness)

/-- `release_all`. -/
def releaseAll (witness : ArmingWitness) : WfpM SweepOutcome := do
  let rc : Code ← perform WfpOp.engineOpen
  if rc = errorSuccess then do
    let codes ← deleteKeys (lockdownKeys ++ transientKeys)
    let _ ← perform WfpOp.subLayerDelete
    let _ ← perform WfpOp.providerDelete
    let _ ← perform WfpOp.engineClose
    pure (sweepVerdict ((sweptLockdownKeys ++ sweptTransientKeys).zip codes) witness)
  else pure (unreachableVerdict rc "nothing could have been deleted" witness)

/-- `boottime_witness::apply`. -/
def applyWitness (current : ArmingWitness) (update : WitnessUpdate) : WfpM Unit :=
  match nextRecord current update with
  | some armed => perform (WfpOp.saveWitness armed)
  | none => pure ()

/-- `sweep_with_witness`, with the verdict beside the failure. -/
def sweepWithWitness (sweep : ArmingWitness → WfpM SweepOutcome) : WfpM SweepOutcome := do
  let witness : ArmingWitness ← perform WfpOp.loadWitness
  let outcome ← sweep witness
  applyWitness witness outcome.clearance.witnessUpdate
  pure outcome

/-! ### Which calls a program makes -/

/-- The calls that leave the filters and the record alone. -/
def WfpOp.isIdle : WfpOp → Prop
  | engineOpen | engineClose | providerAdd | subLayerAdd | providerDelete | subLayerDelete => True
  | getAppId _ | enumBoottime _ _ | resolveLuid _ | loadWitness => True
  | _ => False

section Only

variable {P : WfpOp → Prop} {α β : Type}

theorem only_andThen {p : WfpM (Except RoutingError α)}
    {k : α → WfpM (Except RoutingError β)} (hp : p.Only P) (hk : ∀ a, (k a).Only P) :
    (andThen p k).Only P := by
  refine hp.bind fun r ↦ ?_
  rcases r with e | a
  · exact only_pure _
  · exact hk a

theorem only_deleteKeys {gs : List Guid} (h : ∀ g ∈ gs, P (.filterDeleteByKey g)) :
    (deleteKeys gs).Only P := by
  induction gs with
  | nil => exact only_pure _
  | cons g gs ih =>
    refine (only_perform (h g (.head _))).bind fun code ↦ ?_
    exact (ih fun g' hg' ↦ h g' (.tail _ hg')).bind fun codes ↦ only_pure _

theorem only_filterConditions (condition : Condition) (h : ∀ path, P (.getAppId path)) :
    (filterConditions condition).Only P := by
  cases condition with
  | appId path =>
    refine (only_perform (h path)).bind fun r ↦ ?_
    rcases r with code | blob
    · exact only_pure _
    · exact only_pure _
  | _ => exact only_pure _

variable (hidle : ∀ o : WfpOp, o.isIdle → P o)
include hidle

theorem only_verifyBoottimeTwins {twins : List BootTimeTwin} :
    (verifyBoottimeTwins twins).Only P := by
  induction twins with
  | nil => exact only_pure _
  | cons twin twins ih =>
    refine (only_perform (hidle (.enumBoottime twin.layer false) trivial)).bind
      fun contained ↦ ?_
    refine (only_perform (hidle (.enumBoottime twin.layer true) trivial)).bind
      fun overlapping ↦ ?_
    rcases twinVerdict twin (classifyTwinReadback [contained, overlapping] twin.guid) with e | u
    · exact only_pure _
    · exact ih

theorem only_deleteAll (h : ∀ g ∈ transientKeys, P (.filterDeleteByKey g)) : deleteAll.Only P := by
  refine (only_deleteKeys h).bind fun _ ↦ ?_
  refine (only_perform (hidle .subLayerDelete trivial)).bind fun _ ↦ ?_
  exact (only_perform (hidle .providerDelete trivial)).bind fun _ ↦ only_pure _

theorem only_dropCover {kind : CoverKind} (h : ∀ g ∈ kind.keys, P (.filterDeleteByKey g)) :
    (dropCover kind).Only P := by
  refine Prog.Only.bind ?_ fun _ ↦
    (only_perform (hidle .engineClose trivial)).bind fun _ ↦ only_pure _
  cases kind with
  | transient => exact only_deleteAll hidle h
  | lockdown => exact (only_deleteKeys h).bind fun _ ↦ only_pure _

theorem only_recoverCover (h : ∀ g ∈ transientKeys, P (.filterDeleteByKey g)) :
    recoverCover.Only P := by
  refine (only_perform (hidle .engineOpen trivial)).bind fun (rc : Code) ↦ ?_
  split
  · refine (only_deleteAll hidle h).bind fun _ ↦ ?_
    exact (only_perform (hidle .engineClose trivial)).bind fun _ ↦ only_pure _
  · exact only_pure _

theorem only_reclaimStaleTunPermit {tunName : String}
    (h : ∀ g ∈ pair Lockdown.tun, P (.filterDeleteByKey g)) :
    (reclaimStaleTunPermit tunName).Only P := by
  refine (only_perform (hidle (.resolveLuid tunName) trivial)).bind fun (resolved : Bool) ↦ ?_
  cases resolved with
  | true => exact only_pure _
  | false =>
    refine (only_perform (hidle .engineOpen trivial)).bind fun (rc : Code) ↦ ?_
    split
    · refine (only_deleteKeys h).bind fun _ ↦ ?_
      exact (only_perform (hidle .engineClose trivial)).bind fun _ ↦ only_pure _
    · exact only_pure _

theorem only_disengageLockdown {witness : ArmingWitness}
    (h : ∀ g ∈ lockdownKeys, P (.filterDeleteByKey g)) : (disengageLockdown witness).Only P := by
  refine (only_perform (hidle .engineOpen trivial)).bind fun (rc : Code) ↦ ?_
  split
  · refine (only_deleteKeys h).bind fun _ ↦ ?_
    exact (only_perform (hidle .engineClose trivial)).bind fun _ ↦ only_pure _
  · exact only_pure _

theorem only_releaseAll {witness : ArmingWitness}
    (h : ∀ g ∈ lockdownKeys ++ transientKeys, P (.filterDeleteByKey g)) :
    (releaseAll witness).Only P := by
  refine (only_perform (hidle .engineOpen trivial)).bind fun (rc : Code) ↦ ?_
  split
  · refine (only_deleteKeys h).bind fun _ ↦ ?_
    refine (only_perform (hidle .subLayerDelete trivial)).bind fun _ ↦ ?_
    refine (only_perform (hidle .providerDelete trivial)).bind fun _ ↦ ?_
    exact (only_perform (hidle .engineClose trivial)).bind fun _ ↦ only_pure _
  · exact only_pure _

theorem only_sweepWithWitness {sweep : ArmingWitness → WfpM SweepOutcome}
    (hsave : ∀ armed, P (.saveWitness armed)) (hsweep : ∀ witness, (sweep witness).Only P) :
    (sweepWithWitness sweep).Only P := by
  refine (only_perform (hidle .loadWitness trivial)).bind fun (witness : ArmingWitness) ↦ ?_
  refine (hsweep witness).bind fun outcome ↦ Prog.Only.bind ?_ fun _ ↦ only_pure _
  unfold applyWitness
  rcases nextRecord witness outcome.clearance.witnessUpdate with - | armed
  · exact only_pure _
  · exact only_perform (hsave armed)

end Only

end Hole.Wfp
