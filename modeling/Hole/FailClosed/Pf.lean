import Hole.Effect.Prog
import Hole.FailClosed.Cover

/-!
# The macOS covers

The two covers of `tun-engine/src/routing/failclosed/macos.rs` as interactive programs over
`pfctl` and the two record files. The **transient** cover loads a self-contained blocking ruleset
and restores `/etc/pf.conf`; the **standing** lockdown snapshots the host's rules, loads its own
main ruleset, and restores the snapshot. pf has one main ruleset, so the two share it.

A ruleset is what pf holds after a load: translation rules as text, and filter rules that are
either the host's, or one of the two Hole builds. `pfctl -sr` prints the filter rules and
`pfctl -sn` the translation rules; loading what they print loads the same rules again, which is
what the code relies on when it restores a snapshot verbatim.
-/

namespace Hole.FailClosed

open Effect
open Prog (perform)

/-- The filter section of a pf ruleset. -/
inductive Filter
  /-- Rules that are not Hole's, as their text. -/
  | host (rules : String)
  /-- `build_pf_ruleset`: block all but loopback, the server and the pinned resolver. -/
  | transient (serverIp : IpAddr) (resolverIp : Option IpAddr)
  /-- `build_lockdown_main_ruleset`: block all but loopback, the server and the TUN. -/
  | lockdown (tunName : String) (serverIp : IpAddr)
  deriving DecidableEq

/-- Hole's standing ruleset; it alone carries the lockdown label. -/
def Filter.isLockdown : Filter → Bool
  | lockdown _ _ => true
  | _ => false

/-- One of Hole's two blocking rulesets. -/
def Filter.isBlocking : Filter → Bool
  | host _ => false
  | transient _ _ => true
  | lockdown _ _ => true

/-- A main ruleset: translation rules and filter rules. -/
structure Ruleset where
  nat : String
  filter : Filter

/-- `FailClosedState`: the record of the transient cover. -/
structure FailClosedState where
  /-- Enable token, replayed to `pfctl -X`. -/
  pfToken : String
  /-- Whether pf was enabled before; diagnostic. -/
  pfWasEnabled : Bool

/-- `LockdownPfState`: the record of the standing cover. -/
structure LockdownPfState where
  pfToken : String
  /-- The host's filter rules before the lockdown replaced them. -/
  mainSnapshot : Filter
  /-- The host's translation rules. -/
  natSnapshot : String
  /-- Whether there was a host baseline to capture. -/
  mainSnapshotCaptured : Bool

/-- `build_lockdown_restore_ruleset`. -/
def buildLockdownRestoreRuleset (natSnapshot : String) (mainSnapshot : Filter) : Ruleset :=
  ⟨natSnapshot, mainSnapshot⟩

/-- Why a `pfctl` run did not do its work. -/
inductive PfctlFailure
  | spawn (error : String)
  | exit (stderr : String)

/-! ### Calls -/

/-- The calls of the cover code. -/
inductive PfOp
  /-- `pfctl -s info`: is pf enabled? -/
  | info
  /-- `pfctl -E`. -/
  | enable
  /-- `pfctl -X <token>`. -/
  | drop (token : String)
  /-- `pfctl -f -`. -/
  | load (ruleset : Ruleset)
  /-- `pfctl -f /etc/pf.conf`. -/
  | reload
  /-- `pfctl -F states`. -/
  | flush
  /-- `pfctl -s labels`: is the lockdown label loaded? -/
  | labels
  /-- `pfctl -sr`. -/
  | showRules
  /-- `pfctl -sn`. -/
  | showNat
  | readTransient
  | readStanding
  | saveTransient (st : FailClosedState)
  | saveStanding (st : LockdownPfState)
  | clearTransient
  | clearStanding

/-- The answers. A failed record operation answers with the kind of its failure. -/
def PfOp.Ans : PfOp → Type
  | info => Except PfctlFailure Bool
  | enable => Except String (Option String)
  | drop _ => Except PfctlFailure Unit
  | load _ => Except PfctlFailure Unit
  | reload => Except PfctlFailure Unit
  | flush => Except PfctlFailure Unit
  | labels => Except PfctlFailure Bool
  | showRules => Except PfctlFailure Filter
  | showNat => Except PfctlFailure String
  | readTransient => StateFile FailClosedState
  | readStanding => StateFile LockdownPfState
  | saveTransient _ => Except String Unit
  | saveStanding _ => Except String Unit
  | clearTransient => Except String Unit
  | clearStanding => Except String Unit

/-- Programs over `pfctl` and the records. -/
abbrev PfM := Prog PfOp PfOp.Ans

/-- `pfctl_stdout` and `pfctl_status`: a failed run as an error that names the command. -/
def pfctlStdout {α : Type} (what : String) : Except PfctlFailure α → Except RoutingError α
  | .ok a => .ok a
  | .error (.spawn e) => .error (.routeSetup ("pfctl spawn failed: " ++ e))
  | .error (.exit stderr) => .error (.routeSetup (what ++ " failed: " ++ stderr))

/-- `pf_enabled`. -/
def pfEnabled : PfM (Except RoutingError Bool) := do
  let out ← perform PfOp.info
  pure (pfctlStdout "pfctl -s info" out)

/-- `enable_pf_capture_token`. The exit status is not looked at: the run either could not be
spawned, or its output holds a token or none. -/
def enablePfCaptureToken : PfM (Except RoutingError String) := do
  match ← perform PfOp.enable with
  | .error e => pure (.error (.routeSetup ("pfctl spawn failed: " ++ e)))
  | .ok none => pure (.error (.routeSetup "pfctl -E returned no token"))
  | .ok (some token) => pure (.ok token)

/-- `drop_token`, on every seam. -/
def dropToken (token : String) : PfM (Except RoutingError Unit) := do
  let out ← perform (PfOp.drop token)
  pure (pfctlStdout "pfctl -X" out)

/-- `load_ruleset`. -/
def loadRuleset (what : String) (r : Ruleset) : PfM (Except RoutingError Unit) := do
  let out ← perform (PfOp.load r)
  pure (pfctlStdout what out)

/-- `reload_default`. -/
def reloadDefault : PfM (Except RoutingError Unit) := do
  let out ← perform PfOp.reload
  pure (pfctlStdout "pf default-ruleset reload" out)

/-- `pf_label_answer`: `none` when pf could not be asked. -/
def pfLabelAnswer : PfM (Option Bool) := do
  match ← perform PfOp.labels with
  | .ok loaded => pure (some loaded)
  | .error _ => pure none

/-- `save_transient`. -/
def saveTransient (st : FailClosedState) : PfM (Except RoutingError Unit) := do
  match ← perform (PfOp.saveTransient st) with
  | .ok () => pure (.ok ())
  | .error kind => pure (.error (.stateWriteFailed "failclosed-state" kind))

/-- `lockdown_state::save`. -/
def saveStanding (st : LockdownPfState) : PfM (Except RoutingError Unit) := do
  match ← perform (PfOp.saveStanding st) with
  | .ok () => pure (.ok ())
  | .error kind => pure (.error (.stateWriteFailed "lockdown-pf-state" kind))

/-- `drop_salvaged_token_or_warn`, and `disengage`'s own drop: a token that is on record is
dropped, and a failure is logged. -/
def dropSalvagedTokenOrWarn : Option String → PfM Unit
  | some token => do let _ ← dropToken token
  | none => pure ()

/-! ### The transient cover -/

/-- The two covers. -/
inductive CoverKind
  | transient
  | lockdown

/-- `purges_state`. -/
def purgesState : CoverKind → Bool
  | .transient => true
  | .lockdown => false

/-- `load_cover_ruleset`: a failed purge is not a failed load. -/
def loadCoverRuleset (kind : CoverKind) (r : Ruleset) : PfM (Except RoutingError Unit) := do
  match ← loadRuleset "pfctl load" r with
  | .error e => pure (.error e)
  | .ok () =>
    if purgesState kind then
      let _ ← perform PfOp.flush
      pure (.ok ())
    else pure (.ok ())

/-- `restore_confirmed`: nothing was attempted while adopting, so nothing failed. -/
def restoreConfirmed (adopting : Bool) (out : Except PfctlFailure Unit) : Bool :=
  adopting || out.isOk

/-- `disengage`: the record is cleared only over a confirmed restore. -/
def disengage (token : Option String) (adopting : Bool) : PfM Unit := do
  let out ←
    if adopting then
      pure (.error (.spawn "reload skipped: standing cover is being adopted"))
    else perform PfOp.reload
  dropSalvagedTokenOrWarn token
  if restoreConfirmed adopting out then
    let _ ← perform PfOp.clearTransient
  else pure ()

/-- `engage_with`: enable, persist, load, purge. -/
def engageWith (serverIp : IpAddr) (resolverIp : Option IpAddr) :
    PfM (Except RoutingError String) := do
  let wasEnabled := match ← pfEnabled with
    | .ok enabled => enabled
    | .error _ => false
  match ← enablePfCaptureToken with
  | .error e => pure (.error e)
  | .ok token =>
    match ← saveTransient ⟨token, wasEnabled⟩ with
    | .error e =>
      let _ ← dropToken token
      pure (.error e)
    | .ok () =>
      match ← loadCoverRuleset .transient ⟨"", .transient serverIp resolverIp⟩ with
      | .error e =>
        disengage (some token) false
        pure (.error e)
      | .ok () => pure (.ok token)

/-- `recover_cover`: an unusable record is recovered like a readable one. -/
def recoverCover (adopting : Bool) : PfM Unit := do
  match ← perform PfOp.readTransient with
  | .absent => pure ()
  | .present st => disengage (some st.pfToken) adopting
  | .unusable token => disengage token adopting

/-! ### The standing lockdown -/

/-- `fold_presence`: pf's own confirmation wins, then any file, readable or not. -/
def foldPresence : Option Bool → StateFile LockdownPfState → CoverPresence
  | some true, _ => .live
  | _, .present _ => .recorded
  | _, .unusable _ => .recorded
  | some false, .absent => .absent
  | none, .absent => .unreachable

/-- `lockdown_presence_and_state`: one read of each source. -/
def lockdownPresenceAndState : PfM (CoverPresence × StateFile LockdownPfState) := do
  let label ← pfLabelAnswer
  let file ← perform PfOp.readStanding
  pure (foldPresence label file, file)

/-- How `engage_lockdown` must enable pf. -/
inductive PfEngageAction
  | freshEnable
  | reuseToken (st : LockdownPfState)
  | reenable (st : LockdownPfState)

/-- `engage_pf_action`. The source passes whether a record was loaded and unwraps it again in
the two arms that have one; here the arms carry it. -/
def engagePfAction (pfEnabled : Bool) : Option LockdownPfState → PfEngageAction
  | none => .freshEnable
  | some st => if pfEnabled then .reuseToken st else .reenable st

/-- `persist_baseline`: over Hole's own live cover there is no baseline to capture. -/
def persistBaseline (token : String) (presence : CoverPresence) (mainSnapshot : Filter)
    (natSnapshot : String) : PfM (Except RoutingError String) := do
  let captured : Bool := presence ≠ .live
  match ← saveStanding
      { pfToken := token
        mainSnapshot := if captured then mainSnapshot else .host ""
        natSnapshot
        mainSnapshotCaptured := captured } with
  | .error e => pure (.error e)
  | .ok () => pure (.ok natSnapshot)

/-- `capture_and_persist`. -/
def captureAndPersist (token : String) : PfM (Except RoutingError String) := do
  let (presence, _) ← lockdownPresenceAndState
  match pfctlStdout "pfctl -sr" (← perform PfOp.showRules) with
  | .error e => pure (.error e)
  | .ok mainSnapshot =>
    match pfctlStdout "pfctl -sn" (← perform PfOp.showNat) with
    | .error e => pure (.error e)
    | .ok natSnapshot => persistBaseline token presence mainSnapshot natSnapshot

/-- The arms of `engage_lockdown` up to the load: the token held and the translation rules to
carry forward. -/
def ensurePf : PfEngageAction → PfM (Except RoutingError (String × String))
  | .reuseToken st => pure (.ok (st.pfToken, st.natSnapshot))
  | .reenable st => do
    match ← enablePfCaptureToken with
    | .error e => pure (.error e)
    | .ok token =>
      match ← saveStanding { st with pfToken := token } with
      | .error e =>
        let _ ← dropToken token
        pure (.error e)
      | .ok () => pure (.ok (token, st.natSnapshot))
  | .freshEnable => do
    match ← enablePfCaptureToken with
    | .error e => pure (.error e)
    | .ok token =>
      match ← captureAndPersist token with
      | .error e =>
        let _ ← dropToken token
        pure (.error e)
      | .ok natSnapshot => pure (.ok (token, natSnapshot))

/-- `disengage_lockdown_with`'s restore: the snapshot where one was captured. -/
def restoreStanding : StateFile LockdownPfState → PfM (Except RoutingError Unit)
  | .present st =>
    if st.mainSnapshotCaptured then
      loadRuleset "pf ruleset load" (buildLockdownRestoreRuleset st.natSnapshot st.mainSnapshot)
    else reloadDefault
  | .absent => reloadDefault
  | .unusable _ => reloadDefault

/-- `disengage_lockdown_with`'s token: a failed drop is an error here. -/
def dropStandingToken : StateFile LockdownPfState → PfM (Except RoutingError Unit)
  | .absent => pure (.ok ())
  | .present st => dropToken st.pfToken
  | .unusable (some token) => dropToken token
  | .unusable none => pure (.ok ())

/-- The refusal of a disengage that cannot tell whether there is a cover. -/
def presenceUnknown : RoutingError :=
  .routeSetup ("could not determine whether a lockdown cover is present; nothing was done — " ++
    "run `sudo pfctl -f /etc/pf.conf` to restore the system firewall manually")

/-- `disengage_lockdown_with`. -/
def disengageLockdownWith (presence : CoverPresence) (st : StateFile LockdownPfState) :
    PfM (Except RoutingError Unit) :=
  match presence with
  | .absent => pure (.ok ())
  | .unreachable => pure (.error presenceUnknown)
  | .indeterminate => pure (.error presenceUnknown)
  | .live | .recorded => do
    match ← restoreStanding st with
    | .error e => pure (.error e)
    | .ok () =>
      match ← dropStandingToken st with
      | .error e => pure (.error e)
      | .ok () =>
        let _ ← perform PfOp.clearStanding
        pure (.ok ())

/-- `disengage_lockdown`. -/
def disengageLockdown : PfM (Except RoutingError Unit) := do
  let (presence, file) ← lockdownPresenceAndState
  disengageLockdownWith presence file

/-- `lockdown_disengage`: the same, with the error swallowed. -/
def lockdownDisengage : PfM Unit := do
  let _ ← disengageLockdown

/-- `engage_lockdown`: ensure pf is enabled and the baseline is recorded, then load. -/
def engageLockdown (serverIp : IpAddr) (tunName : String) : PfM (Except RoutingError String) := do
  match ← pfEnabled with
  | .error e => pure (.error e)
  | .ok enabled =>
    let persisted ← perform PfOp.readStanding
    match ← ensurePf (engagePfAction enabled persisted.load) with
    | .error e => pure (.error e)
    | .ok (token, natSnapshot) =>
      match ← loadCoverRuleset .lockdown ⟨natSnapshot, .lockdown tunName serverIp⟩ with
      | .error e =>
        lockdownDisengage
        pure (.error e)
      | .ok () => pure (.ok token)

/-! ### Guards, recovery and the unconditional release -/

/-- `Cover`: a guard over one of the covers. -/
structure Cover where
  token : String
  kind : CoverKind

/-- `Cover::drop`. -/
def Cover.dropGuard (c : Cover) : PfM Unit :=
  match c.kind with
  | .transient => disengage (some c.token) false
  | .lockdown => lockdownDisengage

/-- `recover_lockdown`: only a sweep acts on pf. -/
def recoverLockdown : CoverRecovery → PfM Unit
  | .noop => pure ()
  | .adopt => pure ()
  | .sweep => lockdownDisengage

/-- The cover half of `recover_routes_with`: the standing cover first, then the transient sweep,
which must leave an adopted ruleset alone. -/
def recoverCovers (intent : Intent) : PfM Unit := do
  let (presence, _) ← lockdownPresenceAndState
  let decision := decideCoverRecovery intent presence
  recoverLockdown decision.action
  recoverCover (decision.action = .adopt)

/-- The common end of `release_all_with`'s arms: drop what token there is, then clear the record
over a restore that worked. Returns the restore's error. -/
def settleRelease (outcome : Except RoutingError Unit) (token : Option String)
    (clear : PfM (Except String Unit)) : PfM (Option RoutingError) := do
  dropSalvagedTokenOrWarn token
  match outcome with
  | .ok () =>
    let _ ← clear
    pure none
  | .error e => pure (some e)

/-- `release_all_with`, block 1. -/
def releaseTransient : StateFile FailClosedState → PfM (Option RoutingError)
  | .absent => pure none
  | .present st => do
    let outcome ← reloadDefault
    settleRelease outcome (some st.pfToken) (perform PfOp.clearTransient)
  | .unusable token => do
    let outcome ← reloadDefault
    settleRelease outcome token (perform PfOp.clearTransient)

/-- The captured snapshot, and `/etc/pf.conf` where that does not load. -/
def restoreOrDefault (st : LockdownPfState) : PfM (Except RoutingError Unit) := do
  match ← loadRuleset "pf ruleset load"
      (buildLockdownRestoreRuleset st.natSnapshot st.mainSnapshot) with
  | .ok () => pure (.ok ())
  | .error snapshotErr =>
    match ← reloadDefault with
    | .ok () => pure (.ok ())
    | .error fallbackErr =>
      pure (.error (.routeSetup ("snapshot restore failed (" ++ snapshotErr.display ++
        "); default-ruleset fallback also failed (" ++ fallbackErr.display ++ ")")))

/-- `release_all_with`, block 2. -/
def releaseStanding : StateFile LockdownPfState → PfM (Option RoutingError)
  | .absent => pure none
  | .present st => do
    let outcome ← if st.mainSnapshotCaptured then restoreOrDefault st else reloadDefault
    settleRelease outcome (some st.pfToken) (perform PfOp.clearStanding)
  | .unusable token => do
    let outcome ← reloadDefault
    settleRelease outcome token (perform PfOp.clearStanding)

/-- `release_all_with`: both blocks run, whatever the first one met. -/
def releaseAllWith (transient : StateFile FailClosedState)
    (standing : StateFile LockdownPfState) : PfM (Except RoutingError Unit) := do
  let err₁ ← releaseTransient transient
  let err₂ ← releaseStanding standing
  match err₁ <|> err₂ with
  | some e => pure (.error e)
  | none => pure (.ok ())

/-- `release_all`. -/
def releaseAll : PfM (Except RoutingError Unit) := do
  let transient ← perform PfOp.readTransient
  let standing ← perform PfOp.readStanding
  releaseAllWith transient standing

end Hole.FailClosed
