import Hole.Effect.Prog
import Hole.Bridge.Config
import Hole.Bridge.Target

/-!
# The proxy manager

Starts, stops and reloads of `bridge/src/proxy_manager.rs` as interactive programs over the
routing provider, the state files and the phases of a start. The manager's own state is passed
explicitly; what the programs call is what the source reaches through its `Routing`, `Dns` and
`Proxy` seams.

A **guard** is a number. The transient cover's guard lives in the posture while a covered start
is pending; the standing cover's guard is local to `start_inner` until the session is committed,
so every error path after the install drops it. A phase of a start is one call that succeeds,
fails or observes the cancellation.
-/

namespace Hole.Bridge

open Effect FailClosed
open Prog (perform)

/-- A guard over an engaged cover. -/
abbrev Guard := Nat

/-- `ProxyError`, as far as a start or a stop tells errors apart. The errors of a start's phases
are told apart by their text only. -/
inductive ProxyError
  | alreadyRunning
  | cancelled
  | routing (e : RoutingError)
  | phase (message : String)
  | lockdownIntentNotPersisted (source : String)
  deriving DecidableEq

/-- `Display for ProxyError`. -/
def ProxyError.display : ProxyError → String
  | alreadyRunning => "proxy already running"
  | cancelled => "cancelled"
  | routing e => e.display
  | phase message => message
  | lockdownIntentNotPersisted _ =>
    "the network was unblocked, but the kill-switch setting could not be saved"

/-- `Bootstrapped`: the server's address and the resolver that gave it. -/
structure Bootstrapped where
  serverIp : IpAddr
  via : PinSource

/-- `BlockedStart`: a held transient cover and what it was engaged with. -/
structure BlockedStart where
  cover : Guard
  host : String
  /-- The address the cover permits. -/
  serverIp : IpAddr
  /-- The resolver that answered when the address was resolved. -/
  pin : PinSource
  resolverPermit : Option IpAddr

/-- `RunningState`, as far as it concerns covers. -/
structure RunningState where
  lockdown : Option Guard
  serverIp : IpAddr

/-- `Posture`: who owns the per-cycle state. -/
inductive Posture
  | idle
  | pendingStart (b : BlockedStart)
  | session (s : RunningState)

/-- `Posture::pending`. -/
def Posture.pending : Posture → Option BlockedStart
  | pendingStart b => some b
  | idle => none
  | session _ => none

/-- Whether the posture is a live session. -/
def Posture.isSession : Posture → Bool
  | session _ => true
  | idle => false
  | pendingStart _ => false

/-- The manager. -/
structure Manager where
  posture : Posture
  activeConfig : Option ProxyConfig
  lastError : Option String
  /-- Why the last session died on its own. -/
  deathReason : Option String
  /-- A standing cover is live this run and was not released by this process. -/
  adoptedStandingCover : Bool
  stateDir : Bool

/-- The phases of `start_inner` that may fail. -/
inductive Phase
  /-- The pre-flight look at the cancellation. -/
  | preflight
  | pluginChain
  /-- `build_ss_config`, or the validation that stands for it, and the look at the cancellation in
  front of it. -/
  | ssConfig
  | proxyStart
  /-- Wintun and the default gateway. -/
  | gateway
  | localDns
  | selfTest
  | dispatcher
  | routingInstall
  | dnsApply

/-! ### Calls -/

/-- The calls of the manager. -/
inductive PmOp
  /-- `cover_invalidated.swap(false)`. -/
  | swapInvalidated
  /-- `resolve_server_ip`. -/
  | resolve (host : String)
  | loadIntent
  | setEnabled (enabled : Bool)
  | installFailclosedCover (serverIp : IpAddr) (resolverIp : Option IpAddr)
  /-- The drop of a transient cover's guard. -/
  | dropCover (g : Guard)
  /-- `disarm` of a transient cover's guard. -/
  | disarmCover (g : Guard)
  | installLockdown (serverIp : IpAddr)
  /-- The drop of the standing cover's guard. -/
  | dropLockdown (g : Guard)
  /-- `disarm` of the standing cover's guard. -/
  | disarmLockdown (g : Guard)
  | releaseAllCovers
  | lockdownCoverPresence
  | phase (p : Phase)
  /-- `target::apply` of a session event, and what is read where it fails. -/
  | persistSessionEvent (event : SessionEvent)
  /-- `proxy.stop()` and the teardown around it. -/
  | stopProxy

/-- The answers. -/
def PmOp.Ans : PmOp → Type
  | swapInvalidated => Bool
  | resolve _ => Except ProxyError Bootstrapped
  | loadIntent => Intent
  | setEnabled _ => Except String Unit
  | installFailclosedCover _ _ => Except RoutingError Guard
  | dropCover _ => Unit
  | disarmCover _ => Unit
  | installLockdown _ => Except RoutingError Guard
  | dropLockdown _ => Unit
  | disarmLockdown _ => Unit
  | releaseAllCovers => Except RoutingError Unit
  | lockdownCoverPresence => CoverPresence
  | phase _ => Except ProxyError Unit
  | persistSessionEvent _ => Target ProxyConfig
  | stopProxy => Except ProxyError Unit

/-- Programs of the manager. -/
abbrev PmM := Prog PmOp PmOp.Ans

/-! ### Covers and the intent -/

/-- `take_pending`, and the drop of what was taken. -/
def takePending (m : Manager) : PmM Manager :=
  match m.posture with
  | .pendingStart b => do
    let _ ← perform (PmOp.dropCover b.cover)
    pure { m with posture := .idle }
  | .idle => pure m
  | .session _ => pure m

/-- `take_pending` under a condition. -/
def takePendingIf (c : Bool) (m : Manager) : PmM Manager := if c then takePending m else pure m

/-- `standing_cover_expected`: a recorded off wins over the claim. -/
def standingCoverExpected (m : Manager) : PmM Bool :=
  if m.stateDir then do
    let intent : Intent ← perform PmOp.loadIntent
    pure (intent ≠ .off && (m.adoptedStandingCover || intent.installsStandingCover))
  else pure m.adoptedStandingCover

/-- `effective_lockdown_intent`. -/
def effectiveLockdownIntent (m : Manager) : PmM Intent :=
  if m.stateDir then do
    let intent : Intent ← perform PmOp.loadIntent
    pure (if intent ≠ .off && m.adoptedStandingCover then .on else intent)
  else pure (if m.adoptedStandingCover then .on else .unset)

/-- `promote_adopted_claim`: only over an intent that says neither on nor off. -/
def promoteAdoptedClaim (stateDir : Bool) : PmM Unit :=
  if stateDir then do
    let intent : Intent ← perform PmOp.loadIntent
    match intent with
    | .on => pure ()
    | .off => pure ()
    | .unset => let _ ← perform (PmOp.setEnabled true)
    | .unreadable => let _ ← perform (PmOp.setEnabled true)
  else pure ()

/-! ### `start_inner` -/

/-- Run phases in order, up to the first that fails. -/
def runPhases : List Phase → PmM (Except ProxyError Unit)
  | [] => pure (.ok ())
  | p :: ps => do
    match ← perform (PmOp.phase p) with
    | .error e => pure (.error e)
    | .ok () => runPhases ps

/-- The phases in front of the mode split. -/
def Phase.preamble (config : ProxyConfig) : List Phase :=
  Phase.preflight :: (if config.server.plugin.isSome then [Phase.pluginChain] else []) ++
    [Phase.ssConfig]

/-- The phases of a full start up to the routes. The self-test runs where there is a forwarder. -/
def Phase.full (config : ProxyConfig) : List Phase :=
  [Phase.gateway, .proxyStart, .localDns] ++
    (if config.dns.enabled then [Phase.selfTest] else []) ++ [Phase.dispatcher, .routingInstall]

/-- Unwinding drops the standing cover's guard, where one is held. -/
def dropLockdownGuard : Option Guard → PmM Unit
  | some g => perform (PmOp.dropLockdown g)
  | none => pure ()

/-- Phase 7: `Dns::apply`, fatal where there is a forwarder. -/
def applyDns (config : ProxyConfig) (serverIp : IpAddr) (lockdown : Option Guard) :
    PmM (Except ProxyError RunningState) :=
  if config.dns.enabled then do
    match ← perform (PmOp.phase .dnsApply) with
    | .ok () => pure (.ok ⟨lockdown, serverIp⟩)
    | .error e =>
      dropLockdownGuard lockdown
      pure (.error e)
  else pure (.ok ⟨lockdown, serverIp⟩)

/-- The fresh read of the intent in front of the install it gates: a recorded off overrides the
caller's snapshot, any other answer leaves it. -/
def refreshExpected (stateDir expected : Bool) : PmM Bool :=
  if stateDir then do
    let intent : Intent ← perform PmOp.loadIntent
    pure (if intent = .off then false else expected)
  else pure expected

/-- Phase 6, after the routes: the standing cover, fatal where it is expected. -/
def coverAndApply (config : ProxyConfig) (serverIp : IpAddr) (stateDir expected : Bool) :
    PmM (Except ProxyError RunningState) :=
  if expected then do
    match ← perform (PmOp.installLockdown serverIp) with
    | .error e => pure (.error (.routing e))
    | .ok g =>
      promoteAdoptedClaim stateDir
      applyDns config serverIp (some g)
  else applyDns config serverIp none

/-- `start_inner`. -/
def startInner (config : ProxyConfig) (serverIp : IpAddr) (stateDir expected : Bool) :
    PmM (Except ProxyError RunningState) := do
  match ← runPhases (Phase.preamble config) with
  | .error e => pure (.error e)
  | .ok () =>
    match config.tunnelMode with
    | .socksOnly =>
      match ← runPhases [.proxyStart] with
      | .error e => pure (.error e)
      | .ok () => pure (.ok ⟨none, serverIp⟩)
    | .full =>
      match ← runPhases (Phase.full config) with
      | .error e => pure (.error e)
      | .ok () =>
        let expected ← refreshExpected stateDir expected
        coverAndApply config serverIp stateDir expected

/-! ### `start_cancellable` -/

/-- The address and pin of a start: a held cover's for the same server, else a fresh resolution. -/
def resolveOrReuse (m : Manager) (config : ProxyConfig) :
    PmM (Except ProxyError (IpAddr × PinSource)) :=
  match m.posture.pending.filter (·.host = config.server.server) with
  | some b => pure (.ok (b.serverIp, revalidate b.pin config.dns.servers))
  | none => do
    match ← perform (PmOp.resolve config.server.server) with
    | .error e => pure (.error e)
    | .ok b => pure (.ok (b.serverIp, b.via))

/-- What a repair gives up: the held cover's permit and pin, where this attempt's permit differs
from the held one. -/
def repairFallback (m : Manager) (config : ProxyConfig) (permit : Option IpAddr) :
    Option (Option IpAddr × PinSource) :=
  (m.posture.pending.filter fun b ↦
    b.host = config.server.server && b.resolverPermit ≠ permit).map
      fun b ↦ (b.resolverPermit, b.pin)

/-- `hold_pending`. -/
def holdPending (m : Manager) (cover : Guard) (config : ProxyConfig) (serverIp : IpAddr)
    (pin : PinSource) (permit : Option IpAddr) : Manager :=
  { m with posture := .pendingStart ⟨cover, config.server.server, serverIp, pin, permit⟩ }

/-- The engage of a covered start. A repair keeps the pin the held cover was resolved with, and
falls back on its permit. -/
def engageCover (m : Manager) (config : ProxyConfig) (serverIp : IpAddr) (pin : PinSource)
    (permit : Option IpAddr) (repair : Option (Option IpAddr × PinSource)) : PmM Manager := do
  match ← perform (PmOp.installFailclosedCover serverIp permit) with
  | .ok cover =>
    let pin := match repair with
      | some (_, originalPin) => originalPin
      | none => pin
    pure (holdPending m cover config serverIp pin permit)
  | .error e =>
    let m := { m with lastError := some e.display }
    match repair with
    | none => pure m
    | some (oldPermit, originalPin) =>
      match ← perform (PmOp.installFailclosedCover serverIp oldPermit) with
      | .ok cover => pure (holdPending m cover config serverIp originalPin oldPermit)
      | .error _ => pure m

/-- What becomes of the transient cover before `start_inner`: a covered start without a standing
cover holds, repairs or engages one, every other start releases it. -/
def settleCover (m : Manager) (config : ProxyConfig) (covered lockdownOn : Bool)
    (serverIp : IpAddr) (pin : PinSource) (permit : Option IpAddr) : PmM Manager :=
  if covered && !lockdownOn then do
    let repair := repairFallback m config permit
    let m ← takePendingIf repair.isSome m
    match m.posture.pending with
    | some _ => pure m
    | none => engageCover m config serverIp pin permit repair
  else takePending m

/-- What a start reports: the manager, its error, and whether a standing cover was expected,
where it got that far. -/
structure StartReport where
  manager : Manager
  error : Option ProxyError
  lockdownOn : Option Bool

/-- The commit or error arms of a start. -/
def concludeStart (m : Manager) (config : ProxyConfig) (lockdownOn : Bool) :
    Except ProxyError RunningState → PmM StartReport
  | .ok state => do
    let m ← takePending m
    pure ⟨{ m with posture := .session state, activeConfig := some config, lastError := none },
      none, some lockdownOn⟩
  | .error .cancelled => do
    let m ← takePending m
    pure ⟨m, some .cancelled, some lockdownOn⟩
  | .error e => pure ⟨{ m with lastError := some e.display }, some e, some lockdownOn⟩

/-- A start once its server's address is known. -/
def startResolved (effective : EffectiveEch) (m : Manager) (config : ProxyConfig)
    (covered : Bool) (serverIp : IpAddr) (pin : PinSource) : PmM StartReport := do
  let permit := echResolverPermit effective config pin
  let lockdownOn ← standingCoverExpected m
  let m ← settleCover m config covered lockdownOn serverIp pin permit
  let result ← startInner config serverIp m.stateDir lockdownOn
  concludeStart m config lockdownOn result

/-- A start that finds no session: drop what is invalidated or another server's, then resolve. -/
def startFresh (effective : EffectiveEch) (m : Manager) (config : ProxyConfig) (covered : Bool) :
    PmM StartReport := do
  let invalidated : Bool ← perform PmOp.swapInvalidated
  let m ← takePendingIf invalidated m
  let m := { m with deathReason := none }
  let m ← takePendingIf (m.posture.pending.any (·.host ≠ config.server.server)) m
  match ← resolveOrReuse m config with
  | .error .cancelled => pure ⟨m, some .cancelled, none⟩
  | .error e => pure ⟨{ m with lastError := some e.display }, some e, none⟩
  | .ok (serverIp, pin) => startResolved effective m config covered serverIp pin

/-- `start_cancellable`. -/
def startCancellable (effective : EffectiveEch) (m : Manager) (config : ProxyConfig)
    (covered : Bool) : PmM StartReport :=
  if m.posture.isSession then pure ⟨m, some .alreadyRunning, none⟩
  else startFresh effective m config covered

/-! ### Stops and reloads -/

/-- The fate of a pending start's cover. -/
def settlePending (b : BlockedStart) (event : SessionEvent) : PmM Unit :=
  match transientCoverDisposition event with
  | .releaseNow => perform (PmOp.dropCover b.cover)
  | .keepEngaged => perform (PmOp.disarmCover b.cover)

/-- The guard is forgotten, the filters stay. -/
def disarmLockdownGuard : Option Guard → PmM Unit
  | some g => perform (PmOp.disarmLockdown g)
  | none => pure ()

/-- `apply_cover_disposition`: a release is confirmed first, and only then is the claim given
up. -/
def applyCoverDisposition (m : Manager) (disposition : CoverDisposition)
    (lockdown : Option Guard) : PmM Manager :=
  match disposition with
  | .keepEngaged => do
    disarmLockdownGuard lockdown
    pure m
  | .releaseNow => do
    let released : Except RoutingError Unit ← perform PmOp.releaseAllCovers
    dropLockdownGuard lockdown
    pure (if released.isOk then { m with adoptedStandingCover := false } else m)

/-- What a stop leaves of the recorded reasons. -/
def Manager.clearReasons (m : Manager) : Manager :=
  { m with lastError := none, deathReason := none }

/-- The teardown of a session. -/
def stopSession (m : Manager) (s : RunningState) (event : SessionEvent)
    (target : Target ProxyConfig) : PmM (Manager × Except ProxyError Unit) := do
  let res : Except ProxyError Unit ← perform PmOp.stopProxy
  let presence : CoverPresence ← perform PmOp.lockdownCoverPresence
  let intent ← effectiveLockdownIntent m
  let m ← applyCoverDisposition { m with posture := .idle }
    (teardownCoverDisposition event intent presence target) s.lockdown
  let m := if event.preservesDeathReason then m else m.clearReasons
  pure ({ m with activeConfig := none }, res)

/-- `persist_session_event`. Without a file to consult the target is unreadable, which authorises
nothing. -/
def persistSessionEvent (m : Manager) (event : SessionEvent) : PmM (Target ProxyConfig) :=
  if m.stateDir then perform (PmOp.persistSessionEvent event)
  else pure (targetAfter .unreadable event)

/-- `stop_with`. -/
def stopWith (m : Manager) (event : SessionEvent) : PmM (Manager × Except ProxyError Unit) := do
  let target ← persistSessionEvent m event
  match m.posture with
  | .idle => pure (m, .ok ())
  | .pendingStart b =>
    settlePending b event
    pure ({ m.clearReasons with posture := .idle }, .ok ())
  | .session s => stopSession m s event target

/-- `reload`: a hot swap where only the filters differ, else a blip and an uncovered start. -/
def reload (effective : EffectiveEch) (m : Manager) (config : ProxyConfig) : PmM StartReport :=
  match m.activeConfig with
  | none => startCancellable effective m config false
  | some active =>
    if active.structuralSame config then
      pure ⟨{ m with activeConfig := some config }, none, none⟩
    else do
      match ← stopWith m .blipped with
      | (m, .error e) => pure ⟨m, some e, none⟩
      | (m, .ok ()) => startCancellable effective m config false

/-- `set_lockdown_intent`: without a state directory the switch cannot be persisted. -/
def setLockdownIntent (m : Manager) (enabled : Bool) : PmM (Except String Unit) :=
  if m.stateDir then perform (PmOp.setEnabled enabled)
  else pure (.error "cannot set lockdown intent: bridge has no state_dir to persist it")

/-- `turn_lockdown_off`: release, give the claim up, and only then move the intent. -/
def turnLockdownOff (m : Manager) : PmM (Manager × Except ProxyError Unit) := do
  let m ← takePending m
  match ← perform PmOp.releaseAllCovers with
  | .error e => pure (m, .error (.routing e))
  | .ok () =>
    let m := { m with adoptedStandingCover := false }
    match ← setLockdownIntent m false with
    | .error source => pure (m, .error (.lockdownIntentNotPersisted source))
    | .ok () => pure (m, .ok ())

end Hole.Bridge
