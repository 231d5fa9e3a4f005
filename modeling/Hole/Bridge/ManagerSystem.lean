import Hole.Effect.Machine
import Hole.Bridge.ProxyManager

/-!
# The proxy manager as a machine

Starts, stops, reloads and disarms in any order, over the covers of one host, the intent file,
the target file and the lock-free invalidation flag. An unblock and an out-of-process write of the
intent come between two acts, or in the middle of one, in front of a read of the intent.

`standing` says whether the standing cover is live on the host. What a call can do to it is the
platforms' behaviour taken together: a failed `install_lockdown` leaves it as it is, or has
committed it (Windows, a verification that fails after the commit), or has restored the host
(macOS, a ruleset that does not load); an operation on the transient cover may replace it (macOS
has one main ruleset). The history is a ghost.
-/

namespace Hole.Bridge

open Effect FailClosed

/-- How the host resolves a call. -/
inductive PmChoice
  | ok
  | resolved (b : Bootstrapped)
  | fail (e : ProxyError)
  /-- A cover operation fails and changes nothing. -/
  | routing (e : RoutingError)
  /-- A cover operation fails after its filters were committed. -/
  | committed (e : RoutingError)
  /-- A cover operation fails and restores the host's own rules. -/
  | unwound (e : RoutingError)
  /-- A cover operation works and replaces the standing ruleset. -/
  | replaces
  /-- Another process wrote the intent before it was read. -/
  | intent (i : Intent)
  /-- An unblock came before the intent was read. -/
  | unblock
  | presence (p : CoverPresence)
  | store (kind : String)
  | unreadable
  | panicked

/-- An event of the history. -/
inductive PmEvent
  /-- `resolve_server_ip` answered. -/
  | resolved (serverIp : IpAddr) (via : PinSource)
  /-- `install_failclosed_cover` was called, and the guard it gave. -/
  | engage (serverIp : IpAddr) (resolverIp : Option IpAddr) (guard : Option Guard)
  | dropped (g : Guard)
  | disarmed (g : Guard)
  /-- `install_lockdown` was called, and the guard it gave. -/
  | installLockdown (serverIp : IpAddr) (guard : Option Guard)
  /-- `install_lockdown` failed and restored the host's rules. -/
  | lockdownUnwound
  /-- `Dns::apply` failed; `held` says that the start held a standing guard. -/
  | dnsApplyFailed (held : Bool)
  | intentChanged (i : Intent)
  | unblocked
  /-- A start ended, with whether it was covered, whether a standing cover was expected where it
  got that far, its error, and whether it left a pending start. -/
  | startEnded (covered : Bool) (lockdownOn : Option Bool) (error : Option ProxyError)
    (pending : Bool)
  | crashed
  deriving DecidableEq

/-- The manager of the running process, the host and the files. -/
structure World where
  manager : Manager
  /-- The lock-free flag an unblock sets. -/
  invalidated : Bool
  intent : Intent
  target : Target ProxyConfig
  /-- The standing cover is live. -/
  standing : Bool
  /-- The standing cover has been live. -/
  wasLive : Bool
  /-- The process holds a guard over the standing cover. -/
  lockdownHeld : Bool
  nextGuard : Guard
  /-- What has happened, newest event first. -/
  log : List PmEvent

namespace World

/-- Set whether the standing cover is live. -/
def setStanding (w : World) (b : Bool) : World :=
  { w with standing := b, wasLive := w.wasLive || b }

/-- Record an event. -/
def record (w : World) (e : PmEvent) : World := { w with log := e :: w.log }

/-- `handle_unblock`: the flag, the release of every cover, and the records. -/
def unblock (w : World) : World :=
  ({ w with invalidated := true, intent := .off, target := .off }.setStanding false).record
    .unblocked

/-- An out-of-process write of the intent. -/
def setIntent (w : World) (i : Intent) : World := { w with intent := i }.record (.intentChanged i)

end World

/-- What another process does in front of a read of the intent. -/
def World.beforeIntent (w : World) : PmChoice → World
  | .intent i => w.setIntent i
  | .unblock => w.unblock
  | _ => w

/-- Whether a transient cover is engaged under a choice. -/
def PmChoice.engages : PmChoice → Bool
  | ok => true
  | replaces => true
  | _ => false

/-- The error of a failed cover operation. -/
def PmChoice.routingError : PmChoice → RoutingError
  | routing e => e
  | committed e => e
  | unwound e => e
  | _ => .routeSetup ""

/-- The outcome of a phase or of the stop of the proxy. -/
def PmChoice.outcome : PmChoice → Except ProxyError Unit
  | ok => .ok ()
  | fail e => .error e
  | _ => .error (.phase "")

/-- What a transient operation leaves of the standing cover. -/
def World.afterTransient (w : World) : PmChoice → World
  | .replaces => w.setStanding false
  | .unwound _ => w.setStanding false
  | _ => w

/-- What each call answers. -/
def pmAnswer (w : World) : (o : PmOp) → PmChoice → o.Ans
  | .swapInvalidated, _ => w.invalidated
  | .resolve _, c =>
    match c with
    | .resolved b => Except.ok b
    | .fail e => Except.error e
    | _ => Except.error (ProxyError.phase "")
  | .loadIntent, c => (w.beforeIntent c).intent
  | .setEnabled _, c =>
    match c with
    | .ok => Except.ok ()
    | .store kind => Except.error kind
    | _ => Except.error ""
  | .installFailclosedCover _ _, c =>
    if c.engages then Except.ok w.nextGuard else Except.error c.routingError
  | .dropCover _, _ => ()
  | .disarmCover _, _ => ()
  | .installLockdown _, c =>
    match c with
    | .ok => Except.ok w.nextGuard
    | _ => Except.error c.routingError
  | .dropLockdown _, _ => ()
  | .disarmLockdown _, _ => ()
  | .releaseAllCovers, c =>
    match c with
    | .ok => Except.ok ()
    | _ => Except.error c.routingError
  | .lockdownCoverPresence, c =>
    match c with
    | .presence p => p
    | _ => if w.standing then CoverPresence.live else CoverPresence.absent
  | .phase _, c => c.outcome
  | .persistSessionEvent event, c =>
    match c with
    | .unreadable => targetAfter Target.unreadable event
    | .panicked => Target.unreadable
    | .store _ => w.target
    | _ => targetAfter w.target event
  | .stopProxy, c => c.outcome

/-- What each call does. -/
def pmNext (w : World) : PmOp → PmChoice → World
  | .swapInvalidated, _ => { w with invalidated := false }
  | .resolve _, c =>
    match c with
    | .resolved b => w.record (.resolved b.serverIp b.via)
    | _ => w
  | .loadIntent, c => w.beforeIntent c
  | .setEnabled enabled, c =>
    match c with
    | .ok => { w with intent := if enabled then .on else .off }
    | _ => w
  | .installFailclosedCover ip resolver, c =>
    if c.engages then
      { (w.afterTransient c).record (.engage ip resolver (some w.nextGuard)) with
        nextGuard := w.nextGuard + 1 }
    else (w.afterTransient c).record (.engage ip resolver none)
  | .dropCover g, c => (w.afterTransient c).record (.dropped g)
  | .disarmCover g, _ => w.record (.disarmed g)
  | .installLockdown ip, c =>
    match c with
    | .ok =>
      { (w.setStanding true).record (.installLockdown ip (some w.nextGuard)) with
        lockdownHeld := true
        nextGuard := w.nextGuard + 1 }
    | .committed _ => (w.setStanding true).record (.installLockdown ip none)
    | .unwound _ =>
      ((w.setStanding false).record (.installLockdown ip none)).record .lockdownUnwound
    | _ => w.record (.installLockdown ip none)
  | .dropLockdown _, c =>
    match c with
    | .ok => { w.setStanding false with lockdownHeld := false }
    | _ => { w with lockdownHeld := false }
  | .disarmLockdown _, _ => { w with lockdownHeld := false }
  | .releaseAllCovers, c =>
    match c with
    | .ok => w.setStanding false
    | .unwound _ => w.setStanding false
    | _ => w
  | .lockdownCoverPresence, _ => w
  | .phase p, c =>
    match p, c with
    | _, .ok => w
    | .dnsApply, _ => w.record (.dnsApplyFailed w.lockdownHeld)
    | _, _ => w
  | .persistSessionEvent event, c =>
    match c with
    | .unreadable =>
      { w with
        target := match targetAfter (κ := ProxyConfig) .unreadable event with
          | .off => .off
          | _ => w.target }
    | .panicked => w
    | .store _ => w
    | _ => { w with target := targetAfter w.target event }
  | .stopProxy, _ => w

/-- The host. -/
def pmHost : Env PmOp PmOp.Ans World PmChoice where
  answer := pmAnswer
  next := pmNext

/-- What the bridge can have the manager do, and what can happen to it. -/
inductive PmAct
  /-- `start_cancellable`. -/
  | start (config : ProxyConfig) (covered : Bool)
  | stop (event : SessionEvent)
  | reload (config : ProxyConfig)
  | turnLockdownOff
  /-- The lock-free unblock. -/
  | unblock
  /-- An out-of-process write of the intent. -/
  | setIntent (i : Intent)
  | crash

/-- What a completed act leaves: the manager, and a start's end for the history. -/
structure PmOutcome where
  manager : Manager
  ended : Option PmEvent

/-- The outcome of a start. -/
def PmOutcome.ofStart (covered : Bool) (r : StartReport) : PmOutcome :=
  ⟨r.manager, some (.startEnded covered r.lockdownOn r.error r.manager.posture.pending.isSome)⟩

/-- A manager after a process start. -/
def Manager.fresh (stateDir : Bool) : Manager :=
  { posture := .idle
    activeConfig := none
    lastError := none
    deathReason := none
    adoptedStandingCover := false
    stateDir }

/-- What a crash loses: the guards go without being dropped, the flag with the process. -/
def World.crash (w : World) : World :=
  { w.record .crashed with
    manager := .fresh w.manager.stateDir
    invalidated := false
    lockdownHeld := false }

/-- The manager machine. -/
def pmMachine (effective : EffectiveEch) :
    Machine PmOp PmOp.Ans World PmChoice PmAct PmOutcome where
  env _ := pmHost
  body w
    | .start config covered => some do
      pure (.ofStart covered (← startCancellable effective w.manager config covered))
    | .stop event => some do
      let (m, _) ← stopWith w.manager event
      pure ⟨m, none⟩
    | .reload config => some do
      pure (.ofStart false (← reload effective w.manager config))
    | .turnLockdownOff => some do
      let (m, _) ← turnLockdownOff w.manager
      pure ⟨m, none⟩
    | .unblock => some (pure ⟨w.manager, none⟩)
    | .setIntent _ => some (pure ⟨w.manager, none⟩)
    | .crash => some (pure ⟨w.manager, none⟩)
  finish w act r :=
    let w := { w with manager := r.manager, log := r.ended.toList ++ w.log }
    match act with
    | .unblock => w.unblock
    | .setIntent i => w.setIntent i
    | .crash => w.crash
    | _ => w
  crash w := w.crash

/-- A process start over a host: what recovery adopted, the files, and the standing cover. -/
def World.start (stateDir adopted standing : Bool) (intent : Intent)
    (target : Target ProxyConfig) : World where
  manager := { Manager.fresh stateDir with adoptedStandingCover := adopted }
  invalidated := false
  intent := intent
  target := target
  standing := standing
  wasLive := standing
  lockdownHeld := false
  nextGuard := 0
  log := []

end Hole.Bridge
