import Hole.Effect.Prog
import Hole.Routing.Commands

/-!
# Installing, tearing down and recovering routes

The four paths that rewrite the route record (`tun-engine/src/routing.rs`): the checkpointed
install with its rollback, the teardown of the guard an install returns, the sweep an install
runs over what earlier sessions left, and crash recovery; with them the gateway lookup, which
deletes a leftover bypass before it asks the host for a route.

All of them are programs over the same few calls: a route command, and a read, write or removal
of the record. In-memory records (`persisted` in the source) are threaded explicitly.
-/

namespace Hole.Routing

open Effect
open Prog (perform)

/-- How a single route command failed. -/
inductive CommandFailure
  | spawn (error : String)
  | exit (code : Int)
  deriving DecidableEq

/-- The best-effort phases a delete is issued in. -/
inductive BestEffortPhase
  | teardown
  | recoverSplit
  | recoverBypass
  deriving DecidableEq

/-- A store operation on the record that did not land. -/
inductive StoreError
  | io (kind : String)
  | unreadable (cause : String)
  | readFailed (kind : String)
  | encode (what : String)

/-- A checkpoint that did not land, as the install sees it. -/
inductive CheckpointFailure
  | io (kind : String)
  | recordUnreadable
  deriving DecidableEq

/-- What a caller that acts on route records finds in the file. -/
inductive Found
  | records (st : RouteState)
  | nothing
  | unreadable (cause : String)

/-- What a removal left of the record. -/
inductive Cleared
  | gone
  | kept

/-- The calls the routing code makes. -/
inductive RouteOp
  | setup (argv : Argv)
  /-- A teardown or recovery command. -/
  | teardown (argv : Argv) (phase : BestEffortPhase)
  | read
  | write (st : RouteState)
  | remove
  /-- Ask whether the TUN has an IPv6 binding. -/
  | tunIpv6Available (tunName : String)

/-- What each call answers. A command answers whether its effect is confirmed. -/
def RouteOp.Ans : RouteOp → Type
  | setup _ => Except CommandFailure Unit
  | teardown _ _ => Except CommandFailure Unit
  | read => Found
  | write _ => Except StoreError Unit
  | remove => Except StoreError Cleared
  | tunIpv6Available _ => Bool

/-- A program of the routing code. -/
abbrev RouteM := Prog RouteOp RouteOp.Ans

/-- A route command that did not succeed, with its position in the phase. -/
structure RouteCommandError where
  program : SystemTool
  /-- Zero-based position in the command list. -/
  index : Nat
  total : Nat
  failure : CommandFailure

/-- Why the setup phase stopped. -/
inductive SetupFailure
  | command (e : RouteCommandError)
  | checkpoint (e : CheckpointFailure)

/-- What an install fails with. -/
inductive RoutingError
  | gateway (e : GatewayError)
  | command (e : RouteCommandError)
  | checkpoint (kind : String)
  | incomplete (confirmed planned : Nat) (missing : List RouteId)
  | stateUnreadable

/-- `From<SetupFailure> for RoutingError`. -/
def SetupFailure.toRoutingError : SetupFailure → RoutingError
  | command e => .command e
  | checkpoint (.io kind) => .checkpoint kind
  | checkpoint .recordUnreadable => .stateUnreadable

/-- `checkpoint_failure`. -/
def checkpointFailure : StoreError → CheckpointFailure
  | .io kind => .io kind
  | .unreadable _ => .recordUnreadable
  | .readFailed _ => .recordUnreadable
  | .encode _ => .io "other"

/-- The guard an install returns. Dropping it tears the routes down. -/
structure SystemRoutes where
  tunName : String
  serverIp : IpAddr
  interfaceName : String
  /-- The gateway the session's routes were installed under. -/
  originalGateway : IpAddr
  /-- The form of the IPv4 bypass. -/
  routeForm : RouteForm
  /-- The routes `install` got into the table. -/
  installed : List RouteId
  /-- Groups carried forward from earlier sessions. -/
  stale : List StaleRecord

/-- The record a guard stands for: what its teardown starts from. -/
def SystemRoutes.toRouteState (g : SystemRoutes) : RouteState where
  tunName := g.tunName
  serverIp := g.serverIp
  interfaceName := g.interfaceName
  originalGateway := some g.originalGateway
  routeForm := g.routeForm
  installed := g.installed
  stale := g.stale

/-! ### Single commands and checkpoints -/

/-- Issue a setup command. -/
def runSetup (argv : Argv) : RouteM (Except CommandFailure Unit) :=
  perform (RouteOp.setup argv)

/-- Issue a delete. -/
def runDelete (argv : Argv) (phase : BestEffortPhase) : RouteM (Except CommandFailure Unit) :=
  perform (RouteOp.teardown argv phase)

/-- `state::read`. -/
def readRecord : RouteM Found := perform RouteOp.read

/-- `state::write`. -/
def writeRecord (st : RouteState) : RouteM (Except StoreError Unit) :=
  perform (RouteOp.write st)

/-- `state::remove`. -/
def removeRecord : RouteM (Except StoreError Cleared) := perform RouteOp.remove

/-- `tun_ipv6_available`. -/
def tunIpv6Available (tunName : String) : RouteM Bool :=
  perform (RouteOp.tunIpv6Available tunName)

/-- Write the record, with a failure logged and otherwise ignored. -/
def tryWrite (st : RouteState) : RouteM Unit := do
  let _ ← writeRecord st
  pure ()

/-- Delete the record, with a failure logged and otherwise ignored. -/
def tryRemove : RouteM Unit := do
  let _ ← removeRecord
  pure ()

/-- `run_teardown_command`: whether the route is now confirmed gone. -/
def runTeardownCommand (cmd : RouteCommand) (phase : BestEffortPhase) : RouteM Bool := do
  match ← runDelete cmd.toArgv phase with
  | .ok () => pure true
  | .error _ => pure false

/-- `checkpoint_installed`: advance the record's own routes on disk, keeping the previous value
in memory if the write fails. -/
def checkpointInstalled (persisted : RouteState) (ids : List RouteId) :
    RouteM (RouteState × Except CheckpointFailure Unit) := do
  let next := { persisted with installed := ids }
  match ← writeRecord next with
  | .ok () => pure (next, .ok ())
  | .error e => pure (persisted, .error (checkpointFailure e))

/-! ### Setup -/

/-- `run_setup_commands`, from command `index` on: each command is recorded before it runs, and
again once its outcome is known. Returns the routes confirmed, the record as last written, and
why the phase stopped, if it did. -/
def runSetupCommands (total : Nat) (index : Nat) :
    List SetupCommand → List RouteId → RouteState →
      RouteM (List RouteId × RouteState × Except SetupFailure Unit)
  | [], installed, persisted => pure (installed, persisted, .ok ())
  | cmd :: cmds, installed, persisted => do
    let (persisted, recorded) ← checkpointInstalled persisted (installed ++ [cmd.id])
    match recorded with
    | .error e => pure (installed, persisted, .error (.checkpoint e))
    | .ok () =>
      match ← runSetup cmd.toArgv with
      | .ok () =>
        let (persisted, _) ← checkpointInstalled persisted (installed ++ [cmd.id])
        runSetupCommands total (index + 1) cmds (installed ++ [cmd.id]) persisted
      | .error failure =>
        if cmd.fatal then
          let stopped : SetupFailure := .command ⟨cmd.tool, index, total, failure⟩
          match failure with
          | .spawn _ =>
            -- the command never ran: its speculative entry stays on disk
            pure (installed, persisted, .error stopped)
          | .exit _ =>
            let (persisted, _) ← checkpointInstalled persisted installed
            pure (installed, persisted, .error stopped)
        else
          let (persisted, _) ← checkpointInstalled persisted installed
          runSetupCommands total (index + 1) cmds installed persisted

/-- `setup_routes`. -/
def setupRoutes (plat : Platform) (tunName : String) (serverIp : IpAddr) (gateway : GatewayInfo)
    (persisted : RouteState) :
    RouteM (List RouteId × RouteState × Except SetupFailure Unit) := do
  let ipv6 ← tunIpv6Available tunName
  let commands := buildSetupCommands plat tunName serverIp gateway ipv6
  runSetupCommands commands.length 0 commands [] persisted

/-! ### Teardown -/

/-- One round of `run_teardown_commands`: a delete, and the checkpoint of what is left. -/
def teardownRound (checkpoint : List RouteId → RouteM Unit) (still : List RouteId)
    (cmd : RouteCommand) : RouteM (List RouteId) := do
  let gone ← runTeardownCommand cmd .teardown
  let still := if gone then still.filter (· ≠ cmd.id) else still
  checkpoint still
  pure still

/-- `teardown_routes`: delete what `installed` lists, narrowing it as deletes are confirmed. -/
def teardownRoutes (plat : Platform) (i : RouteIdentity) (installed : List RouteId)
    (checkpoint : List RouteId → RouteM Unit) : RouteM (List RouteId) :=
  ((buildTeardownCommands plat i).filter (·.id ∈ installed)).foldlM (teardownRound checkpoint)
    installed

/-- `SystemRoutes::teardown_with`. -/
def teardownWith (plat : Platform) (g : SystemRoutes) : RouteM Unit := do
  let persisted := g.toRouteState
  let remaining ← teardownRoutes plat persisted.toRouteIdentity g.installed fun ids ↦
    tryWrite { persisted with installed := ids }
  if remaining.isEmpty && g.stale.isEmpty then
    tryRemove
  else pure ()

/-! ### Recovery of groups -/

/-- Take a confirmed delete out of a group whose own command for that route is the same one. -/
def StaleRecord.narrow (commandsOf : RouteIdentity → List RouteCommand) (cmd : RouteCommand)
    (g : StaleRecord) : StaleRecord :=
  if cmd.id ∈ g.installed ∧ cmd ∈ commandsOf g.toRouteIdentity then
    { g with installed := g.installed.filter (· ≠ cmd.id) }
  else g

/-- One delete of `recover_groups`: its confirmation narrows every group that names it. -/
def recoverRound (commandsOf : RouteIdentity → List RouteCommand) (phase : BestEffortPhase)
    (checkpoint : List StaleRecord → RouteM Unit) (acc : List StaleRecord × List Argv)
    (cmd : RouteCommand) : RouteM (List StaleRecord × List Argv) := do
  let gone ← runTeardownCommand cmd phase
  let groups := if gone then acc.1.map (·.narrow commandsOf cmd) else acc.1
  checkpoint groups
  pure (groups, acc.2 ++ [cmd.toArgv])

/-- The deletes group `i` still has to issue: listed, and not issued for an earlier group. -/
def pendingCommands (commandsOf : RouteIdentity → List RouteCommand)
    (acc : List StaleRecord × List Argv) (i : Nat) : List RouteCommand :=
  match acc.1[i]? with
  | some g => (commandsOf g.toRouteIdentity).filter fun c ↦
      c.id ∈ g.installed ∧ c.toArgv ∉ acc.2
  | none => []

/-- One of the two loops of `recover_groups`, over every group in order. -/
def recoverPass (commandsOf : RouteIdentity → List RouteCommand) (phase : BestEffortPhase)
    (checkpoint : List StaleRecord → RouteM Unit) (groups : List StaleRecord) :
    RouteM (List StaleRecord) := do
  let (groups, _) ← (List.range groups.length).foldlM
    (fun acc i ↦ (pendingCommands commandsOf acc i).foldlM
      (recoverRound commandsOf phase checkpoint) acc)
    (groups, [])
  pure groups

/-- `recover_groups`: every group's split deletes, then every group's bypass delete. -/
def recoverGroups (plat : Platform) (groups : List StaleRecord)
    (checkpoint : List StaleRecord → RouteM Unit) : RouteM (List StaleRecord) := do
  let groups ← recoverPass (fun i ↦ buildSplitRouteTeardownCommands plat i.tunName) .recoverSplit
    checkpoint groups
  recoverPass (fun i ↦ (platformBypassTeardownCommand plat i).toList) .recoverBypass
    checkpoint groups

/-- `sweep_leftover_before_install`: what earlier sessions left, swept and carried forward in
the fresh record's `stale`. -/
def sweepLeftoverBeforeInstall (plat : Platform) (persisted : RouteState) :
    RouteM (Except RoutingError RouteState) := do
  match ← readRecord with
  | .unreadable _ => pure (.error .stateUnreadable)
  | .nothing => pure (.ok persisted)
  | .records leftover =>
    let groups := coalesce (if leftover.installed.isEmpty then leftover.stale else leftover.groups)
    if groups.isEmpty then pure (.ok persisted)
    else
      tryWrite { persisted with stale := groups }
      let swept ← recoverGroups plat groups fun updated ↦
        tryWrite { persisted with stale := updated }
      let persisted := { persisted with stale := swept.filter (!·.installed.isEmpty) }
      tryWrite persisted
      pure (.ok persisted)

/-! ### Gateway lookup -/

/-- `run_stale_bypass_delete`: the narrowed routes, and whether they changed. -/
def runStaleBypassDelete (plat : Platform) (i : RouteIdentity) (installed : List RouteId) :
    RouteM (List RouteId × Bool) :=
  if .serverBypass ∈ installed then
    match platformBypassTeardownCommand plat i with
    | none => pure (installed, false)
    | some cmd => do
      if ← runTeardownCommand cmd .recoverBypass then
        pure (installed.filter (· ≠ .serverBypass), true)
      else pure (installed, false)
  else pure (installed, false)

/-- The bypass delete of one group, if the group's server is the one looked up. -/
def clearGroup (plat : Platform) (dest : IpAddr) (g : StaleRecord) :
    RouteM (StaleRecord × Bool) :=
  if g.serverIp = dest then do
    let (installed, changed) ← runStaleBypassDelete plat g.toRouteIdentity g.installed
    pure ({ g with installed := installed }, changed)
  else pure (g, false)

/-- The loop of `clear_stale_server_bypass` over the stale groups. -/
def clearGroups (plat : Platform) (dest : IpAddr) :
    List StaleRecord → RouteM (List StaleRecord × Bool)
  | [] => pure ([], false)
  | g :: gs => do
    let (g, changed) ← clearGroup plat dest g
    let (gs, rest) ← clearGroups plat dest gs
    pure (g :: gs, changed || rest)

/-- `clear_stale_server_bypass`: the deletes a gateway lookup for `dest` issues first. -/
def clearStaleServerBypass (plat : Platform) (dest : IpAddr) : RouteM Unit := do
  match ← readRecord with
  | .unreadable _ => pure ()
  | .nothing => pure ()
  | .records leftover =>
    let (own, changedOwn) ← clearGroup plat dest leftover.primary
    let (stale, changedStale) ← clearGroups plat dest leftover.stale
    if changedOwn || changedStale then
      tryWrite { leftover with
        installed := own.installed, stale := stale.filter (!·.installed.isEmpty) }
    else pure ()

/-! ### Install -/

/-- `rollback_and_record`: delete what was confirmed, and keep recorded what could not be
confirmed gone together with what may or may not have gone in. -/
def rollbackAndRecord (plat : Platform) (confirmed : List RouteId) (persisted : RouteState)
    (extraUnconfirmed : List RouteId) : RouteM Unit := do
  tryWrite { persisted with installed := unionIds confirmed extraUnconfirmed }
  let remaining ← teardownRoutes plat persisted.toRouteIdentity confirmed fun ids ↦
    tryWrite { persisted with installed := unionIds ids extraUnconfirmed }
  let finalRemaining := unionIds remaining extraUnconfirmed
  if finalRemaining.isEmpty && persisted.stale.isEmpty then
    tryRemove
  else tryWrite { persisted with installed := finalRemaining }

/-- `SystemRouting::install_with`. -/
def installWith (plat : Platform) (tunName : String) (serverIp : IpAddr)
    (gateway : GatewayInfo) : RouteM (Except RoutingError SystemRoutes) := do
  let template : RouteState := ⟨identityOf tunName serverIp gateway, [], []⟩
  match ← sweepLeftoverBeforeInstall plat template with
  | .error e => pure (.error e)
  | .ok persisted =>
    let (installed, persisted, result) ← setupRoutes plat tunName serverIp gateway persisted
    let uncertain := persisted.installed.filter (· ∉ installed)
    match result with
    | .error e =>
      rollbackAndRecord plat installed persisted uncertain
      pure (.error e.toRoutingError)
    | .ok () =>
      let planned := plannedRoutes serverIp
      if installed.length ≠ planned.length then
        rollbackAndRecord plat installed persisted uncertain
        pure (.error (.incomplete installed.length planned.length (planned.filter (· ∉ installed))))
      else
        pure (.ok
          { tunName, serverIp
            interfaceName := gateway.interfaceName
            originalGateway := gateway.gatewayIp
            routeForm := routeFormOf gateway
            installed
            stale := persisted.stale })

/-! ### Crash recovery -/

/-- The record recovery checkpoints: the group of the record's own identity in the primary slot,
every other group as stale. -/
def RouteState.ofGroups (i : RouteIdentity) (groups : List StaleRecord) : RouteState where
  toRouteIdentity := i
  installed := ((groups.find? (·.toRouteIdentity = i)).map (·.installed)).getD []
  stale := groups.filter (·.toRouteIdentity ≠ i)

/-- `recover_routes_with`, its route half: every group of the record of a crashed run. -/
def recoverRoutesWith (plat : Platform) : RouteM Unit := do
  match ← readRecord with
  | .unreadable _ => pure ()
  | .nothing => pure ()
  | .records loaded =>
    let i := loaded.toRouteIdentity
    let finalGroups ← recoverGroups plat (coalesce loaded.groups) fun groups ↦
      tryWrite (.ofGroups i groups)
    let persisted := RouteState.ofGroups i finalGroups
    let persisted := { persisted with stale := persisted.stale.filter (!·.installed.isEmpty) }
    if persisted.installed.isEmpty && persisted.stale.isEmpty then
      tryRemove
    else tryWrite persisted

end Hole.Routing
