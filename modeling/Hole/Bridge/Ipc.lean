import Hole.Bridge.Target
import Hole.Effect.Pool
import Hole.Gui.AppConfig

/-!
# The IPC handlers

The request handlers of `bridge/src/ipc.rs` that share the start slot, the proxy lock and the
persisted records: start, cancel, stop, reload, status, metrics and unblock. Each is a program
over the shared state, one call for each critical section, file update or await, and a pool runs
any number of them. A handler whose client closes the connection is **dropped at an await**: its
lock guard goes with it, while a closure it handed to `spawn_blocking` runs on to its end.

The proxy lock is tokio's, so it is first come, first served: `queue` is its line, and who stands
first holds it. What the proxy manager does inside a call (`start_cancellable`, `reload`, a
teardown) is left to the environment, as is the fate of every file update. The history is a ghost
that only statements read.
-/

namespace Hole.Bridge

export Gui (StartupBehavior)

/-- `StartupPreference`, over the configuration type. -/
structure StartupPreference (κ : Type) where
  onStartup : StartupBehavior
  /-- The configuration that `AlwaysConnect` falls back on. -/
  candidate : Option κ

/-- `resolve_startup_target`. -/
def resolveStartupTarget {κ : Type} (persisted : Target κ) (behavior : StartupBehavior)
    (candidate : Option κ) : Target κ :=
  match behavior with
  | .doNotConnect => .off
  | .restoreLastState => persisted
  | .alwaysConnect =>
    match persisted with
    | .connected config => .connected config
    | .off | .unreadable =>
      match candidate with
      | some config => .connected config
      | none => persisted

end Hole.Bridge

namespace Hole.Bridge.Ipc

open Effect FailClosed

/-! ### The start slot -/

/-- `StartCancelState`. A token is named by the handler that made it. -/
structure StartCancelState where
  /-- The start in flight: its attempt and its token. -/
  inFlight : Option (String × Nat)
  /-- A cancel that found no start to cancel. -/
  preArmed : Option String

/-- What the first critical section of `handle_start` decides. -/
inductive RegisterOutcome
  /-- The attempt was cancelled before it arrived. -/
  | consumed
  | concurrent
  | registered
  deriving DecidableEq

/-- The first critical section of `handle_start`: consume, reject, self-heal, register. -/
def StartCancelState.register (cs : StartCancelState) (id : String) (token : Nat) :
    RegisterOutcome × StartCancelState :=
  if id ≠ "" ∧ cs.preArmed = some id then (.consumed, { cs with preArmed := none })
  else if cs.inFlight.isSome then (.concurrent, cs)
  else (.registered, ⟨some (id, token), none⟩)

/-- What a registration does. -/
theorem StartCancelState.register_cases (cs : StartCancelState) (id : String) (token : Nat) :
    (id ≠ "" ∧ cs.preArmed = some id ∧
      cs.register id token = (.consumed, { cs with preArmed := none })) ∨
    (¬(id ≠ "" ∧ cs.preArmed = some id) ∧ cs.inFlight ≠ none ∧
      cs.register id token = (.concurrent, cs)) ∨
    (¬(id ≠ "" ∧ cs.preArmed = some id) ∧ cs.inFlight = none ∧
      cs.register id token = (.registered, ⟨some (id, token), none⟩)) := by
  by_cases harmed : id ≠ "" ∧ cs.preArmed = some id
  · exact .inl ⟨harmed.1, harmed.2, if_pos harmed⟩
  · rcases hflight : cs.inFlight with - | x
    · exact .inr (.inr ⟨harmed, rfl, by simp [register, harmed, hflight]⟩)
    · exact .inr (.inl ⟨harmed, nofun, by simp [register, harmed, hflight]⟩)

/-- The last critical section of `handle_start`. -/
def StartCancelState.clear (cs : StartCancelState) : StartCancelState :=
  { cs with inFlight := none }

/-- What the `debug_assert` of the clear asks. -/
def StartCancelState.holds (cs : StartCancelState) (id : String) : Bool :=
  cs.inFlight.any (·.1 = id)

/-- What a cancel does. -/
inductive CancelOutcome
  | hit (token : Nat)
  | armed
  | ignored
  deriving DecidableEq

/-- The start that a cancel names, if it is in flight. -/
def StartCancelState.named (cs : StartCancelState) (id : String) : Option Nat :=
  cs.inFlight.bind fun (cur, token) ↦ if id ≠ "" ∧ cur = id then some token else none

/-- The critical section of `handle_cancel`. -/
def StartCancelState.cancel (cs : StartCancelState) (id : String) :
    CancelOutcome × StartCancelState :=
  match cs.named id with
  | some token => (.hit token, cs)
  | none => if id ≠ "" then (.armed, { cs with preArmed := some id }) else (.ignored, cs)

/-- What a cancel does. -/
theorem StartCancelState.cancel_cases (cs : StartCancelState) (id : String) :
    (∃ token, id ≠ "" ∧ cs.inFlight = some (id, token) ∧ cs.cancel id = (.hit token, cs)) ∨
    (id ≠ "" ∧ (∀ token, cs.inFlight ≠ some (id, token)) ∧
      cs.cancel id = (.armed, { cs with preArmed := some id })) ∨
    (id = "" ∧ cs.cancel id = (.ignored, cs)) := by
  rcases eq_or_ne id "" with rfl | hid
  · have hnamed : cs.named "" = none := by
      rcases hflight : cs.inFlight with - | ⟨cur, token⟩ <;> simp [named, hflight]
    exact .inr (.inr ⟨rfl, by simp [cancel, hnamed]⟩)
  · rcases hflight : cs.inFlight with - | ⟨cur, token⟩
    · have hnamed : cs.named id = none := by simp [named, hflight]
      exact .inr (.inl ⟨hid, nofun, by simp [cancel, hnamed, hid, hflight]⟩)
    · rcases eq_or_ne cur id with rfl | hne
      · have hnamed : cs.named cur = some token := by simp [named, hflight, hid]
        exact .inl ⟨token, hid, rfl, by simp [cancel, hnamed]⟩
      · have hnamed : cs.named id = none := by simp [named, hflight, hne]
        refine .inr (.inl ⟨hid, ?_, by simp [cancel, hnamed, hid, hflight]⟩)
        rintro token' ⟨rfl, -⟩
        exact hne rfl

/-! ### Requests and closures -/

variable {κ : Type}

/-- A request, with what its handler reads of it. -/
inductive Request (κ : Type)
  | start (id : String) (onStartup : Option StartupBehavior) (config : κ)
  | cancel (id : String)
  | stop
  | reload (config : κ)
  | status
  | metrics
  | unblock

/-- Whether a request is a start. -/
def Request.isStart : Request κ → Bool
  | start _ _ _ => true
  | _ => false

/-- A closure handed to `spawn_blocking`. -/
inductive Closure (κ : Type)
  /-- `persist_after_start`. -/
  | records (config : κ) (onStartup : Option StartupBehavior) (succeeded : Bool) (snapshot : Nat)
  /-- `persist_session_event`. -/
  | session (event : SessionEvent)
  /-- The writes of `handle_unblock`. -/
  | unblock
  /-- The presence probe of `handle_status`. -/
  | presence

/-- What a task is. -/
inductive Kind (κ : Type)
  | request (r : Request κ)
  | blocking (c : Closure κ)

/-- A response, or the result of a closure. -/
inductive Reply
  | ok
  | conflict
  | cancelled
  | failed

/-- The ways through `ProxyManager::reload`. -/
inductive ReloadPath
  /-- Nothing runs: a start. -/
  | start
  /-- The filters alone are swapped. -/
  | hotSwap
  /-- A stop and a start. -/
  | restart
  deriving DecidableEq

/-! ### Calls -/

/-- The calls of the handlers and of the closures. -/
inductive IpcOp (κ : Type)
  | register (id : String)
  | clear (id : String)
  | cancel (id : String)
  /-- A load of `unblock_generation`. -/
  | generation
  /-- The first poll of `proxy.lock()`. -/
  | queueProxy
  /-- The rest of `proxy.lock().await`. -/
  | acquireProxy
  | releaseProxy
  | startCancellable (config : κ)
  | reloadPath
  /-- `check_health`: did the session give up? -/
  | checkHealth
  /-- The rest of `stop_with`, after the target is persisted. -/
  | teardown
  | releaseAllCovers
  | spawnBlocking (c : Closure κ)
  | join (handle : Nat)
  | lockPersist
  | unlockPersist
  | bumpGeneration
  /-- `target::apply` of a session event. -/
  | applyEvent (event : SessionEvent)
  /-- `target::apply` of a start's record. -/
  | applyConnected (snapshot : Nat) (config : κ)
  /-- `target::apply` of an unblock. -/
  | applyOff
  /-- `apply_startup_preference` of a start that failed. -/
  | applyOnStartup (onStartup : Option StartupBehavior)
  /-- `apply_startup_preference` of a start's record. -/
  | applyRecord (onStartup : Option StartupBehavior) (snapshot : Nat) (config : κ) (declined : Bool)
  /-- `apply_startup_preference` of an unblock. -/
  | clearCandidate
  /-- `lockdown_state::set_enabled(false)`. -/
  | intentOff

/-- The answers. A file update answers whether it was stored. -/
@[reducible] def IpcOp.Ans : IpcOp κ → Type
  | register _ => RegisterOutcome
  | generation => Nat
  | startCancellable _ => Bool
  | reloadPath => ReloadPath
  | checkHealth => Bool
  | teardown => Bool
  | releaseAllCovers => Bool
  | spawnBlocking _ => Nat
  | join _ => Reply
  | applyEvent _ => Bool
  | applyConnected _ _ => Bool
  | applyOff => Bool
  | applyOnStartup _ => Bool
  | applyRecord _ _ _ _ => Bool
  | clearCandidate => Bool
  | intentOff => Bool
  | _ => Unit

/-- Programs of the IPC server. -/
abbrev IpcM (κ : Type) := Prog (IpcOp κ) IpcOp.Ans

/-- One call. -/
abbrev perform (o : IpcOp κ) : IpcM κ o.Ans := Prog.perform o

/-! ### Handlers -/

/-- `proxy.lock().await`. -/
def lockProxy : IpcM κ Unit := do
  perform .queueProxy
  perform .acquireProxy

/-- `spawn_blocking(..).await`. -/
def blocking (c : Closure κ) : IpcM κ Reply := do
  let handle : Nat ← perform (.spawnBlocking c)
  perform (.join handle)

/-- `persist_after_start`. -/
def persistAfterStart (config : κ) (onStartup : Option StartupBehavior) (succeeded : Bool)
    (unblockSnapshot : Nat) : IpcM κ Reply :=
  blocking (.records config onStartup succeeded unblockSnapshot)

/-- `handle_start`, once registered. -/
def startRegistered (id : String) (onStartup : Option StartupBehavior) (config : κ) :
    IpcM κ Reply := do
  let unblockSnapshot : Nat ← perform .generation
  lockProxy
  let succeeded : Bool ← perform (.startCancellable config)
  let _ ← persistAfterStart config onStartup succeeded unblockSnapshot
  perform .releaseProxy
  perform (.clear id)
  pure (if succeeded then .ok else .failed)

/-- `handle_start`. -/
def handleStart (id : String) (onStartup : Option StartupBehavior) (config : κ) :
    IpcM κ Reply := do
  let outcome : RegisterOutcome ← perform (.register id)
  match outcome with
  | .consumed => pure .cancelled
  | .concurrent => pure .conflict
  | .registered => startRegistered id onStartup config

/-- `handle_cancel`. -/
def handleCancel (id : String) : IpcM κ Reply := do
  perform (.cancel id)
  pure .ok

/-- `stop_with`: the target is persisted, then the session is torn down. -/
def stopWith (event : SessionEvent) : IpcM κ Bool := do
  let _ ← blocking (.session event)
  perform .teardown

/-- `handle_stop`. -/
def handleStop : IpcM κ Reply := do
  lockProxy
  let stopped ← stopWith .userStopped
  perform .releaseProxy
  pure (if stopped then .ok else .failed)

/-- `ProxyManager::reload`. -/
def reload (config : κ) : IpcM κ Bool := do
  let path : ReloadPath ← perform .reloadPath
  match path with
  | .start => perform (.startCancellable config)
  | .hotSwap => pure true
  | .restart => do
    let stopped ← stopWith .blipped
    if stopped then perform (.startCancellable config) else pure false

/-- `handle_reload`. -/
def handleReload (config : κ) : IpcM κ Reply := do
  let unblockSnapshot : Nat ← perform .generation
  lockProxy
  let succeeded ← reload config
  let _ ← persistAfterStart config none succeeded unblockSnapshot
  perform .releaseProxy
  pure (if succeeded then .ok else .failed)

/-- The health check of `handle_status` and `handle_metrics`. -/
def settleHealth : IpcM κ Unit := do
  let gaveUp : Bool ← perform .checkHealth
  if gaveUp then do
    let _ ← stopWith .gaveUp
    pure ()
  else pure ()

/-- `handle_status`. -/
def handleStatus : IpcM κ Reply := do
  lockProxy
  settleHealth
  perform .releaseProxy
  let _ ← blocking .presence
  pure .ok

/-- `handle_metrics`. -/
def handleMetrics : IpcM κ Reply := do
  lockProxy
  settleHealth
  perform .releaseProxy
  pure .ok

/-- `handle_unblock`. It takes no proxy lock. -/
def handleUnblock : IpcM κ Reply := do
  let released : Bool ← perform .releaseAllCovers
  if released then blocking .unblock else pure .failed

/-! ### Closures -/

/-- The target of a start's record. -/
def writeConnected (config : κ) (snapshot : Nat) (declined : Bool) : IpcM κ Bool :=
  if declined then pure true else perform (.applyConnected snapshot config)

/-- `write_start_records`. -/
def writeStartRecords (config : κ) (onStartup : Option StartupBehavior) (snapshot : Nat)
    (declined : Bool) : IpcM κ Bool := do
  let stored ← writeConnected config snapshot declined
  if stored then perform (.applyRecord onStartup snapshot config declined) else pure false

/-- The writes of `persist_after_start`, under `intent_persist`. -/
def writeRecords (config : κ) (onStartup : Option StartupBehavior) (succeeded : Bool)
    (snapshot : Nat) : IpcM κ Bool := do
  if succeeded then do
    let generation : Nat ← perform .generation
    writeStartRecords config onStartup snapshot (generation != snapshot)
  else if onStartup.isSome then perform (.applyOnStartup onStartup)
  else pure true

/-- The writes of `handle_unblock`, under `intent_persist`. -/
def writeUnblock : IpcM κ Bool := do
  let saved : Bool ← perform .applyOff
  if saved then do
    perform .bumpGeneration
    let off : Bool ← perform .intentOff
    if off then perform .clearCandidate else pure false
  else pure false

/-- A section under `intent_persist`. -/
def underPersist (body : IpcM κ Bool) : IpcM κ Reply := do
  perform .lockPersist
  let stored ← body
  perform .unlockPersist
  pure (if stored then .ok else .failed)

/-- A closure's program. -/
def Closure.body : Closure κ → IpcM κ Reply
  | records config onStartup succeeded snapshot =>
    underPersist (writeRecords config onStartup succeeded snapshot)
  | session event => do
    let stored : Bool ← perform (.applyEvent event)
    pure (if stored then .ok else .failed)
  | unblock => underPersist writeUnblock
  | presence => pure .ok

/-- A handler's program. -/
def Request.body : Request κ → IpcM κ Reply
  | start id onStartup config => handleStart id onStartup config
  | cancel id => handleCancel id
  | stop => handleStop
  | reload config => handleReload config
  | status => handleStatus
  | metrics => handleMetrics
  | unblock => handleUnblock

/-! ### The server -/

/-- How the environment resolves a call. -/
structure Choice where
  /-- Whether a start, a teardown, a release or a file update succeeds, or a session gave up. -/
  ok : Bool
  path : ReloadPath

/-- What a section under `intent_persist` was for. -/
inductive Section (κ : Type)
  /-- The records of a start or reload that succeeded, and whether they were declined. -/
  | records (snapshot : Nat) (config : κ) (declined : Bool)
  | unblock
  deriving DecidableEq

/-- An event of the history. -/
inductive Event (κ : Type)
  | registered (i : Nat) (id : String)
  | consumed (i : Nat) (id : String)
  | rejected (i : Nat) (id : String)
  | cleared (i : Nat)
  | cancel (i : Nat) (id : String) (outcome : CancelOutcome)
  /-- A handler lined up for the proxy lock. -/
  | queued (i : Nat)
  | succeeded (i : Nat)
  | released (i : Nat)
  /-- `handle_stop` returned `Ok`. -/
  | stopped (i : Nat)
  | bumped (generation : Nat)
  | wroteConnected (snapshot : Nat) (config : κ)
  | wroteOff
  | sessionEvent (event : SessionEvent)
  /-- A section made its last write, which for records is the candidate's. -/
  | settled (what : Section κ)
  deriving DecidableEq

/-- What the handlers share. -/
structure Shared (κ : Type) where
  startCancel : StartCancelState
  cancelled : List Nat
  /-- The line at the proxy lock; who stands first holds it. -/
  queue : List Nat
  /-- The holder of `intent_persist`. -/
  persist : Option Nat
  /-- `unblock_generation`: 64 bits in the source, which no run exhausts. -/
  generation : Nat
  /-- `bridge-target.json`. -/
  target : Target κ
  /-- `bridge-startup.json`. -/
  preference : StartupPreference κ
  /-- `bridge-lockdown.json`. -/
  intent : Intent
  results : Nat → Reply
  /-- The history, newest first. -/
  log : List (Event κ)

/-- The server before its first request, over what is on disk. -/
def Shared.init (target : Target κ) (preference : StartupPreference κ) (intent : Intent) :
    Shared κ where
  startCancel := ⟨none, none⟩
  cancelled := []
  queue := []
  persist := none
  generation := 0
  target := target
  preference := preference
  intent := intent
  results := fun _ ↦ .ok
  log := []

/-- The event of a registration. -/
def registerEvent (i : Nat) (id : String) : RegisterOutcome → Event κ
  | .consumed => .consumed i id
  | .concurrent => .rejected i id
  | .registered => .registered i id

/-- The tokens after a cancel. -/
def CancelOutcome.tokens (cancelled : List Nat) : CancelOutcome → List Nat
  | hit token => token :: cancelled
  | _ => cancelled

/-- A file update that is stored, with its events. -/
def Shared.storeIf (s : Shared κ) (stored : Bool) (s' : Shared κ) : Shared κ :=
  if stored then s' else s

/-- What each call does. -/
def ipcNext (s : Shared κ) (i : Nat) : IpcOp κ → Choice → Shared κ
  | .register id, _ =>
    { s with
      startCancel := (s.startCancel.register id i).2
      log := registerEvent i id (s.startCancel.register id i).1 :: s.log }
  | .clear _, _ => { s with startCancel := s.startCancel.clear, log := .cleared i :: s.log }
  | .cancel id, _ =>
    { s with
      startCancel := (s.startCancel.cancel id).2
      cancelled := (s.startCancel.cancel id).1.tokens s.cancelled
      log := .cancel i id (s.startCancel.cancel id).1 :: s.log }
  | .queueProxy, _ => { s with queue := s.queue ++ [i], log := .queued i :: s.log }
  | .releaseProxy, _ => { s with queue := s.queue.erase i }
  | .startCancellable _, c => s.storeIf c.ok { s with log := .succeeded i :: s.log }
  | .reloadPath, c =>
    s.storeIf (c.path = .hotSwap) { s with log := .succeeded i :: s.log }
  | .releaseAllCovers, c => s.storeIf c.ok { s with log := .released i :: s.log }
  | .lockPersist, _ => { s with persist := some i }
  | .unlockPersist, _ => { s with persist := none }
  | .bumpGeneration, _ =>
    { s with generation := s.generation + 1, log := .bumped (s.generation + 1) :: s.log }
  | .applyEvent event, c =>
    s.storeIf c.ok
      { s with target := targetAfter s.target event, log := .sessionEvent event :: s.log }
  | .applyConnected snapshot config, c =>
    s.storeIf c.ok
      { s with target := .connected config, log := .wroteConnected snapshot config :: s.log }
  | .applyOff, c => s.storeIf c.ok { s with target := .off, log := .wroteOff :: s.log }
  | .applyOnStartup onStartup, c =>
    s.storeIf c.ok
      { s with preference := ⟨onStartup.getD s.preference.onStartup, s.preference.candidate⟩ }
  | .applyRecord onStartup snapshot config declined, c =>
    s.storeIf c.ok
      { s with
        preference := ⟨onStartup.getD s.preference.onStartup,
          if declined then s.preference.candidate else some config⟩
        log := .settled (.records snapshot config declined) :: s.log }
  | .clearCandidate, c =>
    s.storeIf c.ok
      { s with
        preference := ⟨s.preference.onStartup, none⟩
        log := .settled .unblock :: s.log }
  | .intentOff, c => s.storeIf c.ok { s with intent := .off }
  | .generation, _ => s
  | .acquireProxy, _ => s
  | .checkHealth, _ => s
  | .teardown, _ => s
  | .spawnBlocking _, _ => s
  | .join _, _ => s

/-- The event of each call. -/
def ipcEvent (s : Shared κ) (i : Nat) : IpcOp κ → Choice → Option (Event κ)
  | .register id, _ => some (registerEvent i id (s.startCancel.register id i).1)
  | .clear _, _ => some (.cleared i)
  | .cancel id, _ => some (.cancel i id (s.startCancel.cancel id).1)
  | .queueProxy, _ => some (.queued i)
  | .startCancellable _, c => if c.ok then some (.succeeded i) else none
  | .reloadPath, c => if c.path = .hotSwap then some (.succeeded i) else none
  | .releaseAllCovers, c => if c.ok then some (.released i) else none
  | .bumpGeneration, _ => some (.bumped (s.generation + 1))
  | .applyEvent event, c => if c.ok then some (.sessionEvent event) else none
  | .applyConnected snapshot config, c =>
    if c.ok then some (.wroteConnected snapshot config) else none
  | .applyOff, c => if c.ok then some .wroteOff else none
  | .applyRecord _ snapshot config declined, c =>
    if c.ok then some (.settled (.records snapshot config declined)) else none
  | .clearCandidate, c => if c.ok then some (.settled .unblock) else none
  | _, _ => none

theorem log_next (s : Shared κ) (i : Nat) (o : IpcOp κ) (c : Choice) :
    (ipcNext s i o c).log = (ipcEvent s i o c).toList ++ s.log := by
  cases o with
  | reloadPath =>
    simp only [ipcNext, ipcEvent, Shared.storeIf, decide_eq_true_eq]
    split <;> rfl
  | _ =>
    rcases hok : c.ok <;> simp [ipcNext, ipcEvent, Shared.storeIf, hok]

/-- What each call answers. -/
def ipcAnswer (s : Shared κ) (i fresh : Nat) : (o : IpcOp κ) → Choice → o.Ans
  | .register id, _ => (s.startCancel.register id i).1
  | .generation, _ => s.generation
  | .startCancellable _, c => c.ok
  | .reloadPath, c => c.path
  | .checkHealth, c => c.ok
  | .teardown, c => c.ok
  | .releaseAllCovers, c => c.ok
  | .spawnBlocking _, _ => fresh
  | .join handle, _ => s.results handle
  | .applyEvent _, c => c.ok
  | .applyConnected _ _, c => c.ok
  | .applyOff, c => c.ok
  | .applyOnStartup _, c => c.ok
  | .applyRecord _ _ _ _, c => c.ok
  | .clearCandidate, c => c.ok
  | .intentOff, c => c.ok
  | .clear _, _ => ()
  | .cancel _, _ => ()
  | .queueProxy, _ => ()
  | .acquireProxy, _ => ()
  | .releaseProxy, _ => ()
  | .lockPersist, _ => ()
  | .unlockPersist, _ => ()
  | .bumpGeneration, _ => ()

/-- When a call can be made: a lock must be free, a closure awaited must have ended. -/
def ipcEnabled (s : Shared κ) (live : Nat → Bool) (i : Nat) : IpcOp κ → Bool
  | .acquireProxy => s.queue.head? = some i
  | .join handle => !live handle
  | .lockPersist => s.persist.isNone
  | _ => true

/-- The closure that a call starts. -/
def ipcFork : IpcOp κ → Option (Kind κ)
  | .spawnBlocking c => some (.blocking c)
  | _ => none

/-- The awaits of a handler. -/
def IpcOp.isAwait : IpcOp κ → Bool
  | acquireProxy => true
  | startCancellable _ => true
  | teardown => true
  | join _ => true
  | _ => false

/-- The updates of the files. -/
def IpcOp.isWrite : IpcOp κ → Bool
  | applyEvent _ | applyConnected _ _ | applyOff | applyOnStartup _ | applyRecord _ _ _ _
  | clearCandidate | intentOff => true
  | _ => false

/-- A closure is never dropped, a handler at its awaits. -/
def ipcDroppable : Kind κ → IpcOp κ → Bool
  | .request _, o => o.isAwait
  | .blocking _, _ => false

/-- A response, or the end of a closure. -/
def ipcFinish (s : Shared κ) (i : Nat) : Kind κ → Reply → Shared κ
  | .request .stop, .ok => { s with log := .stopped i :: s.log }
  | .request _, _ => s
  | .blocking _, r => { s with results := Function.update s.results i r }

/-- The IPC server. -/
def ipc (κ : Type) : System (IpcOp κ) IpcOp.Ans (Shared κ) Choice (Kind κ) Reply where
  body
    | .request r => r.body
    | .blocking c => c.body
  arrives
    | .request _ => true
    | .blocking _ => false
  enabled := ipcEnabled
  answer := ipcAnswer
  next s i _ := ipcNext s i
  fork := ipcFork
  droppable := ipcDroppable
  finish := ipcFinish
  cleanup s i _ := { s with queue := s.queue.erase i }

/-- A pool of the IPC server. -/
abbrev IpcPool (κ : Type) := Pool (IpcOp κ) IpcOp.Ans (Shared κ) (Kind κ) Reply

/-- If the next call of task `i` is a file update, it succeeds. -/
def WriteSucceeds (p : IpcPool κ) (i : Nat) (c : Choice) : Prop :=
  ∀ t o, p.tasks i = some t → t.prog.head? = some o → o.isWrite = true → c.ok = true

end Hole.Bridge.Ipc
