import Hole.Effect.Machine
import Hole.Routing.Install

/-!
# The routing system and its history

The routing code as a machine: crash recovery, gateway lookups, installs and guard teardowns in
any order, over the one record file. A lookup and a recovery are enabled in every state; an
install needs that no guard is live, as the bridge holds at most one session, and a teardown
consumes the live guard.

The machine keeps a **history** of what happened to the routing table and to the record, newest
event first. It is a ghost: nothing the code computes reads it, and every property of runs is
stated over it. A command that fails put no route in and took none out; a failed store operation
leaves the file as it was.
-/

namespace Hole.Routing

open Effect

/-- What the bridge can have the routing code do. -/
inductive Act
  | recover
  /-- The deletes in front of a gateway lookup for an address. -/
  | lookup (dest : IpAddr)
  | install (tunName : String) (serverIp : IpAddr) (gateway : GatewayInfo)
  | teardown
  | crash

/-- Whether an act is a gateway lookup. -/
def Act.isLookup : Act → Bool
  | lookup _ => true
  | _ => false

/-- One delete command as it was issued. -/
structure Delete where
  argv : Argv
  lookup : Bool
  phase : BestEffortPhase
  /-- Confirmed: the route is gone. -/
  confirmed : Bool
  /-- The record on disk when it was issued. -/
  record : Option RouteState
  deriving DecidableEq

/-- An event of the history. -/
inductive Event
  /-- A setup command was issued; `confirmed` says the route went in. -/
  | setup (argv : Argv) (confirmed : Bool)
  | delete (d : Delete)
  | storeFailed
  | cut
  deriving DecidableEq

/-- How the host resolves a call. -/
inductive Choice
  | ok
  | exit (code : Int)
  | spawn (error : String)
  | store (e : StoreError)
  | kept

/-- The record on disk, the live guard, and the history, newest event first. -/
structure World where
  disk : Option RouteState
  /-- The guard of the live session. -/
  guard : Option SystemRoutes
  log : List Event

/-- The outcome of a command under a choice. -/
def Choice.command : Choice → Except CommandFailure Unit
  | ok => .ok ()
  | exit code => .error (.exit code)
  | spawn e => .error (.spawn e)
  | store _ => .error (.spawn "")
  | kept => .error (.spawn "")

/-- The outcome of a store operation under a choice. -/
def Choice.stored : Choice → Except StoreError Unit
  | ok => .ok ()
  | store e => .error e
  | _ => .error (.io "")

/-- Whether a choice lets the call through. -/
def Choice.isOk : Choice → Bool
  | ok => true
  | _ => false

/-- What each call answers. -/
def answer (w : World) : (o : RouteOp) → Choice → o.Ans
  | .setup _, c => c.command
  | .teardown _ _, c => c.command
  | .read, c =>
    if c.isOk then
      match w.disk with
      | some st => Found.records st
      | none => Found.nothing
    else Found.unreadable ""
  | .write _, c => c.stored
  | .remove, c =>
    match c with
    | .kept => Except.ok Cleared.kept
    | .store e => Except.error e
    | .ok => Except.ok Cleared.gone
    | _ => Except.error (StoreError.io "")
  | .tunIpv6Available _, c => c.isOk

/-- What each call does. -/
def next (act : Act) (w : World) : RouteOp → Choice → World
  | .setup a, c => { w with log := .setup a c.isOk :: w.log }
  | .teardown a phase, c =>
    { w with log := .delete ⟨a, act.isLookup, phase, c.isOk, w.disk⟩ :: w.log }
  | .read, _ => w
  | .write st, c =>
    if c.isOk then { w with disk := some st } else { w with log := .storeFailed :: w.log }
  | .remove, c =>
    if c.isOk then { w with disk := none } else { w with log := .storeFailed :: w.log }
  | .tunIpv6Available _, _ => w

/-- The host, during an act. -/
def host (act : Act) : Env RouteOp RouteOp.Ans World Choice where
  answer := answer
  next := next act

/-- The routing machine. An act returns what it does to the guard: a completed install leaves
its own, a teardown takes it, and a crash loses it. -/
def machine (plat : Platform) :
    Machine RouteOp RouteOp.Ans World Choice Act (Option SystemRoutes → Option SystemRoutes) where
  env := host
  body w
    | .recover => some do recoverRoutesWith plat; pure id
    | .lookup dest => some do clearStaleServerBypass plat dest; pure id
    | .install tun ip gw =>
      if w.guard.isSome then none
      else some do
        match ← installWith plat tun ip gw with
        | .ok routes => pure fun _ ↦ some routes
        | .error _ => pure id
    | .teardown =>
      match w.guard with
      | none => none
      | some g => some do teardownWith plat g; pure fun _ ↦ none
    | .crash => some (pure fun _ ↦ none)
  finish w _ guard := { w with guard := guard w.guard }
  crash w := { w with guard := none, log := .cut :: w.log }

/-- A start: some record on disk from an earlier release or run, no guard, no history. -/
def World.start (disk : Option RouteState) : World := ⟨disk, none, []⟩

/-! ### Reading the history -/

/-- The groups of a record that may be absent. -/
def recordGroups : Option RouteState → List StaleRecord
  | some st => st.groups
  | none => []

/-- The deletes that would take out what is in the table: those of the routes a setup command
confirmed in and no later delete confirmed gone. -/
def ledger (plat : Platform) : List Event → List Argv
  | [] => []
  | .setup a confirmed :: es => if confirmed then undo plat a :: ledger plat es else ledger plat es
  | .delete d :: es =>
    if d.confirmed then (ledger plat es).filter (· ≠ d.argv) else ledger plat es
  | .storeFailed :: es => ledger plat es
  | .cut :: es => ledger plat es

/-- A delete of `r` was confirmed, and no setup command for its route was issued since. -/
def Freed (plat : Platform) : List Event → Argv → Prop
  | [], _ => False
  | .setup a _ :: es, r => undo plat a ≠ r ∧ Freed plat es r
  | .delete d :: es, r => (d.confirmed = true ∧ d.argv = r) ∨ Freed plat es r
  | .storeFailed :: es, r => Freed plat es r
  | .cut :: es, r => Freed plat es r

/-- No delete was issued for a freed route: between two issues of one delete of which the first
was confirmed, some setup command for the route was issued. -/
def NoSecondDelete (plat : Platform) (log : List Event) : Prop :=
  ∀ (newer between older : List Event) (d₂ d₁ : Delete),
    log = newer ++ .delete d₂ :: (between ++ .delete d₁ :: older) →
      d₂.argv = d₁.argv → d₁.confirmed = true →
        ∃ a confirmed, .setup a confirmed ∈ between ∧ undo plat a = d₁.argv

/-- At most one group of the record on disk named the delete when it was issued. -/
def Delete.Sole (plat : Platform) (d : Delete) : Prop :=
  (recordGroups d.record).countP (d.argv ∈ ·.deletes plat) ≤ 1

instance (plat : Platform) (d : Delete) : Decidable (d.Sole plat) :=
  inferInstanceAs (Decidable (_ ≤ 1))

/-- An event that leaves no freed route named: no failed store operation, no act cut short, and
no delete confirmed by a guard's teardown, by a rollback or by a lookup while a second group
named it. -/
def Event.Clean (plat : Platform) : Event → Prop
  | .setup _ _ => True
  | .delete d => d.confirmed = true → d.phase = .teardown ∨ d.lookup = true → d.Sole plat
  | .storeFailed => False
  | .cut => False

instance (plat : Platform) : DecidablePred (Event.Clean plat)
  | .setup _ _ => inferInstanceAs (Decidable True)
  | .delete _ => inferInstanceAs (Decidable (_ → _ → _))
  | .storeFailed => inferInstanceAs (Decidable False)
  | .cut => inferInstanceAs (Decidable False)

/-- A confirmed setup command whose route no later delete took out is in the ledger. -/
theorem mem_ledger_of_setup {plat : Platform} {a : Argv} {newer older : List Event}
    (hlive : ∀ d, .delete d ∈ newer → d.confirmed = true → d.argv ≠ undo plat a) :
    undo plat a ∈ ledger plat (newer ++ .setup a true :: older) := by
  induction newer with
  | nil => simp [ledger]
  | cons e es ih =>
    have ih := ih fun d hd ↦ hlive d (.tail _ hd)
    rw [List.cons_append]
    cases e with
    | setup b c =>
      rw [ledger]
      split
      · exact .tail _ ih
      · exact ih
    | delete d =>
      rw [ledger]
      split
      · next hc =>
        exact List.mem_filter.2 ⟨ih, by simpa using (hlive d (.head _) hc).symm⟩
      · exact ih
    | storeFailed => exact ih
    | cut => exact ih

/-- Unless the route was set up again in between, what was confirmed gone is freed. -/
theorem freed_of_confirmed {plat : Platform} {d : Delete} {between older : List Event}
    (hd : d.confirmed = true)
    (hadd : ∀ a c, .setup a c ∈ between → undo plat a ≠ d.argv) :
    Freed plat (between ++ .delete d :: older) d.argv := by
  induction between with
  | nil => exact .inl ⟨hd, rfl⟩
  | cons e es ih =>
    have ih := ih fun a c h ↦ hadd a c (.tail _ h)
    cases e with
    | setup a c => exact ⟨hadd a c (.head _), ih⟩
    | delete d' => exact .inr ih
    | storeFailed => exact ih
    | cut => exact ih

/-- It suffices that every delete was issued for a route that was not freed. -/
theorem noSecondDelete_of_not_freed {plat : Platform} {log : List Event}
    (h : ∀ newer older d, log = newer ++ .delete d :: older → ¬Freed plat older d.argv) :
    NoSecondDelete plat log := by
  intro newer between older d₂ d₁ hlog hargv hconf
  by_contra hadd
  push Not at hadd
  refine h newer _ d₂ hlog ?_
  rw [hargv]
  exact freed_of_confirmed hconf fun a c hm ↦ hadd a c hm

end Hole.Routing
