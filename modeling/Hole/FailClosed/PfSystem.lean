import Hole.Effect.Machine
import Hole.FailClosed.Pf

/-!
# pf, the covers' records and the guards as a machine

Engages, guard drops, disarms, recoveries, disengages and releases in any order, over one pf and
two record files that nobody else touches, with every outcome of every call and a crash or a
reboot anywhere. A load that fails changes no rule; a failed record operation leaves the file as
it was; a file that is there may still not be read.

Two things are wanted of every run: a blocking ruleset of Hole's is never loaded without a
record (`Tracked`), and a release that returns `Ok` leaves none loaded (`NoFalseRelease`). The
history is a ghost that only these statements read.
-/

namespace Hole.FailClosed

open Effect

/-- How the host resolves a call. -/
inductive PfChoice
  | ok
  /-- `pfctl -s info` says whether pf is enabled. -/
  | enabled (b : Bool)
  /-- `pfctl -E` prints a token. -/
  | token (t : String)
  /-- `pfctl -E` takes a refcount and prints no token. -/
  | unprinted (t : String)
  | spawn (error : String)
  | exit (stderr : String)
  | store (kind : String)
  /-- A record cannot be read; a token may still be found in its bytes. -/
  | unusable (pfToken : Option String)

/-- Whether a choice lets the call through. -/
def PfChoice.isOk : PfChoice → Bool
  | ok => true
  | _ => false

/-- The outcome of a `pfctl` run that has no answer but its success. -/
def PfChoice.status : PfChoice → Except PfctlFailure Unit
  | ok => .ok ()
  | spawn e => .error (.spawn e)
  | exit stderr => .error (.exit stderr)
  | _ => .error (.exit "")

/-- The outcome of a record operation. -/
def PfChoice.stored : PfChoice → Except String Unit
  | ok => .ok ()
  | store kind => .error kind
  | _ => .error ""

/-- A read of a record that nobody else touches. A file that is there may still not be read. -/
def PfChoice.read {α : Type} (disk : Option α) : PfChoice → StateFile α
  | unusable t => if disk.isSome then .unusable t else .absent
  | _ =>
    match disk with
    | some r => .present r
    | none => .absent

/-- An event of the history. -/
inductive PfEvent
  /-- `pfctl -sr` printed `loaded` as the baseline, after pf's last answer about the label. -/
  | baseline (loaded : Filter) (label : Option Bool)
  /-- A release returned `Ok` over `loaded`. -/
  | released (loaded : Filter)
  deriving DecidableEq

/-- What the invariants are about: the loaded filter, the two records, and the history, newest
event first. -/
structure Core where
  filter : Filter
  transient : Option FailClosedState
  standing : Option LockdownPfState
  log : List PfEvent

/-- pf, the records, the guards of the running process, and the history. -/
structure World extends Core where
  /-- What `/etc/pf.conf` holds: the host's own rules. -/
  pfConf : String
  /-- The translation rules of `/etc/pf.conf`. -/
  pfConfNat : String
  nat : String
  tokens : List String
  /-- pf's last answer about the lockdown label. -/
  label : Option Bool
  /-- The guards the process holds. -/
  guards : List Cover

/-- A load replaces the rules, or changes nothing. -/
def World.loadIf (w : World) (b : Bool) (r : Ruleset) : World :=
  { w with
    filter := if b then r.filter else w.filter
    nat := if b then r.nat else w.nat }

/-- pf's answer about the label under a choice. -/
def World.labelAnswer (w : World) (c : PfChoice) : Option Bool :=
  if c.isOk then some w.filter.isLockdown else none

/-- What each call answers. -/
def pfAnswer (w : World) : (o : PfOp) → PfChoice → o.Ans
  | .info, c =>
    match c with
    | .enabled b => Except.ok b
    | .ok => Except.ok (!w.tokens.isEmpty)
    | .spawn e => Except.error (.spawn e)
    | .exit stderr => Except.error (.exit stderr)
    | _ => Except.error (.exit "")
  | .enable, c =>
    match c with
    | .token t => Except.ok (some t)
    | .spawn e => Except.error e
    | _ => Except.ok none
  | .drop _, c => c.status
  | .load _, c => c.status
  | .reload, c => c.status
  | .flush, c => c.status
  | .labels, c => c.status.map fun _ ↦ w.filter.isLockdown
  | .showRules, c => c.status.map fun _ ↦ w.filter
  | .showNat, c => c.status.map fun _ ↦ w.nat
  | .readTransient, c => c.read w.transient
  | .readStanding, c => c.read w.standing
  | .saveTransient _, c => c.stored
  | .saveStanding _, c => c.stored
  | .clearTransient, c => c.stored
  | .clearStanding, c => c.stored

/-- What each call does. -/
def pfNext (w : World) : PfOp → PfChoice → World
  | .info, _ => w
  | .enable, c =>
    { w with
      tokens := match c with
        | .token t => t :: w.tokens
        | .unprinted t => t :: w.tokens
        | _ => w.tokens }
  | .drop t, c => { w with tokens := if c.isOk then w.tokens.erase t else w.tokens }
  | .load r, c => w.loadIf c.isOk r
  | .reload, c => w.loadIf c.isOk ⟨w.pfConfNat, .host w.pfConf⟩
  | .flush, _ => w
  | .labels, c => { w with label := w.labelAnswer c }
  | .showRules, c =>
    { w with log := if c.isOk then .baseline w.filter w.label :: w.log else w.log }
  | .showNat, _ => w
  | .readTransient, _ => w
  | .readStanding, _ => w
  | .saveTransient st, c => { w with transient := if c.isOk then some st else w.transient }
  | .saveStanding st, c => { w with standing := if c.isOk then some st else w.standing }
  | .clearTransient, c => { w with transient := if c.isOk then none else w.transient }
  | .clearStanding, c => { w with standing := if c.isOk then none else w.standing }

/-- The host. -/
def pfHost : Env PfOp PfOp.Ans World PfChoice where
  answer := pfAnswer
  next := pfNext

/-- What the bridge can have the cover code do, and what can happen to the process. -/
inductive PfAct
  | engage (serverIp : IpAddr) (resolverIp : Option IpAddr)
  | engageLockdown (serverIp : IpAddr) (tunName : String)
  | dropGuard (i : Nat)
  /-- `disarm`: a guard is forgotten, its cover left as it is. -/
  | disarm (i : Nat)
  | recover (intent : Intent)
  | disengageLockdown
  | releaseAll
  | crash
  | reboot

/-- What a completed act leaves: the guards, and whether it was a release that returned `Ok`. -/
structure PfOutcome where
  guards : List Cover → List Cover
  /-- The act was a release and returned `Ok`. -/
  released : Bool

/-- The guards after an engage. -/
def PfOutcome.ofEngage (kind : CoverKind) : Except RoutingError String → PfOutcome
  | .ok token => ⟨(⟨token, kind⟩ :: ·), false⟩
  | .error _ => ⟨id, false⟩

/-- pf and the covers as a machine. -/
def pfMachine : Machine PfOp PfOp.Ans World PfChoice PfAct PfOutcome where
  env _ := pfHost
  body w
    | .engage ip resolver => some do pure (.ofEngage .transient (← engageWith ip resolver))
    | .engageLockdown ip tun => some do pure (.ofEngage .lockdown (← engageLockdown ip tun))
    | .dropGuard i =>
      match w.guards[i]? with
      | none => none
      | some g => some do g.dropGuard; pure ⟨(·.eraseIdx i), false⟩
    | .disarm i => some (pure ⟨(·.eraseIdx i), false⟩)
    | .recover intent => some do recoverCovers intent; pure ⟨id, false⟩
    | .disengageLockdown => some do let _ ← disengageLockdown; pure ⟨id, false⟩
    | .releaseAll => some do let r ← releaseAll; pure ⟨id, r.isOk⟩
    | .crash => some (pure ⟨fun _ ↦ [], false⟩)
    | .reboot => some (pure ⟨fun _ ↦ [], false⟩)
  finish w act r :=
    let w := { w with
      guards := r.guards w.guards
      log := if r.released then .released w.filter :: w.log else w.log }
    match act with
    | .reboot =>
      { w with filter := .host w.pfConf, nat := w.pfConfNat, tokens := [] }
    | _ => w
  crash w := { w with guards := [] }

/-- A start: the host's rules, no record, no guard, no history. -/
def World.start (rules nat pfConf pfConfNat : String) : World where
  filter := .host rules
  transient := none
  standing := none
  log := []
  pfConf := pfConf
  pfConfNat := pfConfNat
  nat := nat
  tokens := []
  label := none
  guards := []

/-! ### What is wanted of a run -/

/-- No untracked block: a loaded ruleset of Hole's has a record. -/
def Core.Tracked (k : Core) : Prop :=
  k.filter.isBlocking = true → k.transient.isSome = true ∨ k.standing.isSome = true

/-- No false release: a release that returned `Ok` left none of Hole's rulesets loaded. -/
def Core.NoFalseRelease (k : Core) : Prop := ∀ f, .released f ∈ k.log → f.isBlocking = false

/-- A baseline is not one of Hole's rulesets, or pf had just reported the label, so that it is
not recorded. -/
def PfEvent.HostBaseline : PfEvent → Prop
  | baseline f label => f.isBlocking = true → label = some true
  | released _ => True

instance : DecidablePred PfEvent.HostBaseline
  | .baseline _ _ => inferInstanceAs (Decidable (_ → _))
  | .released _ => inferInstanceAs (Decidable True)

/-- The condition on a history: every baseline was the host's. -/
def HostBaselines (log : List PfEvent) : Prop := ∀ e ∈ log, e.HostBaseline

instance (log : List PfEvent) : Decidable (HostBaselines log) :=
  inferInstanceAs (Decidable (∀ e ∈ log, _))

end Hole.FailClosed
