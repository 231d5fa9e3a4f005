import Hole.Net.IpAddr

/-!
# Fail-closed covers: the platform-independent part

The vocabulary the two cover back ends share (`tun-engine/src/routing.rs` and
`tun-engine/src/routing/failclosed.rs`): what a probe can say about the standing cover, what the
recorded lockdown intent can be, and the decision that start-up recovery takes on the two.

`StateFile` is the trichotomy over a persisted record. A record that is there and cannot be read
is **not** a record that is absent, and `decideCoverRecovery` keeps the same distinction for the
probe: only `absent` and `unreachable` decide nothing.
-/

namespace Hole.FailClosed

/-- What is known about the standing lockdown cover. -/
inductive CoverPresence
  /-- The OS confirmed the cover or a residue of it. -/
  | live
  /-- The OS did not confirm one, but the state file says one was engaged. -/
  | recorded
  /-- The OS answered no, and no record contradicts it. -/
  | absent
  /-- The OS was reachable, but its answer was unusable. -/
  | indeterminate
  /-- The OS could not be asked. -/
  | unreachable
  deriving DecidableEq

/-- The recorded lockdown intent, as a read of its file classifies it. -/
inductive Intent
  | on
  | off
  | unset
  | unreadable
  deriving DecidableEq

/-- What start-up recovery does about a standing cover. -/
inductive CoverRecovery
  | noop
  | adopt
  | sweep
  deriving DecidableEq

/-- The outcome of `decideCoverRecovery`. -/
structure Recovery where
  action : CoverRecovery
  /-- Repair the intent file to on before acting. -/
  recordIntentOn : Bool
  presence : CoverPresence

/-- `decide_cover_recovery`: the table over the two measured axes. -/
def decideCoverRecovery (intent : Intent) (presence : CoverPresence) : Recovery :=
  let (action, recordIntentOn) : CoverRecovery × Bool :=
    match intent, presence with
    | .on, .live => (.adopt, false)
    | .on, .recorded => (.adopt, false)
    | .on, .indeterminate => (.adopt, false)
    | .on, .absent => (.noop, false)
    | .on, .unreachable => (.noop, false)
    | .off, .live => (.sweep, false)
    | .off, .recorded => (.sweep, false)
    | .off, .indeterminate => (.sweep, false)
    | .off, .absent => (.noop, false)
    | .off, .unreachable => (.noop, false)
    | .unset, .live => (.adopt, true)
    | .unset, .recorded => (.adopt, false)
    | .unset, .indeterminate => (.noop, false)
    | .unset, .absent => (.noop, false)
    | .unset, .unreachable => (.noop, false)
    | .unreadable, .live => (.adopt, true)
    | .unreadable, .recorded => (.adopt, false)
    | .unreadable, .indeterminate => (.adopt, false)
    | .unreadable, .absent => (.noop, false)
    | .unreadable, .unreachable => (.noop, false)
  ⟨action, recordIntentOn, presence⟩

/-- Only a present cover is adopted. -/
theorem present_of_adopt {intent : Intent} {presence : CoverPresence}
    (h : (decideCoverRecovery intent presence).action = .adopt) :
    presence ≠ .absent ∧ presence ≠ .unreachable := by
  revert h
  cases intent <;> cases presence <;> decide

/-- A persisted record as a sweep reads it. -/
inductive StateFile (α : Type)
  | absent
  /-- A file that could not be read, with the pf token its bytes still yield. -/
  | unusable (pfToken : Option String)
  | present (record : α)

/-- `load`: any read that is not the record is no record. -/
def StateFile.load {α : Type} : StateFile α → Option α
  | present r => some r
  | absent => none
  | unusable _ => none

/-- The errors of the cover code. -/
inductive RoutingError
  | routeSetup (message : String)
  deriving DecidableEq

/-- `Display for RoutingError`. -/
def RoutingError.display : RoutingError → String
  | routeSetup message => "route setup failed: " ++ message

/-- `RoutingError::state_write_failed`: the text names the kind of the failure only. -/
def RoutingError.stateWriteFailed (what kind : String) : RoutingError :=
  .routeSetup (what ++ " could not be written (" ++ kind ++ ")")

end Hole.FailClosed
