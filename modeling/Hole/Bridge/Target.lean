import Hole.FailClosed.Cover

/-!
# Targets, session events and what becomes of a cover

The pure decisions of `bridge/src/target.rs` and `bridge/src/reconciler.rs`: how a session event
moves the persisted target, and what a teardown does with the standing cover (`coverStep`,
`teardownCoverDisposition`) and with a held transient cover (`transientCoverDisposition`).

The tables are the source's, arm for arm. The fact the rest of the development uses is
`keepEngaged_of_blipped`: **a blip never releases the standing cover** while the target is not off
and the intent reads on.
-/

namespace Hole.FailClosed

/-- `Intent::installs_standing_cover`. -/
def Intent.installsStandingCover (i : Intent) : Bool := i = .on

end Hole.FailClosed

namespace Hole.Bridge

open FailClosed

/-- `Target`, over the configuration type. -/
inductive Target (κ : Type)
  | off
  | connected (config : κ)
  | unreadable
  deriving DecidableEq

/-- `SessionEvent`: why a session ended. -/
inductive SessionEvent
  | userStopped
  | gaveUp
  | cutoverRestart
  | blipped
  | processExiting
  deriving DecidableEq

/-- `SessionEvent::preserves_death_reason`. -/
def SessionEvent.preservesDeathReason : SessionEvent → Bool
  | gaveUp => true
  | userStopped | cutoverRestart | blipped | processExiting => false

variable {κ : Type}

/-- `target_after`. -/
def targetAfter (current : Target κ) : SessionEvent → Target κ
  | .userStopped => .off
  | .gaveUp => .off
  | .cutoverRestart => current
  | .blipped => current
  | .processExiting => current

/-- What the standing cover should do. -/
inductive CoverStep
  | engage
  | hold
  | release

/-- `cover_step`. -/
def coverStep (intent : Intent) (presence : CoverPresence) : Target κ → CoverStep
  | .unreadable => .hold
  | .off =>
    match presence with
    | .live => .release
    | .recorded => .release
    | .indeterminate => .release
    | .absent => .hold
    | .unreachable => .hold
  | .connected _ =>
    match intent, presence with
    | .on, .live => .hold
    | .on, .recorded => .engage
    | .on, .indeterminate => .engage
    | .on, .absent => .engage
    | .on, .unreachable => .hold
    | .unreadable, .live => .hold
    | .unreadable, .recorded => .engage
    | .unreadable, .indeterminate => .engage
    | .unreadable, .absent => .engage
    | .unreadable, .unreachable => .hold
    | .off, .live => .release
    | .off, .recorded => .release
    | .off, .indeterminate => .release
    | .off, .absent => .hold
    | .off, .unreachable => .hold
    | .unset, .live => .release
    | .unset, .recorded => .release
    | .unset, .indeterminate => .release
    | .unset, .absent => .hold
    | .unset, .unreachable => .hold

/-- What a torn-down session's cover should do. -/
inductive CoverDisposition
  | releaseNow
  | keepEngaged

/-- `teardown_cover_disposition`: a user stop releases whatever the probe says, every other cause
defers to `coverStep`. -/
def teardownCoverDisposition (event : SessionEvent) (intent : Intent)
    (presence : CoverPresence) (target : Target κ) : CoverDisposition :=
  match event with
  | .userStopped => .releaseNow
  | .cutoverRestart | .processExiting | .gaveUp | .blipped =>
    match coverStep intent presence target with
    | .release => .releaseNow
    | .hold => .keepEngaged
    | .engage => .keepEngaged

/-- `transient_cover_disposition`. -/
def transientCoverDisposition : SessionEvent → CoverDisposition
  | .cutoverRestart => .keepEngaged
  | .blipped => .keepEngaged
  | .userStopped | .gaveUp | .processExiting => .releaseNow

/-- A blip keeps the standing cover, whatever the probe answers. -/
theorem keepEngaged_of_blipped {target : Target κ} (htarget : target ≠ .off)
    (presence : CoverPresence) :
    teardownCoverDisposition .blipped .on presence target = .keepEngaged := by
  cases target with
  | off => exact absurd rfl htarget
  | unreadable => rfl
  | connected config => cases presence <;> rfl

end Hole.Bridge
