import Hole.Files.Dir

/-!
# Opening the lock file

The Unix half of `file_lock::Exclusive`: create the lock file or open what is at its name, `flock`
it, look whether the name still denotes it, judge it, and take it, or start over. The loop is given
a number of passes, because a program here is finite; `Error.exhausted` is the model's word for
more passes than it was given, and no call of the code returns it.

The folder is opened first, by `Dir::open_as`; everything below goes through that handle. What that
open returned is an argument.
-/

namespace Hole.Files

open Posix Effect

/-- What to do with an existing lock file that passed `vet`. -/
inductive Verdict
  | keep
  | replace

/-- Whether an opened file may be used as the lock file. -/
def vet (facts : Facts) (euid : Nat) (owner : Option (Nat × Nat)) : Except Refusal Verdict :=
  match owner with
  | some (uid, _) =>
    if facts.uid ≠ uid && facts.uid = euid then .ok .replace
    else if facts.uid ≠ uid then .error (.foreignOwner facts.uid)
    else .ok .keep
  | none => .ok .keep

/-- Whether the open may change the mode and owner of the file it holds. -/
def changes (created : Bool) (facts : Facts) (owner : Option (Nat × Nat)) : Bool :=
  created || (owner.isSome && facts.links == 1)

/-- A file opened at the lock name, and whether this open created it. -/
structure Opened where
  file : Nat
  created : Bool

/-- A locked file, and whether `changes` let its mode be set. -/
structure Locked where
  file : Nat
  changeable : Bool

/-- `Refusal::of_unopenable`: what sits at a name that cannot be opened, if that is a reason to
refuse it. -/
def ofUnopenable (dir : Nat) (name : Name) : Io (Option Refusal) := do
  match ← Fallible.attempt (kindOf dir name) with
  | .ok (some .symlink) => pure (some .symlink)
  | .ok (some .directory) => pure (some .notRegular)
  | .ok (some .other) => pure (some .notRegular)
  | _ => pure none

/-- `Refused::from_failed_open`. -/
def failedOpen {α : Type} (dir : Nat) (name : Name) (err : Error) : Io α := do
  match ← ofUnopenable dir name with
  | some why => throw (.refused why)
  | none => throw err

/-- Create the lock file, or open what is at its name; `none` when the name vanished between the
two. -/
def openName (dir : Nat) (name : Name) : Io (Option Opened) := do
  match ← Fallible.attempt (openFile dir name (.createNew 0o600)) with
  | .ok file => pure (some ⟨file, true⟩)
  | .error err =>
    if err.is .alreadyExists then
      match ← Fallible.attempt (openFile dir name .existing) with
      | .ok file => pure (some ⟨file, false⟩)
      | .error err => if err.is .notFound then pure none else failedOpen dir name err
    else failedOpen dir name err

/-- Whether a name still names an open file. -/
def names (dir : Nat) (name : Name) (file : Nat) : Io Bool := do
  let named ← idOf dir name
  let own ← fileId file
  pure (named = some own)

/-- `flock` exclusive; `false` when not blocking and held elsewhere. -/
def lock (file : Nat) (block : Bool) : Io Bool := do
  match ← Fallible.attempt (sys (.flock file block)) with
  | .ok _ => pure true
  | .error err => if !block && err.is .wouldBlock then pure false else throw err

/-- How a pass of the loop ends, once the name is open. -/
inductive Pass
  | again
  | held
  | locked (changeable : Bool)

/-- What to do with the file that is locked: one that this call made is kept. -/
def verdictOf (owner : Option (Nat × Nat)) (euid : Nat) (opened : Opened) : Io Verdict :=
  if opened.created then pure .keep else do
    match vet (← factsOf opened.file) euid owner with
    | .ok verdict => pure verdict
    | .error why => throw (.refused why)

/-- The judgement under the lock: a leftover's name is unlinked, and a file that is kept gets its
mode. -/
def judge (dir : Nat) (name : Name) (owner : Option (Nat × Nat)) (euid : Nat) (opened : Opened) :
    Io Pass := do
  match ← verdictOf owner euid opened with
  | .replace =>
    match ← Fallible.attempt (unlink dir name) with
    | .ok _ => pure .again
    | .error err => if err.is .notFound then pure .again else throw err
  | .keep =>
    let changeable := changes opened.created (← factsOf opened.file) owner
    if changeable then
      sys (.fchmod opened.file 0o600)
    pure (.locked changeable)

/-- Whether a file may be locked at all: one that this call made, or a regular one. -/
def lockable (opened : Opened) : Io Bool :=
  if opened.created then pure true else Facts.regular <$> factsOf opened.file

/-- A pass of the loop, once the name is open. -/
def pass (dir : Nat) (name : Name) (block : Bool) (owner : Option (Nat × Nat)) (euid : Nat)
    (opened : Opened) : Io Pass := do
  if ← lockable opened then
    if ← lock opened.file block then
      -- whoever held the lock before may have unlinked or replaced the name
      if ← names dir name opened.file then judge dir name owner euid opened else pure .again
    else pure .held
  else throw (.refused .notRegular)

/-- Open and lock the lock file, in at most the given number of passes. -/
def openLockedWith (dir : Nat) (name : Name) (block : Bool) (owner : Option (Nat × Nat))
    (euid : Nat) : Nat → Io (Option Locked)
  | 0 => throw .exhausted
  | passes + 1 => do
    match ← openName dir name with
    | none => openLockedWith dir name block owner euid passes
    | some opened =>
      match ← closingOnError opened.file (pass dir name block owner euid opened) with
      | .again => do
        ExceptT.lift (close opened.file)
        openLockedWith dir name block owner euid passes
      | .held => do
        ExceptT.lift (close opened.file)
        pure none
      | .locked changeable => pure (some ⟨opened.file, changeable⟩)

/-- `fchown` on the open file. -/
def chownFd (file : Nat) : Option (Nat × Nat) → Io Unit
  | none => pure ()
  | some (uid, gid) => sys (.fchown file uid (some gid))

/-- `open_locked`: the lock file, open and locked; `none` only when not blocking and held
elsewhere. `dir` is what opening the folder returned. -/
def openLocked (dir : Except Error Nat) (name : Name) (block : Bool)
    (owner : Option (Nat × Nat)) (euid : Nat) (passes : Nat) : Io (Option Nat) := do
  let dir ← ExceptT.mk (.pure dir)
  match ← openLockedWith dir name block owner euid passes with
  | none => pure none
  | some ⟨file, changeable⟩ =>
    if changeable then
      closingOnError file (chownFd file owner)
    pure (some file)

end Hole.Files
