import Hole.Posix.Fs
import Hole.Effect.Fallible

/-!
# Operations on one folder

The file operations of `util::dir::Dir` on Unix: each takes a single name *inside the handle* of the
folder, and none follows a link at that name. They are programs over the system calls, so that the
same text can be run against several processes at once and against a user who changes the folder
between any two calls.

A Rust `File` closes when it goes out of scope. A program that lets one go says so: `close` on the
paths that go on, and `closingOnError` around what may leave by an error.
-/

namespace Hole.Files

open Posix Effect

/-- Why a file or folder was refused: `dir::Refusal`, with what the lock adds to it. -/
inductive Refusal
  | symlink
  | notDirectory
  | foreignOwner (uid : Nat)
  | notRegular
  | foreignFile
  | directory (why : Refusal)
  deriving DecidableEq

/-- An `io::Error`, as far as its readers tell errors apart. -/
inductive Error
  | io (kind : ErrorKind)
  /-- Not a single file name, or one that holds a zero byte. -/
  | invalidInput
  | refused (why : Refusal)
  /-- The loop was not given more passes. -/
  | exhausted
  deriving DecidableEq

/-- `io::Error::kind` is the given one. -/
def Error.is (e : Error) (kind : ErrorKind) : Bool := e = .io kind

/-- Programs over the system calls. -/
abbrev Io (α : Type) : Type := Fallible Call Ans Error α

/-- A call whose failure is the program's. -/
def sys (o : Call) : Io (Val o) := ExceptT.mk (Prog.call o fun a ↦ .pure (a.mapError .io))

/-- A file goes out of scope. -/
def close (file : Nat) : Prog Call Ans Unit := Prog.call (.close file) fun _ ↦ .pure ()

/-- A file goes out of scope where the program fails. -/
def closingOnError {α : Type} (file : Nat) (p : Io α) : Io α := Fallible.onError p (close file)

/-- How `open_file` opens a name. -/
inductive OpenFile
  | createNew (mode : Nat)
  | existing
  | read
  | append
  | createAppend (mode : Nat)
  deriving DecidableEq

/-- The flags of an open, and its mode. -/
def OpenFile.flags : OpenFile → Flags × Nat
  | .createNew mode => ({ access := .readWrite, create := true, noFollow := true }, mode)
  | .existing => ({ access := .readWrite, noFollow := true }, 0)
  | .read => ({ access := .read, nonblock := true, noFollow := true }, 0)
  | .append => ({ access := .append, nonblock := true, noFollow := true }, 0)
  | .createAppend mode => ({ access := .append, create := true, noFollow := true }, mode)

/-- `single_component` and `cstr`: the name is one ordinary file name. -/
def singleComponent (name : Name) : Io Unit :=
  if ordinary name then pure () else throw .invalidInput

/-- What a name is right now. -/
def kindOf (dir : Nat) (name : Name) : Io (Option Kind) := do
  singleComponent name
  match ← Fallible.attempt (sys (.fstatat dir name)) with
  | .ok st => pure (some (Meta.kind st))
  | .error e => if e.is .notFound then pure none else throw e

/-- The file a name denotes right now. -/
def idOf (dir : Nat) (name : Name) : Io (Option Nat) := do
  singleComponent name
  match ← Fallible.attempt (sys (.fstatat dir name)) with
  | .ok st => pure (some (Meta.id st))
  | .error e => if e.is .notFound then pure none else throw e

/-- `FileId::of`. -/
def fileId (file : Nat) : Io Nat := Meta.id <$> sys (.fstat file)

/-- `Dir::open_file`: open or create a name. -/
def openFile (dir : Nat) (name : Name) (how : OpenFile) : Io Nat := do
  singleComponent name
  let file ← sys (.openat dir name how.flags.1 how.flags.2)
  if how = .read then
    closingOnError file do
      let st ← sys (.fstat file)
      if Meta.kind st = .file then pure file else throw (.refused .notRegular)
  else pure file

/-- `Dir::unlink`. -/
def unlink (dir : Nat) (name : Name) : Io Unit := do
  singleComponent name
  sys (.unlinkat dir name)

/-- What `fstat` says about an opened file. -/
structure Facts where
  regular : Bool
  uid : Nat
  links : Nat

/-- `facts_of`. -/
def factsOf (file : Nat) : Io Facts := do
  let st ← sys (.fstat file)
  pure ⟨Meta.kind st = .file, Meta.uid st, Meta.links st⟩

/-! ### Rules -/

section Rules

variable {α τ ρ Φ : Type} {P : Protocol Call Ans τ ρ Φ} {E : Error → Φ → Prop} {ph : Φ}

theorem follows_sys {o : Call} {Q : Val o → Φ → Prop} (hallows : P.allows ph o)
    (hok : ∀ v, Q v (P.after ph o (.ok v)))
    (herror : ∀ kind, E (.io kind) (P.after ph o (.error kind))) :
    Fallible.Follows P E Q (sys o) ph := by
  refine ⟨hallows, fun a ↦ ?_⟩
  rcases a with kind | v
  · exact herror kind
  · exact hok v

theorem follows_close {file : Nat} {Q : Unit → Φ → Prop} (hallows : P.allows ph (.close file))
    (h : ∀ a, Q () (P.after ph (.close file) a)) : (close file).Follows P Q ph :=
  ⟨hallows, h⟩

theorem follows_singleComponent {name : Name} {Q : Unit → Φ → Prop}
    (hok : ordinary name = true → Q () ph) (herror : ordinary name = false → E .invalidInput ph) :
    Fallible.Follows P E Q (singleComponent name) ph := by
  unfold singleComponent
  split
  · next h => exact hok h
  · next h => exact herror (Bool.eq_false_iff.2 h)

end Rules

end Hole.Files
