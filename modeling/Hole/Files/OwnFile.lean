import Hole.Files.OpenLocked
import Hole.Text.Numeral

/-!
# Files of one's own

What `util::dir::Dir` does with the files it writes in a folder that a user may own: a log is
appended to only if it is the writer's own (`append_own_file`), and a file that replaces another is
written under a temporary name and renamed (`stage`, then `publish`, or nothing, when what was
staged is dropped).
-/

namespace Hole.Files

open Posix Effect

/-- Whether a file found at a log's name is one to append to. -/
def trustedAppender (facts : Facts) (owner : Option (Nat × Nat)) : Bool :=
  facts.regular && facts.links == 1 && owner.all fun o ↦ facts.uid = o.1

/-- `is_own_file`. -/
def isOwnFile (file : Nat) (owner : Option (Nat × Nat)) : Io Bool := do
  let facts ← factsOf file
  pure (trustedAppender facts owner)

/-- `give_file`: hand the open file to its owner; a failure is logged and not returned. -/
def giveFile (file : Nat) : Option (Nat × Nat) → Io Unit
  | none => pure ()
  | some (uid, gid) => do
    let _ ← Fallible.attempt (δ := Error) (sys (.fchown file uid (some gid)))
    pure ()

/-- `unlink_if_there`. -/
def unlinkIfThere (dir : Nat) (name : Name) : Io Unit := do
  match ← Fallible.attempt (unlink dir name) with
  | .ok _ => pure ()
  | .error err => if err.is .notFound then pure () else throw err

/-- What `append_own_file` does about a name that is there. -/
inductive Found
  | own (file : Nat)
  | again

/-- The part of a pass of `append_own_file` that meets an existing name. -/
def appendExisting (dir : Nat) (name : Name) (owner : Option (Nat × Nat)) : Io Found := do
  match ← Fallible.attempt (openFile dir name .append) with
  | .ok file =>
    if ← closingOnError file (isOwnFile file owner) then pure (.own file)
    else
      ExceptT.lift (close file)
      unlinkIfThere dir name
      pure .again
  | .error err =>
    if err.is .notFound then pure .again
    else
      match ← Fallible.attempt (δ := Error) (kindOf dir name) with
      | .ok none => pure .again
      | .ok (some .symlink) => do
        unlinkIfThere dir name
        pure .again
      | .ok (some .other) => do
        unlinkIfThere dir name
        pure .again
      | _ => throw err

/-- `append_own_file`, in at most the given number of passes. -/
def appendOwnFile (dir : Nat) (name : Name) (mode : Nat) (owner : Option (Nat × Nat)) : Nat → Io Nat
  | 0 => throw .exhausted
  | passes + 1 => do
    match ← Fallible.attempt (openFile dir name (.createAppend mode)) with
    | .ok file => do
      giveFile file owner
      pure file
    | .error err =>
      if err.is .alreadyExists then
        match ← appendExisting dir name owner with
        | .own file => pure file
        | .again => appendOwnFile dir name mode owner passes
      else throw err

/-! ### Staging -/

/-- The decimal text of a number, in bytes. -/
def decimal (n : Nat) : Name := (Nat.toDigits 10 n).map fun c ↦ UInt8.ofNat c.toNat

/-- The name of a temporary file: `.<name>.<pid>.<count>.tmp`. -/
def tempName (name : Name) (pid count : Nat) : Name :=
  [46] ++ name ++ [46] ++ decimal pid ++ [46] ++ decimal count ++ [46, 116, 109, 112]

/-- `create_temp`: a new file named after `name`, in at most the given number of passes. `draw` is
what the process-wide counter gives this call, draw after draw. -/
def createTemp (dir : Nat) (name : Name) (pid : Nat) (draw : Nat → Nat) :
    Nat → Nat → Io (Name × Nat)
  | 0, _ => throw .exhausted
  | passes + 1, drawn => do
    let temp := tempName name pid (draw drawn)
    match ← Fallible.attempt (openFile dir temp (.createNew 0o600)) with
    | .ok file => pure (temp, file)
    | .error err =>
      if err.is .alreadyExists then createTemp dir name pid draw passes (drawn + 1) else throw err

/-- `seal`: the file is its owner's, and nobody else's to read. -/
def sealFile (file : Nat) (owner : Option (Nat × Nat)) : Io Unit := do
  giveFile file owner
  sys (.fchmod file 0o600)

/-- The caller's `protect`: on Unix, a wider mode at most. -/
def protectFile (file : Nat) : Option Nat → Io Unit
  | none => pure ()
  | some mode => sys (.fchmod file mode)

/-- `Staged`'s drop: the file is closed and its temporary name removed. -/
def dropStaged (dir : Nat) (temp : Name) (file : Nat) : Prog Call Ans Unit :=
  Prog.call (.close file) fun _ ↦ Prog.call (.unlinkat dir temp) fun _ ↦ .pure ()

/-- `Dir::stage`: a complete temporary file. -/
def stage (dir : Nat) (name : Name) (bytes : List UInt8) (owner : Option (Nat × Nat))
    (protect : Option Nat) (pid : Nat) (draw : Nat → Nat) (passes : Nat) : Io (Name × Nat) := do
  singleComponent name
  let (temp, file) ← createTemp dir name pid draw passes 0
  Fallible.onError (do
      sys (.write file bytes)
      sys (.fsync file)
      sealFile file owner
      protectFile file protect)
    (dropStaged dir temp file)
  pure (temp, file)

/-- `Staged::publish`: the temporary file takes the final name. -/
def publish (dir : Nat) (name : Name) (temp : Name) (file : Nat) : Io Unit := do
  Fallible.onError (sys (.renameat dir temp name)) (dropStaged dir temp file)
  ExceptT.lift (close file)

/-- `Dir::stage`, followed by `publish` or by dropping what was staged. -/
def stageThen (dir : Nat) (name : Name) (bytes : List UInt8) (owner : Option (Nat × Nat))
    (protect : Option Nat) (pid : Nat) (draw : Nat → Nat) (passes : Nat) (publishing : Bool) :
    Io Unit := do
  let (temp, file) ← stage dir name bytes owner protect pid draw passes
  if publishing then publish dir name temp file else ExceptT.lift (dropStaged dir temp file)

end Hole.Files
