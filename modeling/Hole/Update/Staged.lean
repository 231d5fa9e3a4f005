import Hole.Effect.Fallible
import Hole.Update.Verify

/-!
# What an update extracts was verified

`POST /v1/update-apply` on Windows, from the claim of the marker on: `handle_update_apply` in
`crates/bridge/src/ipc.rs` with what it calls in `cutover/extract.rs` and `cutover/apply.rs`.

A request copies the payload of its client, verifies the copy, and reads the copy a second time to
extract it. The client may change the payload meanwhile, so each chunk that is copied holds whatever
it pleases. Before each call, other requests may have taken files of the private directory away, or
all of it (`Taking`): it is what a request does that gave its claim up or handed it on
(`only_discardPayload`), and without the claim none does more.

A child is created suspended; `handed` has the staging directory of each child that is let run.
-/

namespace Hole.Update

open Effect Text
open Function (update)
open Fallible (safe_call)

/-- The name of a file, below its directory. -/
abbrev Path := List Char

/-- The files of a directory. -/
abbrev Tree := Path → Option (List UInt8)

/-! ### Data -/

/-- What is read of an `UpdateApplyRequest` after the claim. -/
structure UpdateApplyRequest where
  payloadPath : Path
  sha256sums : List Char
  sha256sumsMinisig : List Char
  assetName : List Char

/-- The statuses of an answer that is an error. -/
inductive StatusCode
  | unprocessableEntity
  | internalServerError

/-- An answer that is an error. -/
structure Failure where
  status : StatusCode
  message : String

/-- `StageError`. -/
inductive StageError
  | io (e : String)
  | verify (e : VerifyError)

/-- The directories that the bridge keeps to itself. -/
inductive Dir
  /-- `.update-payload`. -/
  | payload
  /-- `.update-staging`. -/
  | staging

/-- A file opened for reading: how many reads of it succeed, and the error of the next. -/
structure Opened where
  file : Nat
  rounds : Nat
  error : String

/-- A file opened for a copy: how many chunks are copied, and how the copy ends. -/
structure Copying where
  file : Nat
  rounds : Nat
  result : Except String Unit

/-! ### What is outside -/

/-- The calls of the archive reader. -/
inductive UnpackOp
  | read (off len : Nat)
  /-- Changes the directory, as to create a file in it or to write to one. -/
  | edit (f : Tree → Tree)

/-- The answers to the archive reader. -/
abbrev UnpackOp.Ans : UnpackOp → Type
  | .read _ _ => List UInt8
  | .edit _ => Unit

/-- An archive reader, and how it ends. -/
abbrev Unpack := Prog UnpackOp UnpackOp.Ans (Except String Unit)

/-- What the crates do, and what the standard library makes of a path. -/
structure Site (κ σ : Type) where
  crypto : Crypto κ σ
  /-- `payload_archive::unpack_zip`. -/
  unpackZip : Unpack
  fileName : Path → Option Path

/-- The part of a file that a read at `off` gives. -/
def chunk (content : List UInt8) (off len : Nat) : List UInt8 := (content.drop off).take len

/-- What an archive reader makes of a payload, from a tree on. -/
def Unpack.unpacked (payload : List UInt8) : Unpack → Tree → Tree × Except String Unit
  | .pure r, t => (t, r)
  | .call (.read off len) k, t => unpacked payload (k (chunk payload off len)) t
  | .call (.edit f) k, t => unpacked payload (k ()) (f t)

/-! ### The calls -/

/-- The calls of a request that has claimed. -/
inductive Op
  | clear
  | currentExe
  | join
  | exists (dir : Dir)
  | createDirAll (dir : Dir)
  | listDir (dir : Dir)
  | unlink (dir : Dir) (path : Path)
  | rmdir (dir : Dir)
  /-- `fs::copy` opens both files. -/
  | openCopy (path : Path)
  | copyChunk (file : Nat)
  | openPayload (path : Path)
  /-- A read into the buffer of `sha256_file`. -/
  | read (file off : Nat)
  /-- A read of the archive reader. -/
  | readAt (file off len : Nat)
  /-- A change that the archive reader makes. -/
  | edit (f : Tree → Tree)
  | findStaged (name : Path)
  | spawnSuspendedChild
  /-- `Process::from_pid` and the record of what it found. -/
  | resolveChild (pid : Nat)
  /-- `update_marker::stamp_driver`. -/
  | stampDriver (driver : Nat)
  | resumeMainThread (pid : Nat)
  | killChild (pid : Nat)

/-- The answers. -/
abbrev Op.Ans : Op → Type
  | .exists _ => Bool
  | .listDir _ => Except String (List Path)
  | .openCopy _ => Except String Copying
  | .copyChunk _ => Unit
  | .openPayload _ => Except String Opened
  | .read _ _ => List UInt8
  | .readAt _ _ _ => Except String (List UInt8)
  | .findStaged _ => Except String Path
  | .spawnSuspendedChild => Except String Nat
  | .resolveChild _ => Except String Nat
  | .killChild _ => Unit
  | _ => Except String Unit

/-- A program that may end in an error. -/
abbrev Io (ε α : Type) := Fallible Op Op.Ans ε α

/-- One call. -/
def call {ε : Type} (o : Op) : Io ε o.Ans := Fallible.call o

/-- The value of a result, or the error that is made of its error. -/
def orThrow {ε δ α : Type} (f : ε → δ) : Except ε α → Io δ α
  | .ok a => pure a
  | .error e => throw (f e)

section Programs

variable {κ σ : Type} (site : Site κ σ)

/-! ### The private copy -/

/-- `remove_dir_all`. -/
def removeDirAll (dir : Dir) : Io String Unit := do
  let paths ← orThrow id (← call (.listDir dir))
  paths.forM fun path ↦ do orThrow id (← call (.unlink dir path))
  orThrow id (← call (.rmdir dir))

/-- A leftover directory is removed. -/
def clearLeftover (dir : Dir) : Io String Unit := do
  match ← call (.exists dir) with
  | true => removeDirAll dir
  | false => pure ()

/-- A directory is made anew. -/
def remake (dir : Dir) : Io String Unit := do
  clearLeftover dir
  orThrow id (← call (.createDirAll dir))

/-- `fs::copy` of the payload into the private directory. -/
def copy (name : Path) : Io String Unit := do
  let copying ← orThrow id (← call (.openCopy name))
  (List.replicate copying.rounds ()).forM fun _ ↦ call (.copyChunk copying.file)
  orThrow id copying.result

/-- `stage_payload`; the name of the copy. -/
def stagePayload (payloadPath : Path) : Io String Path := do
  remake .payload
  match site.fileName payloadPath with
  | none => throw "payload path has no file name"
  | some name => do
    copy name
    pure name

/-- The loop of `sha256_file`: the bytes that the hasher is fed. -/
def readAll (opened : Opened) : Nat → List UInt8 → Io VerifyError (List UInt8)
  | 0, _ => throw (.io opened.error)
  | rounds + 1, fed => do
    let chunk ← call (.read opened.file fed.length)
    if chunk = [] then pure fed else readAll opened rounds (fed ++ chunk)

/-- `sha256_file`, as the digest. -/
def sha256File (name : Path) : Io VerifyError (List UInt8) := do
  let opened ← orThrow .io (← call (.openPayload name))
  let fed ← readAll opened opened.rounds []
  pure (site.crypto.sha256 fed)

/-- `reverify`. -/
def reverify (name : Path) (req : UpdateApplyRequest) : Io VerifyError Unit := do
  orThrow id
    (verifyMinisigData site.crypto (utf8 req.sha256sums) req.sha256sumsMinisig minisignPublicKey)
  let expected ← orThrow id (findHashInSha256sums req.sha256sums req.assetName)
  let digest ← sha256File site name
  orThrow id (verifySha256Hash digest expected)

/-- The blocking task of the first half. -/
def stage (req : UpdateApplyRequest) : Io StageError Path := do
  let name ← orThrow .io (← Fallible.attempt (stagePayload site req.payloadPath))
  orThrow .verify (← Fallible.attempt (reverify site name req))
  pure name

/-! ### The extraction -/

/-- The archive reader, on an open file. -/
def unpack (file : Nat) : Unpack → Io String Unit
  | .pure r => orThrow id r
  | .call (.read off len) k => do
    let bytes ← orThrow id (← call (.readAt file off len))
    unpack file (k bytes)
  | .call (.edit f) k => do
    orThrow id (← call (.edit f))
    unpack file (k ())

/-- `EXE_NAME`. -/
def exeName : Path := "hole.exe".toList

/-- `extract`. -/
def extract (name : Path) : Io String Unit := do
  orThrow id (← call .currentExe)
  remake .staging
  let opened ← orThrow id (← call (.openPayload name))
  unpack opened.file site.unpackZip
  let _ ← orThrow id (← call (.findStaged exeName))

/-! ### The child is started -/

/-- `record_spawned_driver`. -/
def recordSpawnedDriver (pid : Nat) : Io String Unit := do
  let driver ← orThrow id (← call (.resolveChild pid))
  orThrow id (← call (.stampDriver driver))

/-- `spawn_actor`, with `record_resume_or_kill`. -/
def spawnActor : Io String Unit := do
  let pid ← orThrow id (← call .spawnSuspendedChild)
  let recorded ← Fallible.attempt (recordSpawnedDriver pid)
  match recorded with
  | .error e => do
    call (.killChild pid)
    throw e
  | .ok () =>
    match ← call (.resumeMainThread pid) with
    | .error e => do
      call (.killChild pid)
      throw e
    | .ok () => pure ()

/-! ### A request -/

/-- The private directory is removed as far as it can be. -/
def discardPayload : Io Failure Unit := do
  let _ ← Fallible.attempt (removeDirAll .payload)

/-- The way out of a request that has claimed: the marker is cleared first. -/
def giveUp (status : StatusCode) (message : String) : Io Failure Unit := do
  let _ ← call .clear
  discardPayload
  throw ⟨status, message⟩

/-- The end of a request whose payload is extracted. -/
def applyExtracted : Io Failure Unit := do
  match ← Fallible.attempt spawnActor with
  | .error e => giveUp .internalServerError ("cutover failed to start: " ++ e)
  | .ok () => discardPayload

/-- The second half of a request that has claimed. -/
def applyStaged (name : Path) : Io Failure Unit := do
  let extracted ← Fallible.attempt (extract site name)
  match ← call .join with
  | .error _ => giveUp .internalServerError "update extraction failed"
  | .ok () =>
    match extracted with
    | .error _ => giveUp .internalServerError "update extraction failed"
    | .ok () => applyExtracted

/-- `handle_update_apply`, once it has claimed. -/
def applyClaimed (req : UpdateApplyRequest) : Io Failure Unit := do
  match ← call .currentExe with
  | .error e => do
    let _ ← call .clear
    throw ⟨.internalServerError, "could not resolve private payload dir: " ++ e⟩
  | .ok () => do
    let staged ← Fallible.attempt (stage site req)
    match ← call .join with
    | .error e => giveUp .internalServerError ("payload staging task panicked: " ++ e)
    | .ok () =>
      match staged with
      | .error (.verify e) =>
        giveUp .unprocessableEntity ("payload verification failed: " ++ e.display)
      | .error (.io e) => giveUp .internalServerError ("payload staging failed: " ++ e)
      | .ok name => applyStaged site name

end Programs

/-! ### The surroundings -/

/-- What the bridge has written. -/
structure Disk where
  payload : Option (Path → Option Nat)
  files : Nat → List UInt8
  nextFile : Nat
  staging : Option Tree
  /-- What each child that was let run found there. -/
  handed : List (Option Tree)

/-- What another request takes away from the private directory. -/
inductive Taking
  | file (path : Path)
  | all

/-- How a call goes, and what was taken away before it. -/
structure Turn where
  taken : List Taking
  fails : Bool
  text : String
  flag : Bool
  number : Nat
  bytes : List UInt8
  path : Path
  paths : List Path

/-- The result of a call that gives `a`. -/
def Turn.result {α : Type} (t : Turn) (a : α) : Except String α :=
  if t.fails then .error t.text else .ok a

/-- The result of a call that needs something to be there. -/
def Turn.resultIf {α : Type} (t : Turn) (there : Bool) (a : α) : Except String α :=
  if there then t.result a else .error t.text

namespace Disk

variable (s : Disk)

/-- What a name of the private directory leads to. -/
def lookup (path : Path) : Option Nat := s.payload.bind (· path)

/-- Whether a directory is there. -/
def present : Dir → Bool
  | .payload => s.payload.isSome
  | .staging => s.staging.isSome

/-- What a file of the private directory is, or becomes. -/
def fileAt (path : Path) : Nat := (s.lookup path).getD s.nextFile

/-- A directory is there. -/
def mkdir : Dir → Disk
  | .payload => { s with payload := some (s.payload.getD fun _ ↦ none) }
  | .staging => { s with staging := some (s.staging.getD fun _ ↦ none) }

/-- A file is gone. -/
def unlink : Dir → Path → Disk
  | .payload, path =>
    { s with payload := s.payload.map fun files ↦ update files path none }
  | .staging, path =>
    { s with staging := s.staging.map fun tree ↦ update tree path none }

/-- A directory is gone. -/
def rmdir : Dir → Disk
  | .payload => { s with payload := none }
  | .staging => { s with staging := none }

/-- A file of the private directory is empty. -/
def truncate (path : Path) : Disk :=
  { s with
    payload := s.payload.map fun files ↦ update files path (some (s.fileAt path))
    files := update s.files (s.fileAt path) []
    nextFile := s.nextFile + 1 }

/-- A file is longer. -/
def append (file : Nat) (bytes : List UInt8) : Disk :=
  { s with files := update s.files file (s.files file ++ bytes) }

/-- A staged file is there. -/
def isStaged (path : Path) : Bool := (s.staging.bind (· path)).isSome

/-- Another request takes something away. -/
def take : Taking → Disk
  | .file path => s.unlink .payload path
  | .all => s.rmdir .payload

/-- The disk when a call is made. -/
def meanwhile (t : Turn) : Disk := t.taken.foldl take s

end Disk

section Surroundings

variable {κ σ : Type} (site : Site κ σ)

/-- What a call does. A copy or a write that fails may have begun. -/
def Disk.next (s : Disk) : Op → Turn → Disk
  | .createDirAll dir, t => if t.fails then s else s.mkdir dir
  | .unlink dir path, t => if t.fails then s else s.unlink dir path
  | .rmdir dir, t => if t.fails then s else s.rmdir dir
  | .openCopy path, t => if t.fails && !t.flag then s else s.truncate path
  | .copyChunk file, t => s.append file t.bytes
  | .edit f, t => if t.fails && !t.flag then s else { s with staging := s.staging.map f }
  | .resumeMainThread _, t => if t.fails then s else { s with handed := s.staging :: s.handed }
  | _, _ => s

/-- The answer to a call. -/
def Disk.answer (s : Disk) : (o : Op) → Turn → o.Ans
  | .clear, t => t.result ()
  | .currentExe, t => t.result ()
  | .join, t => t.result ()
  | .exists dir, _ => s.present dir
  | .createDirAll _, t => t.result ()
  | .listDir _, t => t.result t.paths
  | .unlink _ _, t => t.result ()
  | .rmdir _, t => t.result ()
  | .openCopy path, t =>
    t.resultIf s.payload.isSome ⟨s.fileAt path, t.number, if t.flag then .ok () else .error t.text⟩
  | .copyChunk _, _ => ()
  | .openPayload path, t =>
    (s.lookup path).elim (.error t.text) fun file ↦ t.result ⟨file, t.number, t.text⟩
  | .read file off, t => chunk (s.files file) off (min 8191 t.number + 1)
  | .readAt file off len, t => t.result (chunk (s.files file) off len)
  | .edit _, t => t.resultIf s.staging.isSome ()
  | .findStaged name, t =>
    t.resultIf (s.isStaged t.path && decide (site.fileName t.path = some name)) t.path
  | .spawnSuspendedChild, t => t.result t.number
  | .resolveChild _, t => t.result t.number
  | .stampDriver _, t => t.result ()
  | .resumeMainThread _, t => t.result ()
  | .killChild _, _ => ()

/-- The surroundings of a request that has claimed. -/
def surroundings : Env Op Op.Ans Disk Turn where
  answer s o t := (s.meanwhile t).answer site o t
  next s o t := (s.meanwhile t).next o t

/-- The files that the archive reader makes of a payload. -/
def extracted (payload : List UInt8) : Tree × Except String Unit :=
  site.unpackZip.unpacked payload fun _ ↦ none

/-- The copy of a request passes. -/
def Vouched (req : UpdateApplyRequest) (payload : List UInt8) : Prop :=
  verifyPayloadOffline site.crypto payload req.assetName req.sha256sums req.sha256sumsMinisig =
    .ok ()

end Surroundings

/-! ### What a call leaves -/

section Steps

variable {κ σ : Type} {site : Site κ σ} {s s' s'' : Disk} {o : Op} {t : Turn}

/-- No name of the private directory leads elsewhere than before, and no child was let run. -/
structure Shrinks (s s' : Disk) : Prop where
  lookup : ∀ {name file}, s'.lookup name = some file → s.lookup name = some file
  handed : s'.handed = s.handed

/-- And the files are the same. -/
structure Beside (s s' : Disk) : Prop extends Shrinks s s' where
  files : s'.files = s.files

/-- And so is the staging directory. -/
structure Frame (s s' : Disk) : Prop extends Beside s s' where
  staging : s'.staging = s.staging

theorem Shrinks.refl (s : Disk) : Shrinks s s := ⟨id, rfl⟩

theorem Shrinks.trans (h : Shrinks s s') (h' : Shrinks s' s'') : Shrinks s s'' :=
  ⟨fun hfile ↦ h.lookup (h'.lookup hfile), h'.handed.trans h.handed⟩

theorem Beside.refl (s : Disk) : Beside s s := ⟨.refl s, rfl⟩

theorem Beside.trans (h : Beside s s') (h' : Beside s' s'') : Beside s s'' :=
  ⟨h.toShrinks.trans h'.toShrinks, h'.files.trans h.files⟩

theorem Frame.refl (s : Disk) : Frame s s := ⟨.refl s, rfl⟩

theorem Frame.trans (h : Frame s s') (h' : Frame s' s'') : Frame s s'' :=
  ⟨h.toBeside.trans h'.toBeside, h'.staging.trans h.staging⟩

theorem frame_unlink (path : Path) : Frame s (s.unlink .payload path) := by
  refine ⟨⟨⟨fun {name file} hfile ↦ ?_, rfl⟩, rfl⟩, rfl⟩
  have hfile : (s.payload.map fun files ↦ update files path none).bind (· name) =
      some file := hfile
  rcases hpayload : s.payload with - | files
  · rw [hpayload] at hfile
    cases hfile
  · rw [hpayload] at hfile
    have hfile : update files path none name = some file := hfile
    rcases eq_or_ne name path with rfl | hne
    · rw [Function.update_self] at hfile
      cases hfile
    · rw [Function.update_of_ne hne] at hfile
      show s.payload.bind (· name) = some file
      rwa [hpayload]

theorem frame_rmdir : Frame s (s.rmdir .payload) := by
  refine ⟨⟨⟨fun hfile ↦ ?_, rfl⟩, rfl⟩, rfl⟩
  cases hfile

theorem frame_mkdir : Frame s (s.mkdir .payload) := by
  refine ⟨⟨⟨fun {name file} hfile ↦ ?_, rfl⟩, rfl⟩, rfl⟩
  rcases hpayload : s.payload with - | files
  · have hnone : (s.mkdir .payload).lookup name = none := by
      simp [Disk.mkdir, Disk.lookup, hpayload]
    cases hnone.symm.trans hfile
  · have hsame : (s.mkdir .payload).lookup name = s.lookup name := by
      simp [Disk.mkdir, Disk.lookup, hpayload]
    exact hsame.symm.trans hfile

theorem beside_staging (tree : Option Tree) : Beside s { s with staging := tree } :=
  ⟨⟨id, rfl⟩, rfl⟩

/-- What others take away. -/
theorem frame_meanwhile (s : Disk) (t : Turn) : Frame s (s.meanwhile t) := by
  rw [Disk.meanwhile]
  induction t.taken generalizing s with
  | nil => exact .refl s
  | cons x taken ih =>
    refine Frame.trans ?_ (ih (s.take x))
    cases x with
    | file path => exact frame_unlink path
    | all => exact frame_rmdir

/-- The calls that write in the private directory, or let a child run. -/
def Op.isLoud : Op → Bool
  | .openCopy _ | .copyChunk _ | .resumeMainThread _ => true
  | _ => false

/-- The calls that change the staging directory. -/
def Op.stages : Op → Bool
  | .createDirAll .staging | .unlink .staging _ | .rmdir .staging | .edit _ => true
  | _ => false

/-- A call that fails changes nothing. -/
theorem beside_unless {fails : Bool} (h : Beside s s') : Beside s (if fails then s else s') := by
  cases fails with
  | false => exact h
  | true => exact .refl s

theorem beside_next (ho : o.isLoud = false) : Beside s (s.next o t) := by
  cases o with
  | openCopy path | copyChunk file | resumeMainThread pid => cases ho
  | createDirAll dir =>
    cases dir with
    | payload => exact beside_unless frame_mkdir.toBeside
    | staging => exact beside_unless (beside_staging _)
  | unlink dir path =>
    cases dir with
    | payload => exact beside_unless (frame_unlink path).toBeside
    | staging => exact beside_unless (beside_staging _)
  | rmdir dir =>
    cases dir with
    | payload => exact beside_unless frame_rmdir.toBeside
    | staging => exact beside_unless (beside_staging _)
  | edit f => exact beside_unless (beside_staging _)
  | _ => exact .refl s

theorem frame_next (ho : o.isLoud = false) (hstages : o.stages = false) : Frame s (s.next o t) := by
  refine ⟨beside_next ho, ?_⟩
  cases o with
  | openCopy path | copyChunk file | resumeMainThread pid => cases ho
  | edit f => cases hstages
  | createDirAll dir | rmdir dir | unlink dir path =>
    simp only [Disk.next]
    split
    · rfl
    · cases dir with
      | payload => rfl
      | staging => cases hstages
  | _ => rfl

end Steps

/-! ### Programs that leave something alone -/

section Only

variable {ε δ α : Type} {P : Op → Prop} {dir : Dir}

theorem only_call {o : Op} (h : P o) : Fallible.Only P (call o : Io ε o.Ans) := ⟨h, fun _ ↦ trivial⟩

theorem only_orThrow (f : ε → δ) (r : Except ε α) : Fallible.Only P (orThrow f r) := by
  cases r <;> exact trivial

/-- A call that may fail. -/
theorem only_must {o : Op} (h : P o) (f : ε → δ) (g : o.Ans → Except ε α) :
    Fallible.Only P (do orThrow f (g (← call o))) :=
  (only_call h).bind fun _ ↦ only_orThrow f _

theorem only_forM {ι : Type} {f : ι → Io ε PUnit} (l : List ι)
    (h : ∀ x, Fallible.Only P (f x)) : Fallible.Only P (l.forM f) := by
  induction l with
  | nil => exact trivial
  | cons x l ih => exact (h x).bind fun _ ↦ ih

theorem only_removeDirAll (hlist : P (.listDir dir)) (hunlink : ∀ path, P (.unlink dir path))
    (hrmdir : P (.rmdir dir)) : Fallible.Only P (removeDirAll dir) :=
  (only_call hlist).bind fun _ ↦ (only_orThrow id _).bind fun paths ↦
    (only_forM paths fun path ↦ only_must (hunlink path) id id).bind fun _ ↦
      only_must hrmdir id id

/-- What a request still does that gave its claim up or handed it on. -/
theorem only_discardPayload (hlist : P (.listDir .payload))
    (hunlink : ∀ path, P (.unlink .payload path)) (hrmdir : P (.rmdir .payload)) :
    Fallible.Only P discardPayload :=
  (only_removeDirAll hlist hunlink hrmdir).attempt.bind fun _ ↦ trivial

end Only

/-! ### What a request with the claim knows -/

section Claimed

variable {κ σ : Type} (site : Site κ σ) (req : UpdateApplyRequest)

/-- Every child that was let run found what the archive reader makes of a payload that passes. -/
def Handed (s : Disk) : Prop :=
  ∀ t ∈ s.handed, ∃ payload, Vouched site req payload ∧ t = some (extracted site payload).1

/-- What a child finds now was verified. -/
def Ready (s : Disk) : Prop :=
  ∃ payload, Vouched site req payload ∧ s.staging = some (extracted site payload).1

/-- The copy, if it is there. -/
def Leads (name : Path) (file : Nat) (s : Disk) : Prop :=
  ∀ file', s.lookup name = some file' → file' = file

/-- The copy passes. -/
def Copied (name : Path) (file : Nat) (s : Disk) : Prop :=
  Leads name file s ∧ Vouched site req (s.files file)

/-- A program under the claim: it throws whatever the state, and lets no child run but over what was
verified. -/
abbrev Sound {ε α : Type} (Q : α → Disk → Prop) (p : Io ε α) (s : Disk) : Prop :=
  Fallible.Safe (surroundings site) (Handed site req) (fun _ _ ↦ True) Q p s

variable {site req} {ε δ α : Type} {s s' : Disk} {name : Path} {file : Nat} {o : Op}

theorem Shrinks.keeps (h : Shrinks s s') (hI : Handed site req s) : Handed site req s' := by
  rw [Handed, h.handed]
  exact hI

theorem Leads.shrinks (h : Leads name file s) (hs : Shrinks s s') : Leads name file s' :=
  fun file' hfile ↦ h file' (hs.lookup hfile)

theorem Copied.beside (h : Copied site req name file s) (hs : Beside s s') :
    Copied site req name file s' :=
  ⟨h.1.shrinks hs.toShrinks, by rw [hs.files]; exact h.2⟩

theorem Ready.frame (h : Ready site req s) (hs : Frame s s') : Ready site req s' := by
  rw [Ready, hs.staging]
  exact h

theorem fails_of_result {t : Turn} {a b : α} (h : t.result a = .ok b) : t.fails = false := by
  rw [Turn.result] at h
  split at h
  · cases h
  · next hok => exact Bool.not_eq_true _ ▸ hok

theorem eq_of_result {t : Turn} {a b : α} (h : t.result a = .ok b) : a = b := by
  rw [Turn.result, fails_of_result h] at h
  exact Except.ok.inj h

theorem fails_of_resultIf {t : Turn} {there : Bool} {a b : α} (h : t.resultIf there a = .ok b) :
    t.fails = false := by
  rw [Turn.resultIf] at h
  split at h
  · exact fails_of_result h
  · cases h

theorem sound_orThrow {f : δ → ε} {r : Except δ α} {Q : α → Disk → Prop}
    (hI : Handed site req s) (hQ : ∀ a, r = .ok a → Q a s) : Sound site req Q (orThrow f r) s := by
  cases r with
  | error e => exact ⟨hI, trivial⟩
  | ok a => exact ⟨hI, hQ a rfl⟩

/-- A result and what it is used for. -/
theorem sound_given {f : δ → ε} {r : Except δ α} {β : Type} {k : α → Io ε β} {Q : β → Disk → Prop}
    (hI : Handed site req s) (hk : ∀ a, r = .ok a → Sound site req Q (k a) s) :
    Sound site req Q (orThrow f r >>= k) s := by
  cases r with
  | error e => exact ⟨hI, trivial⟩
  | ok a => exact hk a rfl

/-- A call that writes nothing in the private directory and nothing that is staged. -/
def Op.IsQuiet (o : Op) : Prop := o.isLoud = false ∧ o.stages = false

theorem sound_quiet {p : Io ε α} (hp : Fallible.Only Op.IsQuiet p) (hI : Handed site req s) :
    Sound site req (fun _ s' ↦ Frame s s') p s := by
  refine (hp.safe hI Frame.refl Frame.trans fun o s' t ho hI' ↦ ?_).imp (fun _ _ _ _ ↦ trivial)
    fun _ _ _ h ↦ h
  have hframe : Frame s' ((s'.meanwhile t).next o t) :=
    (frame_meanwhile s' t).trans (frame_next ho.1 ho.2)
  exact ⟨hframe.toShrinks.keeps hI', hframe⟩

theorem sound_aside {p : Io ε α} (hp : Fallible.Only (fun o ↦ o.isLoud = false) p)
    (hI : Handed site req s) : Sound site req (fun _ s' ↦ Beside s s') p s := by
  refine (hp.safe hI Beside.refl Beside.trans fun o s' t ho hI' ↦ ?_).imp
    (fun _ _ _ _ ↦ trivial) fun _ _ _ h ↦ h
  have hbeside : Beside s' ((s'.meanwhile t).next o t) :=
    (frame_meanwhile s' t).toBeside.trans (beside_next ho)
  exact ⟨hbeside.toShrinks.keeps hI', hbeside⟩

theorem quiet_remake : Fallible.Only Op.IsQuiet (remake .payload) := by
  have hexists : Op.IsQuiet (.exists .payload) := ⟨rfl, rfl⟩
  have hcreate : Op.IsQuiet (.createDirAll .payload) := ⟨rfl, rfl⟩
  refine ((only_call hexists).bind fun there ↦ ?_).bind fun _ ↦ only_must hcreate id id
  cases there with
  | false => exact trivial
  | true => exact only_removeDirAll ⟨rfl, rfl⟩ (fun _ ↦ ⟨rfl, rfl⟩) ⟨rfl, rfl⟩

theorem quiet_discardPayload : Fallible.Only Op.IsQuiet discardPayload :=
  only_discardPayload ⟨rfl, rfl⟩ (fun _ ↦ ⟨rfl, rfl⟩) ⟨rfl, rfl⟩

theorem sound_of_quiet {p : Io ε α} (hp : Fallible.Only Op.IsQuiet p) (hI : Handed site req s) :
    Sound site req (fun _ _ ↦ True) p s :=
  (sound_quiet hp hI).mono fun _ _ _ _ ↦ trivial

theorem sound_giveUp {status : StatusCode} {message : String} (hI : Handed site req s) :
    Sound site req (fun _ _ ↦ True) (giveUp status message) s :=
  sound_of_quiet ((only_call ⟨rfl, rfl⟩).bind fun _ ↦ quiet_discardPayload.bind fun _ ↦ trivial) hI

/-! ### The copy -/

/-- The name that is copied to leads to the file that is written, or to none. -/
theorem leads_truncate : Leads name (s.fileAt name) (s.truncate name) := by
  intro file hfile
  have hfile : (s.payload.map fun files ↦
      update files name (some (s.fileAt name))).bind (· name) = some file := hfile
  rcases hpayload : s.payload with - | files
  · rw [hpayload] at hfile
    cases hfile
  · rw [hpayload] at hfile
    have hfile : update files name (some (s.fileAt name)) name = some file := hfile
    rw [Function.update_self] at hfile
    exact (Option.some.inj hfile).symm

theorem sound_copy (hI : Handed site req s) :
    Sound site req (fun _ s' ↦ ∃ file, Leads name file s') (copy name) s := by
  have hopen : Sound site req (fun c s' ↦ Leads name c.file s')
      (do orThrow id (← call (.openCopy name)) : Io String Copying) s := by
    refine safe_call hI fun t ↦ ?_
    have hbefore := (frame_meanwhile s t).toShrinks.keeps hI
    have hsame : ((surroundings site).next s (.openCopy name) t).handed =
        (s.meanwhile t).handed := by
      show (Disk.next _ (.openCopy name) t).handed = _
      simp only [Disk.next]
      split <;> rfl
    have hI' : Handed site req ((surroundings site).next s (.openCopy name) t) := by
      rw [Handed, hsame]
      exact hbefore
    refine sound_orThrow hI' fun c hc ↦ ?_
    have hc : t.resultIf (s.meanwhile t).payload.isSome _ = .ok c := hc
    simp only [Turn.resultIf, Turn.result] at hc
    split at hc
    · split at hc
      · cases hc
      · next hok =>
        cases hc
        have hnext : (surroundings site).next s (.openCopy name) t =
            (s.meanwhile t).truncate name := by
          show Disk.next _ (.openCopy name) t = _
          simp [Disk.next, hok]
        rw [hnext]
        exact leads_truncate
    · cases hc
  refine hopen.bind fun c s₁ hI₁ hleads ↦ ?_
  have hchunks : Fallible.Only (fun o ↦ o = .copyChunk c.file)
      ((List.replicate c.rounds ()).forM fun _ ↦ call (.copyChunk c.file) : Io String PUnit) :=
    only_forM _ fun _ ↦ only_call rfl
  have hsafe : Sound site req (fun _ s' ↦ Shrinks s₁ s')
      ((List.replicate c.rounds ()).forM fun _ ↦ call (.copyChunk c.file) : Io String PUnit)
      s₁ := by
    refine (hchunks.safe hI₁ Shrinks.refl Shrinks.trans fun o s' t ho hI' ↦ ?_).imp
      (fun _ _ _ _ ↦ trivial) fun _ _ _ h ↦ h
    subst ho
    have hshrinks : Shrinks s' ((s'.meanwhile t).append c.file t.bytes) :=
      (frame_meanwhile s' t).toShrinks.trans ⟨id, rfl⟩
    exact ⟨hshrinks.keeps hI', hshrinks⟩
  exact hsafe.bind fun _ s₂ hI₂ hs₂ ↦ sound_orThrow hI₂ fun _ _ ↦ ⟨c.file, hleads.shrinks hs₂⟩

theorem sound_stagePayload {payloadPath : Path} (hI : Handed site req s) :
    Sound site req (fun name s' ↦ ∃ file, Leads name file s')
      (stagePayload site payloadPath) s := by
  refine (sound_of_quiet quiet_remake hI).bind fun _ s₁ hI₁ _ ↦ ?_
  split
  · exact ⟨hI₁, trivial⟩
  · exact (sound_copy hI₁).bind fun _ s₂ hI₂ hleads ↦ ⟨hI₂, hleads⟩

/-! ### The check -/

/-- Opening the copy gives the file that was written. -/
theorem sound_openPayload {f : String → ε} (hI : Handed site req s) (h : Leads name file s) :
    Sound site req (fun opened s' ↦ opened.file = file ∧ Frame s s')
      (do orThrow f (← call (.openPayload name)) : Io ε Opened) s := by
  refine safe_call hI fun t ↦ ?_
  have hframe := frame_meanwhile s t
  refine sound_orThrow (hframe.toShrinks.keeps hI) fun opened hopened ↦ ⟨?_, hframe⟩
  have hopened : ((s.meanwhile t).lookup name).elim (.error t.text)
      (fun file ↦ t.result ⟨file, t.number, t.text⟩) = .ok opened := hopened
  rcases hfile : (s.meanwhile t).lookup name with - | file'
  · rw [hfile] at hopened
    cases hopened
  · rw [hfile, Option.elim_some, Turn.result] at hopened
    split at hopened
    · cases hopened
    · cases hopened
      exact h.shrinks hframe.toShrinks file' hfile

theorem sound_readAll {opened : Opened} {rounds : Nat} {fed : List UInt8} (hI : Handed site req s)
    (hfed : fed <+: s.files opened.file) :
    Sound site req (fun fed' s' ↦ fed' = s'.files opened.file ∧ Frame s s')
      (readAll opened rounds fed) s := by
  -- what is fed stays a prefix of the file, which nobody writes any more
  induction rounds generalizing fed s with
  | zero => exact ⟨hI, trivial⟩
  | succ rounds ih =>
    refine safe_call hI fun t ↦ ?_
    have hframe := frame_meanwhile s t
    have hI' := hframe.toShrinks.keeps hI
    obtain ⟨rest, hrest⟩ := hfed
    have hfiles : (s.meanwhile t).files opened.file = fed ++ rest := by rw [hframe.files, hrest]
    have hchunk : (surroundings site).answer s (.read opened.file fed.length) t =
        rest.take (min 8191 t.number + 1) := by
      show chunk ((s.meanwhile t).files opened.file) _ _ = _
      rw [hfiles, chunk, List.drop_left]
    rw [hchunk]
    split
    · next hnil =>
      refine ⟨hI', ?_, hframe⟩
      show fed = (s.meanwhile t).files opened.file
      rcases List.take_eq_nil_iff.1 hnil with hlen | rfl
      · cases hlen
      · rw [hfiles, List.append_nil]
    · refine (ih hI' ?_).mono fun _ _ _ h ↦ ⟨h.1, hframe.trans h.2⟩
      show _ <+: (s.meanwhile t).files opened.file
      rw [hfiles]
      exact (List.prefix_append_right_inj fed).2 (List.take_prefix _ rest)

theorem sound_reverify (hI : Handed site req s) (h : Leads name file s) :
    Sound site req (fun _ s' ↦ Copied site req name file s') (reverify site name req) s := by
  refine sound_given hI fun _ hsig ↦ sound_given hI fun expected hhash ↦ ?_
  have hread : Sound site req (fun digest s' ↦ digest = site.crypto.sha256 (s'.files file) ∧
      Leads name file s') (sha256File site name) s := by
    refine (sound_openPayload hI h).bind fun opened s₁ hI₁ ⟨hfile, hframe⟩ ↦ ?_
    refine (sound_readAll hI₁ List.nil_prefix).bind fun fed s₂ hI₂ ⟨hfed, hframe'⟩ ↦ ?_
    refine ⟨hI₂, ?_, h.shrinks (hframe.trans hframe').toShrinks⟩
    rw [hfed, hfile]
  refine hread.bind fun digest s' hI' ⟨hdigest, hleads⟩ ↦ ?_
  refine sound_orThrow hI' fun u hmatch ↦ ⟨hleads, ?_⟩
  rw [Vouched, verifyPayloadOffline, verifyPayloadOfflineWithKey, hsig]
  show (findHashInSha256sums req.sha256sums req.assetName >>= _) = _
  rw [hhash]
  show verifySha256Hash (site.crypto.sha256 (s'.files file)) expected = _
  rw [← hdigest, hmatch]

theorem sound_attempt {p : Io ε α} {Q : α → Disk → Prop} (h : Sound site req Q p s) :
    Sound site req (fun r s' ↦ ∀ a, r = .ok a → Q a s')
      (Fallible.attempt p : Io δ (Except ε α)) s := by
  refine Fallible.safe_attempt (h.imp (fun _ _ _ _ ↦ ?_) fun _ _ _ hQ ↦ ?_)
  · rintro _ ⟨⟩
  · rintro _ ⟨⟩
    exact hQ

theorem sound_stage (hI : Handed site req s) :
    Sound site req (fun name s' ↦ ∃ file, Copied site req name file s') (stage site req) s := by
  refine (sound_attempt (sound_stagePayload hI)).bind fun r s₁ hI₁ hleads ↦ ?_
  refine sound_given hI₁ fun name hname ↦ ?_
  obtain ⟨file, hleads⟩ := hleads name hname
  refine (sound_attempt (sound_reverify hI₁ hleads)).bind fun r s₂ hI₂ hcopied ↦ ?_
  exact sound_given hI₂ fun u hu ↦ ⟨hI₂, file, hcopied u hu⟩

/-! ### The extraction -/

/-- The staging directory is made anew, next to the copy. -/
theorem sound_remake (hI : Handed site req s) :
    Sound site req (fun _ s' ↦ Beside s s' ∧ s'.staging = some fun _ ↦ none)
      (remake .staging) s := by
  have hclear : Sound site req (fun _ s' ↦ Beside s s' ∧ s'.staging = none)
      (clearLeftover .staging) s := by
    refine safe_call hI fun t ↦ ?_
    have hframe := frame_meanwhile s t
    have hI₀ := hframe.toShrinks.keeps hI
    rcases hthere : (s.meanwhile t).staging with - | tree
    · rw [show (surroundings site).answer s (.exists .staging) t = false from
        congrArg Option.isSome hthere]
      exact ⟨hI₀, hframe.toBeside, hthere⟩
    · rw [show (surroundings site).answer s (.exists .staging) t = true from
        congrArg Option.isSome hthere]
      refine (sound_aside (only_call rfl) hI₀).bind fun _ s₁ hI₁ hs₁ ↦ ?_
      refine sound_given hI₁ fun paths _ ↦ ?_
      have hunlink (path : Path) : Fallible.Only (fun o ↦ o.isLoud = false)
          (do orThrow id (← call (.unlink .staging path)) : Io String PUnit) :=
        (only_call (P := fun o ↦ o.isLoud = false) rfl).bind fun _ ↦ only_orThrow id _
      refine (sound_aside (only_forM paths hunlink) hI₁).bind fun _ s₂ hI₂ hs₂ ↦
        safe_call hI₂ fun t ↦ ?_
      have hs₃ : Beside s₂ ((s₂.meanwhile t).next (.rmdir .staging) t) :=
        (frame_meanwhile s₂ t).toBeside.trans (beside_next rfl)
      refine sound_orThrow (hs₃.toShrinks.keeps hI₂) fun _ hok ↦
        ⟨hframe.toBeside.trans (hs₁.trans (hs₂.trans hs₃)), ?_⟩
      show ((s₂.meanwhile t).next (.rmdir .staging) t).staging = none
      simp [Disk.next, fails_of_result hok, Disk.rmdir]
  refine hclear.bind fun _ s₁ hI₁ ⟨hs₁, hnone⟩ ↦ safe_call hI₁ fun t ↦ ?_
  have hframe := frame_meanwhile s₁ t
  have hs₂ : Beside s₁ ((s₁.meanwhile t).next (.createDirAll .staging) t) :=
    hframe.toBeside.trans (beside_next rfl)
  refine sound_orThrow (hs₂.toShrinks.keeps hI₁) fun _ hok ↦ ⟨hs₁.trans hs₂, ?_⟩
  show ((s₁.meanwhile t).next (.createDirAll .staging) t).staging = _
  simp [Disk.next, fails_of_result hok, Disk.mkdir, hframe.staging, hnone]

theorem sound_unpack {payload : List UInt8} {rest : Unpack} {tree : Tree} (hI : Handed site req s)
    (hfile : s.files file = payload) (hstaged : s.staging = some tree)
    (hrest : rest.unpacked payload tree = extracted site payload) :
    Sound site req (fun _ s' ↦ s'.staging = some (extracted site payload).1) (unpack file rest)
      s := by
  have hwrite {o : Op} {t : Turn} {s : Disk} (ho : o.isLoud = false) (hI : Handed site req s)
      (hfile : s.files file = payload) : Handed site req ((s.meanwhile t).next o t) ∧
        ((s.meanwhile t).next o t).files file = payload := by
    have hs : Beside s ((s.meanwhile t).next o t) :=
      (frame_meanwhile s t).toBeside.trans (beside_next ho)
    exact ⟨hs.toShrinks.keeps hI, by rw [hs.files, hfile]⟩
  -- each answer is a slice of the payload, so the tree is that of `unpacked`
  induction rest generalizing s tree with
  | pure r =>
    refine sound_orThrow hI fun _ _ ↦ ?_
    rw [hstaged, ← hrest]
    rfl
  | call o k ih =>
    cases o with
    | read off len =>
      refine safe_call hI fun t ↦ ?_
      obtain ⟨hI', hfile'⟩ := hwrite (o := .readAt file off len) (t := t) rfl hI hfile
      refine sound_given hI' fun bytes hok ↦ ?_
      have hok : t.result (chunk ((s.meanwhile t).files file) off len) = .ok bytes := hok
      rw [(frame_meanwhile s t).files, hfile] at hok
      refine ih bytes hI' hfile' ((frame_meanwhile s t).staging.trans hstaged) ?_
      rw [← hrest, Unpack.unpacked, eq_of_result hok]
    | edit f =>
      refine safe_call hI fun t ↦ ?_
      obtain ⟨hI', hfile'⟩ := hwrite (o := .edit f) (t := t) rfl hI hfile
      refine sound_given hI' fun u hok ↦ ?_
      have hedited : ((s.meanwhile t).next (.edit f) t).staging = some (f tree) := by
        simp [Disk.next, fails_of_resultIf hok, (frame_meanwhile s t).staging, hstaged]
      exact ih u hI' hfile' hedited hrest

theorem sound_extract (hI : Handed site req s) (h : Copied site req name file s) :
    Sound site req (fun _ s' ↦ Ready site req s') (extract site name) s := by
  refine (sound_quiet (only_call ⟨rfl, rfl⟩) hI).bind
    fun _ s₁ hI₁ hs₁ ↦ sound_given hI₁ fun _ _ ↦ ?_
  refine (sound_remake hI₁).bind fun _ s₂ hI₂ ⟨hs₂, hstaged⟩ ↦ ?_
  have hcopied := h.beside (hs₁.toBeside.trans hs₂)
  refine (sound_openPayload hI₂ hcopied.1).bind fun opened s₃ hI₃ ⟨hopened, hs₃⟩ ↦ ?_
  have hvouched : Vouched site req (s₃.files opened.file) := by
    rw [hopened, hs₃.files]
    exact hcopied.2
  refine (sound_unpack hI₃ rfl (hs₃.staging.trans hstaged) rfl).bind fun _ s₄ hI₄ hstaged₄ ↦ ?_
  have hready : Ready site req s₄ := ⟨_, hvouched, hstaged₄⟩
  refine (sound_quiet (only_call ⟨rfl, rfl⟩) hI₄).bind fun _ s₅ hI₅ hs₅ ↦ ?_
  exact sound_given hI₅ fun _ _ ↦ ⟨hI₅, hready.frame hs₅⟩

/-! ### The request -/

theorem sound_spawnActor (hI : Handed site req s) (h : Ready site req s) :
    Sound site req (fun _ _ ↦ True) spawnActor s := by
  refine (sound_quiet (only_call ⟨rfl, rfl⟩) hI).bind fun _ s₁ hI₁ hs₁ ↦
    sound_given hI₁ fun pid _ ↦ ?_
  have hrecord : Fallible.Only Op.IsQuiet (Fallible.attempt (recordSpawnedDriver pid) :
      Io String (Except String Unit)) := by
    refine Fallible.Only.attempt ((only_call ⟨rfl, rfl⟩).bind fun _ ↦ ?_)
    exact (only_orThrow id _).bind fun _ ↦ (only_call ⟨rfl, rfl⟩).bind fun _ ↦ only_orThrow id _
  refine (sound_quiet hrecord hI₁).bind fun recorded s₂ hI₂ hs₂ ↦ ?_
  have hready := (h.frame hs₁).frame hs₂
  cases recorded with
  | error e => exact sound_of_quiet ((only_call ⟨rfl, rfl⟩).bind fun _ ↦ trivial) hI₂
  | ok u =>
    refine safe_call hI₂ fun t ↦ ?_
    have hframe := frame_meanwhile s₂ t
    have hI₃ : Handed site req ((s₂.meanwhile t).next (.resumeMainThread pid) t) := by
      simp only [Disk.next]
      split
      · exact hframe.toShrinks.keeps hI₂
      · exact List.forall_mem_cons.2 ⟨hready.frame hframe, hframe.toShrinks.keeps hI₂⟩
    split
    · exact sound_of_quiet ((only_call ⟨rfl, rfl⟩).bind fun _ ↦ trivial) hI₃
    · exact ⟨hI₃, trivial⟩

theorem sound_applyStaged (hI : Handed site req s) (h : Copied site req name file s) :
    Sound site req (fun _ _ ↦ True) (applyStaged site name) s := by
  refine (sound_attempt (sound_extract hI h)).bind fun extracted s₁ hI₁ hready ↦ ?_
  refine (sound_quiet (only_call ⟨rfl, rfl⟩) hI₁).bind fun joined s₂ hI₂ hs₂ ↦ ?_
  rcases joined with e | u
  · exact sound_giveUp hI₂
  · rcases extracted with e | u
    · exact sound_giveUp hI₂
    · have hspawn := sound_spawnActor hI₂ ((hready u rfl).frame hs₂)
      refine (sound_attempt hspawn).bind fun r s₃ hI₃ _ ↦ ?_
      cases r with
      | error e => exact sound_giveUp hI₃
      | ok u => exact sound_of_quiet quiet_discardPayload hI₃

theorem sound_applyClaimed (hI : Handed site req s) :
    Sound site req (fun _ _ ↦ True) (applyClaimed site req) s := by
  refine (sound_quiet (only_call ⟨rfl, rfl⟩) hI).bind fun r s₁ hI₁ _ ↦ ?_
  rcases r with e | u
  · exact sound_of_quiet ((only_call ⟨rfl, rfl⟩).bind fun _ ↦ trivial) hI₁
  refine (sound_attempt (sound_stage hI₁)).bind fun staged s₂ hI₂ hcopied ↦ ?_
  refine (sound_quiet (only_call ⟨rfl, rfl⟩) hI₂).bind fun joined s₃ hI₃ hs₃ ↦ ?_
  rcases joined with e | u
  · exact sound_giveUp hI₃
  rcases staged with (e | e) | name
  · exact sound_giveUp hI₃
  · exact sound_giveUp hI₃
  · obtain ⟨file, hcopied⟩ := hcopied name rfl
    exact sound_applyStaged hI₃ (hcopied.beside hs₃.toBeside)

end Claimed

/-- **What a child finds was verified.** Whatever a client does to its payload, whatever the other
requests take away, however the calls go and wherever the request stops: the staging directory over
which it lets a child run is what the archive reader makes of bytes that pass the check against the
request's own manifest. -/
theorem handed_vouched {κ σ : Type} (site : Site κ σ) (req : UpdateApplyRequest) (s : Disk)
    (ts : List Turn) :
    Handed site req
      ((applyClaimed site req).run.run (surroundings site) { s with handed := [] } ts).2.1 := by
  have hnone : Handed site req { s with handed := [] } := by
    rintro t ⟨⟩
  exact ((sound_applyClaimed hnone).sound ts).1

end Hole.Update
