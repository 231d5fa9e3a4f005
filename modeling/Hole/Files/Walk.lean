import Hole.Files.Dir

/-!
# The walk to a folder

`util::dir::Dir` opens a folder by walking to it, one name at a time, with each link read and
expanded by the walk itself: `trail` says which links are followed and where the walk may make a
folder or end, and `open_dir` is the walk. A link of an unprivileged user binds the walk to that
user, who may change the folders of the path between any two of its system calls.

The handle of a folder that the walk leaves holds no lock, so its `close` is not a step here.
-/

namespace Hole.Files

open Posix Effect

/-! ### The trail -/

/-- Who owns a folder or a link: the system, or one unprivileged principal. -/
inductive Owner (Id : Type)
  | privileged
  | user (id : Id)
  deriving DecidableEq

section Trail

variable {Id : Type} [DecidableEq Id]

/-- Whether a walk may move from something that `self` owns into something that `other` owns. -/
def Owner.mayEnter (self other : Owner Id) : Bool :=
  match self with
  | .privileged => true
  | .user id => other = .user id

/-- What a walk has followed so far. -/
structure Trail (Id : Type) where
  /-- The unprivileged owner of a link the walk followed, if any. -/
  ledBy : Option Id
  followed : Nat
  limit : Nat

/-- A walk that may follow `limit` links. -/
def Trail.new (limit : Nat) : Trail Id := ⟨none, 0, limit⟩

/-- Admit following a link of `link`'s that sits in a folder of `dir`'s, or refuse it. -/
def Trail.follow (trail : Trail Id) (dir link : Owner Id) : Except Refusal (Trail Id) :=
  if trail.limit ≤ trail.followed || !dir.mayEnter link then .error .symlink
  else
    match link with
    | .privileged => .ok { trail with followed := trail.followed + 1 }
    | .user owner =>
      match trail.ledBy with
      | none => .ok { trail with ledBy := some owner, followed := trail.followed + 1 }
      | some ledBy =>
        if ledBy = owner then .ok { trail with followed := trail.followed + 1 }
        else .error .symlink

/-- `stays_with_the_link_owner`: the folder whose owner `dir` reads is the link owner's; a walk that
is bound to no one does not read it. -/
def Trail.staysWithTheLinkOwner (trail : Trail Id) (dir : Io (Owner Id)) : Io Unit :=
  match trail.ledBy with
  | none => pure ()
  | some ledBy => do
    match ← dir with
    | .user owner => if owner = ledBy then pure () else throw (.refused .symlink)
    | .privileged => throw (.refused .symlink)

/-- Admit creating a folder in the one whose owner `dir` reads. -/
def Trail.createIn (trail : Trail Id) (dir : Io (Owner Id)) : Io Unit :=
  trail.staysWithTheLinkOwner dir

/-- Admit the walk's last folder being the one whose owner `dir` reads. -/
def Trail.endAt (trail : Trail Id) (dir : Io (Owner Id)) : Io Unit :=
  trail.staysWithTheLinkOwner dir

end Trail

/-! ### The steps of a path -/

/-- The byte that separates the names of a path. -/
def slash : UInt8 := 47

/-- What stands between the separators of a path. -/
def pieces (path : List UInt8) : List Name := path.splitOn slash

theorem splitOn_cons (b : UInt8) (path : List UInt8) :
    pieces (b :: path) = if b = slash then [] :: pieces path else (pieces path).modifyHead
    (b :: ·) := by
  simp only [pieces, List.splitOn_cons_eq_if_modifyHead, beq_iff_eq]

theorem not_mem_of_mem_pieces {path : List UInt8} {p : Name} (hp : p ∈ pieces path) :
    slash ∉ p := by
  induction path generalizing p with
  | nil =>
    obtain rfl : p = [] := by simpa [pieces] using hp
    exact List.not_mem_nil
  | cons b path ih =>
    rw [splitOn_cons] at hp
    split at hp
    · rcases List.mem_cons.1 hp with rfl | hp
      · exact List.not_mem_nil
      · exact ih hp
    · next hb =>
      rcases hpieces : pieces path with - | ⟨q, qs⟩
      · rw [hpieces] at hp
        cases hp
      · rw [hpieces] at hp ih
        rcases List.mem_cons.1 hp with rfl | hp
        · exact List.not_mem_cons_of_ne_of_not_mem (Ne.symm hb) (ih (.head _))
        · exact ih (List.mem_cons_of_mem q hp)

theorem length_pieces (path : List UInt8) : (pieces path).length ≤ path.length + 1 := by
  induction path with
  | nil => simp [pieces]
  | cons b path ih =>
    rw [splitOn_cons]
    split
    · simpa using ih
    · rw [List.length_modifyHead, List.length_cons]
      omega

/-- The names a path can be made of: no separator in them, and neither `.` nor `..`. -/
abbrev Component : Type := {n : Name // n ≠ [] ∧ n ≠ dot ∧ n ≠ dotDot ∧ slash ∉ n}

/-- A step of a walk. -/
inductive Step
  | root
  | parent
  | name (name : Component)

/-- The step that a piece of a path stands for; `.` and nothing stand for none. -/
def stepOf (p : Name) (hp : slash ∉ p) : Option Step :=
  if hdot : p = [] ∨ p = dot then none
  else if hup : p = dotDot then some .parent
  else some (.name ⟨p, fun h ↦ hdot (.inl h), fun h ↦ hdot (.inr h), hup, hp⟩)

/-- What can stand between two separators. -/
abbrev Piece : Type := {p : Name // slash ∉ p}

/-- The pieces of a path, each with what it is. -/
def piecesOf (path : List UInt8) : List Piece :=
  (pieces path).attach.map fun p ↦ ⟨p.1, not_mem_of_mem_pieces p.2⟩

/-- The steps of pieces. -/
def stepsFor (ps : List Piece) : List Step := ps.filterMap fun p ↦ stepOf p.1 p.2

/-- The steps of the pieces of a path. -/
def stepsIn (path : List UInt8) : List Step := stepsFor (piecesOf path)

/-- Whether a path begins at the root. -/
def rooted (path : List UInt8) : Bool := path.head? = some slash

/-- `steps_of`. -/
def stepsOf (path : List UInt8) : List Step :=
  if rooted path then .root :: stepsIn path else stepsIn path

theorem length_stepsIn (path : List UInt8) : (stepsIn path).length ≤ path.length + 1 := by
  refine Nat.le_trans (List.length_filterMap_le _ _) ?_
  rw [piecesOf, List.length_map, List.length_attach]
  exact length_pieces path

theorem length_stepsOf (path : List UInt8) : (stepsOf path).length ≤ path.length + 2 := by
  unfold stepsOf
  split
  · exact Nat.succ_le_succ (length_stepsIn path)
  · exact Nat.le_succ_of_le (length_stepsIn path)

/-! ### The walk -/

/-- Root is the system; every other uid is a user. -/
def ownerOfUid (uid : Nat) : Owner Nat := if uid = 0 then .privileged else .user uid

/-- `Meta::owner`. -/
def metaOwner (st : Meta) : Owner Nat := ownerOfUid st.uid

/-- `open_dir_at`: a folder, for lookup only. -/
def openDirAt (dir : Nat) (name : Name) : Io Nat :=
  sys (.openat dir name { access := .search, directory := true, noFollow := true } 0)

/-- `reopen_for_use`. -/
def reopenForUse (dir : Nat) : Io Nat :=
  sys (.openat dir dot { access := .read, directory := true, noFollow := true } 0)

/-- `open_start`. -/
def openStart (rooted : Bool) : Io Nat := sys (.start rooted)

/-- `Standing::owner`. -/
def standingOwner (dir : Nat) : Io (Owner Nat) := do
  let st ← sys (.fstat dir)
  pure (metaOwner st)

/-- `cstr`. -/
def cstr (name : Component) : Io Unit :=
  if name.1.contains 0 then throw .invalidInput else pure ()

/-- What the walk has left to do and what it has followed. -/
structure Walk where
  steps : List Step
  trail : Trail Nat

/-- Why a made folder could not be opened. -/
def unopenableMade (dir : Nat) (name : Name) (err : Error) : Io Unit := do
  match ← Fallible.attempt (δ := Error) (sys (.fstatat dir name)) with
  | .ok entry =>
    match Meta.kind entry with
    | .symlink => throw (.refused .symlink)
    | .file | .other => throw (.refused .notDirectory)
    | .directory => throw err
  | .error _ => throw err

/-- `fchown` of an open folder that leaves the group as it is. -/
def chownFolder (made uid : Nat) : Io Unit := sys (.fchown made uid none)

/-- Hand an open folder of which `st` was said to `uid`: only a folder that `maker` owns is the one
the walk made. -/
def handOver (made maker uid : Nat) (st : Meta) : Io Unit :=
  if st.uid = maker then chownFolder made uid
  else throw (.refused (.foreignOwner st.uid))

/-- Hand the folder `name` in `dir`, which the walk just made as the process of uid `maker`, to
`uid`. -/
def giveMadeFolder (dir : Nat) (name : Name) (maker uid : Nat) : Io Unit :=
  if uid = maker then pure ()
  else do
    match ← Fallible.attempt (sys (.openat dir name
        { access := .read, directory := true, nonblock := true, noFollow := true } 0)) with
    | .error err => unopenableMade dir name err
    | .ok made =>
      let st ← sys (.fstat made)
      handOver made maker uid st

/-- Make the folder `name` in `cur`; somebody else may have been faster. -/
def makeFolder (cur : Nat) (name : Name) (maker : Nat) (trail : Trail Nat) : Io Unit := do
  trail.createIn (standingOwner cur)
  match ← Fallible.attempt (sys (.mkdirat cur name 0o777)) with
  | .ok _ =>
    match trail.ledBy with
    | some uid => giveMadeFolder cur name maker uid
    | none => pure ()
  | .error err => if err.is .alreadyExists then pure () else throw err

/-- Follow the link `name` in `cur`, which `entry` was said of. -/
def followLink (cur : Nat) (name : Name) (entry : Meta) (walk : Walk) : Io Walk := do
  let parent ← sys (.fstat cur)
  match walk.trail.follow (metaOwner parent) (metaOwner entry) with
  | .error why => throw (.refused why)
  | .ok trail =>
    let target ← sys (.readlinkat cur name)
    pure ⟨stepsOf target ++ walk.steps, trail⟩

/-- The loop of `descend`, in at most the given number of passes. -/
def descendLoop (cur : Nat) (name : Name) (create : Bool) (maker : Nat) (walk : Walk) :
    Nat → Io (Option Nat × Walk)
  | 0 => throw .exhausted
  | passes + 1 => do
    match ← Fallible.attempt (openDirAt cur name) with
    | .ok next => pure (some next, walk)
    | .error openErr =>
      match ← Fallible.attempt (sys (.fstatat cur name)) with
      | .error err =>
        if err.is .notFound then
          if create then
            makeFolder cur name maker walk.trail
            descendLoop cur name create maker walk passes
          else throw err
        else throw openErr
      | .ok entry =>
        match Meta.kind entry with
        | .symlink => do
          let walk' ← followLink cur name entry walk
          pure (none, walk')
        | .directory => throw openErr
        | .file | .other => throw (.refused .notDirectory)

/-- `descend`: open the folder `name` in `cur`, or follow the link it is. -/
def descend (cur : Nat) (name : Component) (create : Bool) (maker : Nat) (walk : Walk)
    (passes : Nat) : Io (Option Nat × Walk) := do
  cstr name
  descendLoop cur name.1 create maker walk passes

/-- The loop of `open_dir`, in at most the given number of rounds; `passes` is what each `descend`
is given. -/
def walkOn (create : Bool) (maker passes : Nat) (cur : Nat) (walk : Walk) : Nat → Io
    (Nat × Trail Nat)
  | 0 => throw .exhausted
  | rounds + 1 =>
    match walk.steps with
    | [] => pure (cur, walk.trail)
    | .root :: steps => do
      let next ← openStart true
      walkOn create maker passes next { walk with steps := steps } rounds
    | .parent :: steps => do
      let next ← openDirAt cur dotDot
      walkOn create maker passes next { walk with steps := steps } rounds
    | .name name :: steps => do
      match ← descend cur name create maker { walk with steps := steps } passes with
      | (some next, walk') => walkOn create maker passes next walk' rounds
      | (none, walk') => walkOn create maker passes cur walk' rounds

/-- A folder of which `st` was said is the expected owner's, or the caller's. -/
def expectOwner (uid caller : Nat) (st : Meta) : Io Unit :=
  if st.uid ≠ uid ∧ st.uid ≠ caller then throw (.refused (.foreignOwner st.uid)) else pure ()

/-- The folder a walk ended in is the one expected. -/
def checkOwner (cur : Nat) (caller : Nat) : Option (Nat × Nat) → Io Unit
  | none => pure ()
  | some (uid, _) => do
    let st ← sys (.fstat cur)
    expectOwner uid caller st

/-- `open_dir`: the folder at a path. `maker` is the uid of the process and `limit` is
`MAX_LINKS`. -/
def openDir (path : List UInt8) (create : Bool) (owner : Option (Nat × Nat)) (caller maker : Nat)
    (limit rounds passes : Nat) : Io Nat := do
  let start ← openStart (rooted path)
  -- a rooted path's first step is the root, where the walk stands already
  let (cur, trail) ← walkOn create maker passes start ⟨stepsIn path, .new limit⟩ rounds
  trail.endAt (standingOwner cur)
  checkOwner cur caller owner
  reopenForUse cur

end Hole.Files
