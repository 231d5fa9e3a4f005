import Hole.State.OnDisk
import Mathlib.Logic.Function.Basic

/-!
# State files and the names of their backups

`VersionedFile::update` (`versioned_file/update.rs`, `versioned_file/store.rs`) call by call, over a
folder whose names are the ones on disk. `OnDisk` has the moments of one update; here a backup has a
name, the search for a free one is a loop, and other writers may take names between any two calls.

A call fails by a choice of the surroundings, and then it does nothing. What the code goes by is
answered truly: a name that is not there is `NotFound`, and one that is taken is
`AlreadyExists`. The path lock keeps other writers from the file itself. The temporary file of a
write has no name here, and of the log only the backup that could not be removed is kept.
-/

namespace Hole.State.Backups

open Effect Files
open Fallible (safe_call safe_pure safe_throw safe_lift Safe)

variable {σ ρ : Type}

/-! ### The folder -/

/-- A file name. -/
abbrev FileName := List Char

/-- `backup_name`. -/
def backupName (file : FileName) (attempt : Nat) : FileName :=
  match attempt with
  | 1 => file ++ ".unreadable.bak".toList
  | n => file ++ ".unreadable.".toList ++ Nat.toDigits 10 n ++ ".bak".toList

/-- `EntryKind`. -/
inductive EntryKind
  | file
  | symlink
  | directory
  | other
  deriving DecidableEq

/-- What a name stands for, with the number of its names. -/
structure Node where
  kind : EntryKind
  bytes : Bytes
  owner : Owner Nat
  links : Nat
  denied : Bool

/-- A directory with its files. -/
structure Shelf where
  made : Bool
  owner : Owner Nat
  names : FileName → Option Nat
  node : Nat → Node
  /-- The first number that no file has had. -/
  next : Nat
  taken : List FileName
  /-- The backups that the log says could not be removed. -/
  left : List FileName

namespace Shelf

variable (s : Shelf)

/-- The file gets so many names more, or fewer. -/
def recount (i : Nat) (f : Nat → Nat) : Shelf :=
  { s with node := Function.update s.node i { s.node i with links := f (s.node i).links } }

/-- A new file at a name. -/
def put (n : FileName) (x : Node) : Shelf :=
  { s with
    names := Function.update s.names n (some s.next)
    node := Function.update s.node s.next x
    next := s.next + 1 }

/-- A file gets a second name. -/
def link (i : Nat) (backup : FileName) : Shelf :=
  { s.recount i (· + 1) with names := Function.update s.names backup (some i) }

/-- A name is gone. -/
def unlink (i : Nat) (n : FileName) : Shelf :=
  { s.recount i (· - 1) with names := Function.update s.names n none }

/-- A file moves to another name. -/
def move (i : Nat) (old new : FileName) : Shelf :=
  { s with names := Function.update (Function.update s.names old none) new (some i) }

/-- The staged bytes get their name. -/
def publish (place : Place) (n : FileName) (bytes : Bytes) : Shelf :=
  match s.names n with
  | some i => (s.recount i (· - 1)).put n ⟨.file, bytes, place.file, 1, false⟩
  | none => s.put n ⟨.file, bytes, place.file, 1, false⟩

/-- Another writer takes a name, where it is free and not the file's own. -/
def take (file : FileName) (n : FileName) (x : Node) : Shelf :=
  if s.made ∧ n ≠ file ∧ s.names n = none then { s.put n x with taken := n :: s.taken } else s

end Shelf

/-! ### Calls -/

/-- The kinds of an `io::Error` that the code goes by. -/
inductive IoKind
  | notFound
  | alreadyExists
  | unsupported
  | other

/-- The calls of an update: of `Dir`, of `Fs` and of its `Placement`, and one line of the log. -/
inductive Call
  | openDir (create : Bool)
  | reader
  | read (name : FileName)
  | kindOf (name : FileName)
  | prepareDir
  | stage (name : FileName) (bytes : Bytes)
  | hardLink (original backup : FileName)
  | publish (name : FileName) (bytes : Bytes)
  | renameNoreplace (old new : FileName)
  | removeFile (name : FileName)
  | afterPublish
  | syncDir
  | warn (backup : FileName)

/-- What a call gives. -/
def Val : Call → Type
  | .read _ => Bytes
  | .kindOf _ => Option EntryKind
  | _ => Unit

/-- What a call answers. -/
abbrev Ans (o : Call) : Type := Except IoKind (Val o)

/-- How a call fails by itself. -/
inductive Fault
  | unsupported
  | other

/-- The error of such a call. -/
def Fault.kind : Fault → IoKind
  | unsupported => .unsupported
  | other => .other

/-- What happens at a call: the names that other writers take before it, and whether it fails. -/
structure Choice where
  takers : List (FileName × Node)
  fault : Option Fault

/-- A vouched read. -/
def Node.read (x : Node) (folder : Owner Nat) : Except IoKind Bytes :=
  if x.kind = .file ∧ mayRead x.owner x.links folder ∧ ¬x.denied then .ok x.bytes else .error .other

/-- What a call does. -/
def Shelf.act (place : Place) (s : Shelf) : (o : Call) → Except IoKind (Val o × Shelf)
  | .openDir create =>
    if s.made then .ok ((), s)
    else if create then .ok ((), { s with made := true })
    else .error .notFound
  | .reader => .ok ((), s)
  | .read name =>
    match s.names name with
    | none => .error .notFound
    | some i =>
      match (s.node i).read s.owner with
      | .ok bytes => .ok (bytes, s)
      | .error kind => .error kind
  | .kindOf name => .ok ((s.names name).map fun i ↦ (s.node i).kind, s)
  | .prepareDir => .ok ((), { s with owner := place.folder })
  | .stage _ _ => .ok ((), s)
  | .hardLink original backup =>
    match s.names original with
    | none => .error .notFound
    | some i =>
      if (s.names backup).isSome then .error .alreadyExists
      else if (s.node i).kind = .directory then .error .other
      else .ok ((), s.link i backup)
  | .publish name bytes =>
    if !s.made then .error .notFound
    else if (s.names name).any fun i ↦ (s.node i).kind = .directory then .error .other
    else .ok ((), s.publish place name bytes)
  | .renameNoreplace old new =>
    match s.names old with
    | none => .error .notFound
    | some i => if (s.names new).isSome then .error .alreadyExists else .ok ((), s.move i old new)
  | .removeFile name =>
    match s.names name with
    | none => .error .notFound
    | some i => if (s.node i).kind = .directory then .error .other else .ok ((), s.unlink i name)
  | .afterPublish => .ok ((), s)
  | .syncDir => .ok ((), s)
  | .warn backup => .ok ((), { s with left := backup :: s.left })

/-- A call that can fail by itself. -/
def Call.fallible : Call → Bool
  | .warn _ => false
  | _ => true

/-- How a call goes, once the other writers had their turn. -/
def Shelf.outcome (place : Place) (s : Shelf) (o : Call) (fault : Option Fault) :
    Except IoKind (Val o × Shelf) :=
  match fault with
  | some f => if o.fallible then .error f.kind else s.act place o
  | none => s.act place o

/-- The other writers' turn. -/
def Shelf.others (file : FileName) (s : Shelf) (takers : List (FileName × Node)) : Shelf :=
  takers.foldl (fun s x ↦ s.take file x.1 x.2) s

/-- The surroundings of an update of `file`. -/
def surroundings (place : Place) (file : FileName) : Env Call Ans Shelf Choice where
  answer s o c := ((s.others file c.takers).outcome place o c.fault).map Prod.fst
  next s o c :=
    match (s.others file c.takers).outcome place o c.fault with
    | .ok (_, s') => s'
    | .error _ => s.others file c.takers

/-! ### The update -/

/-- Why an update gave no outcome. -/
inductive Stop
  | failed (error : StoreError)
  /-- The model's word for more attempts at a name than it was given. -/
  | exhausted

/-- Programs over the calls. -/
abbrev Io (α : Type) : Type := Fallible Call Ans Stop α

section Update

variable (schema : Schema σ) (file : FileName)

/-- The one look at a name whose read failed. -/
def examine : Prog Call Ans (Loaded σ) := do
  let kind : Except IoKind (Option EntryKind) ← Prog.perform (Call.kindOf file)
  match kind with
  | .ok (some .file) => pure (.unreadable .file)
  | .ok (some _) => pure (.unreadable .notAFile)
  | .ok none => pure .absent
  | .error _ => pure (.unreadable .unprobed)

/-- `Loaded::from_read`, of what the read answered. -/
def fromRead : Except IoKind Bytes → Prog Call Ans (Loaded σ)
  | .ok bytes => pure (schema.classify bytes).loaded
  | .error .notFound => pure .absent
  | .error _ => examine file

/-- `read_through`. -/
def readThrough : Prog Call Ans (Loaded σ) := Prog.call (.read file) (fromRead schema file)

/-- The directory, where it is there, and what the read through it found. -/
def look : Io (Bool × Loaded σ) := do
  match ← Fallible.call (.openDir false) with
  | .error .notFound => pure (false, .absent)
  | .error _ => throw (.failed .io)
  | .ok _ =>
    match ← Fallible.call .reader with
    | .error .notFound => pure (true, .absent)
    | .error _ => pure (true, .unreadable .directory)
    | .ok _ => pure (true, ← ExceptT.lift (readThrough schema file))

/-- `VersionedFile::observe`. -/
def observe : Prog Call Ans (Loaded σ) := do
  match ← Prog.perform (.openDir false) with
  | .ok _ => readThrough schema file
  | .error .notFound => pure .absent
  | .error _ => pure (.unreadable .directory)

/-- A call whose error is the update's. -/
def must (o : Call) : Io Unit := do
  match ← Fallible.call o with
  | .ok _ => pure ()
  | .error _ => throw (.failed .io)

/-- The search for a free backup name, from an attempt on, by the call that takes one. -/
def search (o : FileName → Call) : (passes attempt : Nat) → Io (Option FileName)
  | 0, _ => throw .exhausted
  | passes + 1, attempt => do
    match ← Fallible.call (o (backupName file attempt)) with
    | .ok _ => pure (some (backupName file attempt))
    | .error .alreadyExists => search o passes (attempt + 1)
    | .error .notFound => pure none
    | .error _ => throw (.failed .io)

/-- `link_to_free_backup`. -/
def linkToFreeBackup (passes : Nat) : Io (Option FileName) := search file (.hardLink file) passes 1

/-- `move_aside_in`. -/
def moveAsideIn (passes : Nat) : Io (Option FileName) :=
  search file (.renameNoreplace file) passes 1

/-- `take_back_backup`. -/
def takeBackBackup (backup : FileName) : Prog Call Ans Unit := do
  match ← Prog.perform (.removeFile backup) with
  | .ok _ => pure ()
  | .error _ => do
    let _ ← Prog.perform (.warn backup)
    pure ()

/-- `finalize`. -/
def finalize : Prog Call Ans Unit := do
  let _ ← Prog.perform .afterPublish
  let _ ← Prog.perform .syncDir
  pure ()

/-- `publish`, and the backup taken back where that fails. -/
def publishOver (bytes : Bytes) (backup : Option FileName) : Io Unit := do
  match ← Fallible.call (.publish file bytes) with
  | .ok _ => ExceptT.lift finalize
  | .error _ => do
    match backup with
    | some backup => ExceptT.lift (takeBackBackup backup)
    | none => pure ()
    throw (.failed .io)

/-- The directory of a write: made, where there was none. -/
def opened (dir : Bool) : Io Unit := if dir then pure () else must (.openDir true)

/-- The backup of a write, where one is made. -/
def backedUp (passes : Nat) (backUp : Bool) : Io (Option FileName) :=
  if backUp then linkToFreeBackup file passes else pure none

/-- `write`. -/
def write (passes : Nat) (dir : Bool) (bytes : Bytes) (backUp : Bool) : Io Unit := do
  opened dir
  must .prepareDir
  must (.stage file bytes)
  let backup ← backedUp file passes backUp
  publishOver file bytes backup

/-- The action that `step` chose, and the backup that a file was moved to. -/
def apply (passes : Nat) (dir : Bool) (bytes : Option Bytes) :
    Step σ → Io (UpdateOutcome × Option FileName)
  | .nothing outcome => pure (outcome, none)
  | .refuse error => throw (.failed error)
  | .write _ backUp => do
    write file passes dir (bytes.getD []) backUp
    pure (.stored, none)
  | .delete =>
    if dir then do
      match ← Fallible.call (.removeFile file) with
      | .ok _ => pure (.removed, none)
      | .error .notFound => pure (.absent, none)
      | .error _ => throw (.failed .io)
    else pure (.absent, none)
  | .moveAside =>
    if dir then do
      match ← moveAsideIn file passes with
      | some backup => pure (.movedAside, some backup)
      | none => pure (.absent, none)
    else pure (.absent, none)

/-- How an update went: what it gave its caller to decide by, if it came to that, and what it
returned, with the path of a file that it moved aside. -/
structure Updated (σ ρ : Type) where
  seen : Option (Loaded σ)
  result : Except Stop (ρ × UpdateOutcome × Option FileName)

/-- `VersionedFile::update`, in at most so many attempts at the name of a backup. -/
def update (role : Role) (passes : Nat) (decide : Loaded σ → Change σ × ρ) :
    Prog Call Ans (Updated σ ρ) := do
  match ← (look schema file).run with
  | .error stop => pure ⟨none, .error stop⟩
  | .ok (dir, loaded) =>
    let (change, result) := decide loaded
    match schema.encodeChange change with
    | .error error => pure ⟨some loaded, .error (.failed error)⟩
    | .ok bytes => do
      let done ← (apply file passes dir bytes (step role loaded change)).run
      pure ⟨some loaded, done.map fun outcome ↦ (result, outcome)⟩

end Update

/-! ### What a call can do -/

/-- Names stand for files that are there, and there are none where there is no directory. -/
structure Wf (s : Shelf) : Prop where
  bound : ∀ {n i}, s.names n = some i → i < s.next
  bare : s.made = false → ∀ n, s.names n = none

/-- Other writers took names between the two, and nothing else happened to the files. -/
structure Same (place : Place) (file : FileName) (s t : Shelf) : Prop where
  names : ∀ n, t.names n = s.names n ∨
    s.names n = none ∧ n ≠ file ∧ n ∈ t.taken ∧ ∀ i, t.names n = some i → s.next ≤ i
  node : ∀ i < s.next, t.node i = s.node i
  next : s.next ≤ t.next
  taken : ∀ n ∈ s.taken, n ∈ t.taken
  left : t.left = s.left
  owner : t.owner = s.owner ∨ t.owner = place.folder

section Calls

variable {place : Place} {file : FileName} {s t v : Shelf} {i : Nat} {n : FileName}

theorem Same.refl (place : Place) (file : FileName) (s : Shelf) : Same place file s s :=
  ⟨fun _ ↦ .inl rfl, fun _ _ ↦ rfl, Nat.le_refl _, fun _ h ↦ h, rfl, .inl rfl⟩

theorem Same.trans (h : Same place file s t) (h' : Same place file t v) : Same place file s v where
  names n := by
    rcases h'.names n with hv | ⟨hnone, hfile, htaken, hfresh⟩
    · rcases h.names n with ht | ⟨hnone, hfile, htaken, hfresh⟩
      · exact .inl (hv.trans ht)
      · exact .inr ⟨hnone, hfile, h'.taken n htaken, fun i hi ↦ hfresh i (hv ▸ hi)⟩
    · have hfresh' (i : Nat) (hi : v.names n = some i) : s.next ≤ i :=
        Nat.le_trans h.next (hfresh i hi)
      rcases h.names n with ht | ⟨hnone', -⟩
      · exact .inr ⟨ht ▸ hnone, hfile, htaken, hfresh'⟩
      · exact .inr ⟨hnone', hfile, htaken, hfresh'⟩
  node i hi := (h'.node i (Nat.lt_of_lt_of_le hi h.next)).trans (h.node i hi)
  next := Nat.le_trans h.next h'.next
  taken n hn := h'.taken n (h.taken n hn)
  left := h'.left.trans h.left
  owner := by
    rcases h'.owner with ho | ho
    · exact ho ▸ h.owner
    · exact .inr ho

theorem Same.own (h : Same place file s t) : t.names file = s.names file := by
  rcases h.names file with hname | ⟨-, hne, -, -⟩
  · exact hname
  · exact absurd rfl hne

theorem Same.name (h : Same place file s t) (hn : s.names n = some i) : t.names n = some i := by
  rcases h.names n with hname | ⟨hnone, -, -⟩
  · exact hname.trans hn
  · rw [hn] at hnone
    cases hnone

theorem Same.folder (h : Same place file s t) (hs : s.owner = place.folder) :
    t.owner = place.folder := by
  rcases h.owner with ho | ho
  · exact ho.trans hs
  · exact ho

theorem Wf.put (h : Wf s) (hmade : s.made = true) (n : FileName) (x : Node) : Wf (s.put n x) where
  bound {m i} hm := by
    by_cases hmn : m = n
    · obtain rfl : s.next = i := by simpa [Shelf.put, hmn] using hm
      exact Nat.lt_succ_self _
    · exact Nat.lt_succ_of_lt (h.bound (by simpa [Shelf.put, hmn] using hm))
  bare hbare := by simp [Shelf.put, hmade] at hbare

theorem Wf.recount (h : Wf s) (i : Nat) (f : Nat → Nat) : Wf (s.recount i f) := ⟨h.bound, h.bare⟩

theorem Wf.made (h : Wf s) (hn : s.names n = some i) : s.made = true := by
  by_contra hmade
  simp [h.bare (by simpa using hmade) n] at hn

theorem same_take (place : Place) (file : FileName) (h : Wf s) (n : FileName) (x : Node) :
    Wf (s.take file n x) ∧ Same place file s (s.take file n x) := by
  unfold Shelf.take
  split
  · next hfree =>
    obtain ⟨hmade, hfile, hnone⟩ := hfree
    have hput : Wf (s.put n x) := h.put hmade n x
    refine ⟨⟨hput.bound, hput.bare⟩, fun m ↦ ?_, fun i hi ↦ ?_, Nat.le_succ _,
      fun m hm ↦ .tail _ hm, rfl, .inl rfl⟩
    · by_cases hmn : m = n
      · subst hmn
        refine .inr ⟨hnone, hfile, .head _, fun i hi ↦ ?_⟩
        obtain rfl : s.next = i := by simpa [Shelf.put] using hi
        exact Nat.le_refl _
      · exact .inl (by simp [Shelf.put, hmn])
    · simp [Shelf.put, Function.update_of_ne (Nat.ne_of_lt hi)]
  · exact ⟨h, .refl ..⟩

theorem same_others (place : Place) (file : FileName) (h : Wf s) (takers : List (FileName × Node)) :
    Wf (s.others file takers) ∧ Same place file s (s.others file takers) := by
  induction takers generalizing s with
  | nil => exact ⟨h, .refl ..⟩
  | cons x xs ih =>
    obtain ⟨hwf, hsame⟩ := same_take place file h x.1 x.2
    obtain ⟨hwf', hsame'⟩ := ih hwf
    exact ⟨hwf', hsame.trans hsame'⟩

theorem Wf.link (h : Wf s) (hn : s.names n = some i) (backup : FileName) :
    Wf (s.link i backup) where
  bound {m j} hm := by
    by_cases hmb : m = backup
    · obtain rfl : i = j := by simpa [Shelf.link, hmb] using hm
      exact h.bound hn
    · exact h.bound (n := m) (by simpa [Shelf.link, Shelf.recount, hmb] using hm)
  bare hbare := by simp [Shelf.link, Shelf.recount, h.made hn] at hbare

theorem Wf.unlink (h : Wf s) (i : Nat) (n : FileName) : Wf (s.unlink i n) where
  bound {m j} hm := by
    by_cases hmn : m = n
    · simp [Shelf.unlink, hmn] at hm
    · exact h.bound (n := m) (by simpa [Shelf.unlink, Shelf.recount, hmn] using hm)
  bare hbare m := by
    by_cases hmn : m = n
    · simp [Shelf.unlink, hmn]
    · simpa [Shelf.unlink, Shelf.recount, hmn] using h.bare hbare m

theorem Wf.move (h : Wf s) {old : FileName} (hn : s.names old = some i) (new : FileName) :
    Wf (s.move i old new) where
  bound {m j} hm := by
    by_cases hmn : m = new
    · obtain rfl : i = j := by simpa [Shelf.move, hmn] using hm
      exact h.bound hn
    · by_cases hmo : m = old
      · subst hmo
        simp [Shelf.move, hmn] at hm
      · exact h.bound (n := m) (by simpa [Shelf.move, hmn, hmo] using hm)
  bare hbare := by simp [Shelf.move, h.made hn] at hbare

theorem Wf.publish (h : Wf s) (hmade : s.made = true) (place : Place) (n : FileName)
    (bytes : Bytes) : Wf (s.publish place n bytes) := by
  unfold Shelf.publish
  split
  · exact (h.recount _ _).put hmade n _
  · exact h.put hmade n _

theorem wf_act (h : Wf s) {o : Call} {r : Val o × Shelf} (hact : s.act place o = .ok r) :
    Wf r.2 := by
  cases o with
  | openDir create =>
    simp only [Shelf.act] at hact
    split at hact
    · cases hact
      exact h
    · next hmade =>
      split at hact
      · cases hact
        exact ⟨h.bound, nofun⟩
      · cases hact
  | read name =>
    simp only [Shelf.act] at hact
    split at hact
    · cases hact
    · split at hact
      · cases hact
        exact h
      · cases hact
  | hardLink original backup =>
    simp only [Shelf.act] at hact
    split at hact
    · cases hact
    · next i hi =>
      split at hact
      · cases hact
      · split at hact
        · cases hact
        · cases hact
          exact h.link hi backup
  | publish name bytes =>
    simp only [Shelf.act] at hact
    split at hact
    · cases hact
    · next hmade =>
      split at hact
      · cases hact
      · cases hact
        exact h.publish (by simpa using hmade) place name bytes
  | renameNoreplace old new =>
    simp only [Shelf.act] at hact
    split at hact
    · cases hact
    · next i hi =>
      split at hact
      · cases hact
      · cases hact
        exact h.move hi new
  | removeFile name =>
    simp only [Shelf.act] at hact
    split at hact
    · cases hact
    · next i hi =>
      split at hact
      · cases hact
      · cases hact
        exact h.unlink i name
  | prepareDir | warn backup =>
    cases hact
    exact ⟨h.bound, h.bare⟩
  | reader | kindOf name | stage name bytes | afterPublish | syncDir =>
    cases hact
    exact h

/-- How a call goes: it fails by itself, or fails as it must, or does what it does. Others had their
turn before it. -/
theorem call_cases (place : Place) (file : FileName) (s : Shelf) (o : Call) (c : Choice) :
    (∃ f : Fault, o.fallible ∧ (surroundings place file).answer s o c = .error f.kind ∧
        (surroundings place file).next s o c = s.others file c.takers) ∨
      (∃ kind, (s.others file c.takers).act place o = .error kind ∧
        (surroundings place file).answer s o c = .error kind ∧
        (surroundings place file).next s o c = s.others file c.takers) ∨
      ∃ r, (s.others file c.takers).act place o = .ok r ∧
        (surroundings place file).answer s o c = .ok r.1 ∧
        (surroundings place file).next s o c = r.2 := by
  have hdone (houtcome : (s.others file c.takers).outcome place o c.fault =
      (s.others file c.takers).act place o) :
      (∃ kind, (s.others file c.takers).act place o = .error kind ∧
        (surroundings place file).answer s o c = .error kind ∧
        (surroundings place file).next s o c = s.others file c.takers) ∨
      ∃ r, (s.others file c.takers).act place o = .ok r ∧
        (surroundings place file).answer s o c = .ok r.1 ∧
        (surroundings place file).next s o c = r.2 := by
    rcases hact : (s.others file c.takers).act place o with kind | r
    · exact .inl ⟨kind, rfl, by simp [surroundings, houtcome, hact, Except.map],
        by simp [surroundings, houtcome, hact]⟩
    · exact .inr ⟨r, rfl, by simp [surroundings, houtcome, hact, Except.map],
        by simp [surroundings, houtcome, hact]⟩
  rcases hfault : c.fault with - | f
  · exact .inr (hdone (by simp [Shelf.outcome, hfault]))
  · by_cases hfallible : o.fallible
    · exact .inl ⟨f, hfallible,
        by simp [surroundings, Shelf.outcome, hfault, hfallible, Except.map],
        by simp [surroundings, Shelf.outcome, hfault, hfallible]⟩
    · exact .inr (hdone (by simp [Shelf.outcome, hfault, hfallible]))

theorem wf_next (place : Place) (file : FileName) (h : Wf s) (o : Call) (c : Choice) :
    Wf ((surroundings place file).next s o c) := by
  have hwf : Wf (s.others file c.takers) := (same_others place file h c.takers).1
  rcases call_cases place file s o c with
    ⟨f, -, -, hnext⟩ | ⟨kind, -, -, hnext⟩ | ⟨r, hact, -, hnext⟩
  · exact hnext ▸ hwf
  · exact hnext ▸ hwf
  · exact hnext ▸ wf_act hwf hact

/-- A call that leaves the files as they are. -/
def Call.Quiet : Call → Prop
  | .openDir _ | .reader | .read _ | .kindOf _ | .prepareDir | .stage .. | .afterPublish
  | .syncDir => True
  | .hardLink .. | .publish .. | .renameNoreplace .. | .removeFile _ | .warn _ => False

theorem same_act {o : Call} (hquiet : o.Quiet) {r : Val o × Shelf}
    (hact : s.act place o = .ok r) : Same place file s r.2 := by
  have hself : Same place file s s := .refl ..
  cases o with
  | openDir create =>
    simp only [Shelf.act] at hact
    split at hact
    · cases hact
      exact hself
    · split at hact
      · cases hact
        exact ⟨hself.names, hself.node, hself.next, hself.taken, rfl, .inl rfl⟩
      · cases hact
  | read name =>
    simp only [Shelf.act] at hact
    split at hact
    · cases hact
    · split at hact
      · cases hact
        exact hself
      · cases hact
  | prepareDir =>
    cases hact
    exact ⟨hself.names, hself.node, hself.next, hself.taken, rfl, .inr rfl⟩
  | reader | kindOf name | stage name bytes | afterPublish | syncDir =>
    cases hact
    exact hself
  | hardLink _ _ | publish _ _ | renameNoreplace _ _ | removeFile _ | warn _ => exact hquiet.elim

theorem same_next (place : Place) (file : FileName) (h : Wf s) {o : Call} (hquiet : o.Quiet)
    (c : Choice) : Same place file s ((surroundings place file).next s o c) := by
  have hsame : Same place file s (s.others file c.takers) := (same_others _ _ h c.takers).2
  rcases call_cases place file s o c with
    ⟨f, -, -, hnext⟩ | ⟨kind, -, -, hnext⟩ | ⟨r, hact, -, hnext⟩
  · exact hnext ▸ hsame
  · exact hnext ▸ hsame
  · exact hnext ▸ hsame.trans (same_act hquiet hact)

/-- No directory, or no file in it, where the code is told so. -/
theorem absent_of_answer (place : Place) (file : FileName) (h : Wf s) (c : Choice) :
    ((surroundings place file).answer s (.openDir false) c = .error .notFound →
      s.names file = none) ∧
    ((surroundings place file).answer s (.read file) c = .error .notFound →
      s.names file = none) ∧
    ((surroundings place file).answer s (.kindOf file) c = .ok none → s.names file = none) := by
  obtain ⟨hwf, hsame⟩ := same_others place file h c.takers
  have hown := hsame.own
  refine ⟨fun hanswer ↦ ?_, fun hanswer ↦ ?_, fun hanswer ↦ ?_⟩
  · rcases call_cases place file s (.openDir false) c with ⟨f, -, hf, -⟩ | ⟨kind, hact, -, -⟩ |
      ⟨r, -, hr, -⟩
    · rw [hf] at hanswer
      cases f <;> cases hanswer
    · simp only [Shelf.act] at hact
      split at hact
      · cases hact
      · next hmade => exact hown ▸ hwf.bare (by simpa using hmade) file
    · rw [hr] at hanswer
      cases hanswer
  · rcases call_cases place file s (.read file) c with ⟨f, -, hf, -⟩ | ⟨kind, hact, hk, -⟩ |
      ⟨r, -, hr, -⟩
    · rw [hf] at hanswer
      cases f <;> cases hanswer
    · rw [hk] at hanswer
      simp only [Shelf.act] at hact
      split at hact
      · next hnone => exact hown ▸ hnone
      · split at hact
        · cases hact
        · next hread =>
          cases hact
          cases hanswer
          unfold Node.read at hread
          split at hread <;> cases hread
    · rw [hr] at hanswer
      cases hanswer
  · rcases call_cases place file s (.kindOf file) c with ⟨f, -, hf, -⟩ | ⟨kind, hact, -, -⟩ |
      ⟨r, hact, hr, -⟩
    · rw [hf] at hanswer
      cases f <;> cases hanswer
    · cases hact
    · rw [hr] at hanswer
      cases hact
      have hkind : ((s.others file c.takers).names file).map
          (fun i ↦ ((s.others file c.takers).node i).kind) = none := Except.ok.inj hanswer
      rw [Option.map_eq_none_iff] at hkind
      exact hown ▸ hkind

end Calls

/-! ### What an update can do -/

/-- The name of a backup. -/
def IsBackup (file n : FileName) : Prop := ∃ k, 1 ≤ k ∧ n = backupName file k

theorem IsBackup.ne {file n : FileName} (h : IsBackup file n) : n ≠ file := by
  obtain ⟨k, -, rfl⟩ := h
  intro heq
  have hlength := congrArg List.length heq
  unfold backupName at hlength
  split at hlength <;> simp at hlength

section Programs

variable {place : Place} {schema : Schema σ} {file : FileName} {s : Shelf}

/-- A quiet call, and what follows it. -/
theorem safe_quiet {α : Type} {o : Call} (hquiet : o.Quiet) (h : Wf s) {f : Ans o → Io α}
    {E : Stop → Shelf → Prop} {Q : α → Shelf → Prop}
    (hf : ∀ c t, t = (surroundings place file).next s o c → Wf t → Same place file s t →
      Safe (surroundings place file) Wf E Q
        (f ((surroundings place file).answer s o c)) t) :
    Safe (surroundings place file) Wf E Q (Fallible.call o >>= f) s :=
  safe_call h fun c ↦ hf c _ rfl (wf_next _ _ h o c) (same_next _ _ h hquiet c)

theorem safe_examine (h : Wf s) :
    (examine file : Prog Call Ans (Loaded σ)).Safe (surroundings place file) Wf
      (fun loaded t ↦ Same place file s t ∧ (loaded = .absent → s.names file = none)) s := by
  refine ⟨h, fun c ↦ ?_⟩
  have hsame := same_next place file h (o := .kindOf file) trivial c
  have hwf := wf_next place file h (.kindOf file) c
  have hgone := (absent_of_answer place file h c).2.2
  rcases hkind : (surroundings place file).answer s (.kindOf file) c with e | found
  · exact ⟨hwf, hsame, nofun⟩
  · cases found with
    | none => exact ⟨hwf, hsame, fun _ ↦ hgone hkind⟩
    | some kind => cases kind <;> exact ⟨hwf, hsame, nofun⟩

theorem safe_readThrough (h : Wf s) : (readThrough schema file).Safe (surroundings place file) Wf
      (fun loaded t ↦ Same place file s t ∧ (loaded = .absent → s.names file = none)) s := by
  refine ⟨h, fun c ↦ ?_⟩
  have hsame := same_next place file h (o := .read file) trivial c
  have hwf := wf_next place file h (.read file) c
  have habsent := (absent_of_answer place file h c).2.1
  have hexamine : (examine file : Prog Call Ans (Loaded σ)).Safe (surroundings place file) Wf
      (fun loaded t ↦ Same place file s t ∧ (loaded = .absent → s.names file = none))
      ((surroundings place file).next s (.read file) c) :=
    (safe_examine hwf).mono fun loaded t _ ⟨ht, hgone⟩ ↦
      ⟨hsame.trans ht, fun hl ↦ hsame.own ▸ hgone hl⟩
  rcases hanswer : (surroundings place file).answer s (.read file) c with kind | bytes
  · cases kind with
    | notFound => exact ⟨hwf, hsame, fun _ ↦ habsent hanswer⟩
    | _ => exact hexamine
  · refine ⟨hwf, hsame, fun hloaded ↦ ?_⟩
    rcases hcontent : schema.classify bytes <;> rw [hcontent] at hloaded <;> cases hloaded

/-- What the update knows of the folder once it has looked. -/
def Looked (place : Place) (file : FileName) (s : Shelf) (found : Bool × Loaded σ) (t : Shelf) :
    Prop :=
  Same place file s t ∧ (found.2 = .absent → s.names file = none) ∧
    (found.1 = false → found.2 = .absent)

theorem safe_look (h : Wf s) : Safe (surroundings place file) Wf
      (fun stop t ↦ stop = .failed .io ∧ Same place file s t) (Looked place file s)
      (look schema file) s := by
  refine safe_quiet (o := .openDir false) trivial h fun c t ht hwf hsame ↦ ?_
  have hbare := (absent_of_answer place file h c).1
  rcases hopen : (surroundings place file).answer s (.openDir false) c with kind | u
  · cases kind with
    | notFound => exact safe_pure hwf ⟨hsame, fun _ ↦ hbare hopen, fun _ ↦ rfl⟩
    | _ => exact safe_throw hwf ⟨rfl, hsame⟩
  · refine safe_quiet (o := .reader) trivial hwf fun c' t' ht' hwf' hsame' ↦ ?_
    have hunreadable : Safe (surroundings place file) Wf
        (fun stop t ↦ stop = .failed .io ∧ Same place file s t) (Looked place file s)
        (pure (true, .unreadable .directory) : Io (Bool × Loaded σ)) t' :=
      safe_pure hwf' ⟨hsame.trans hsame', nofun, nofun⟩
    rcases hreader : (surroundings place file).answer t .reader c' with kind | u
    · cases kind with
      | notFound =>
        -- a handle that cannot be duplicated is not a name that is not there
        rcases call_cases place file t .reader c' with
          ⟨f, -, hf, -⟩ | ⟨_, hact, -, -⟩ | ⟨r, -, hr, -⟩
        · rw [hf] at hreader
          cases f <;> cases hreader
        · cases hact
        · rw [hr] at hreader
          cases hreader
      | _ => exact hunreadable
    · refine Safe.bind (safe_lift (safe_readThrough hwf'))
        fun loaded t'' hwf'' hread ↦ ?_
      obtain ⟨hsame'', habsent⟩ := hread
      exact safe_pure hwf'' ⟨(hsame.trans hsame').trans hsame'',
        fun hloaded ↦ (hsame.trans hsame').own ▸ habsent hloaded, nofun⟩

/-- A call that does nothing to the files, whose error is the update's. -/
theorem safe_must (h : Wf s) {o : Call} (hquiet : o.Quiet) {E : Stop → Shelf → Prop}
    (hE : ∀ t, Same place file s t → E (.failed .io) t) :
    Safe (surroundings place file) Wf E
      (fun _ t ↦ Same place file s t ∧ ∃ (v : Val o) (s' : Shelf), s'.act place o = .ok (v, t))
      (must o) s := by
  refine safe_quiet hquiet h fun c t ht hwf hsame ↦ ?_
  rcases call_cases place file s o c with ⟨f, -, hf, -⟩ | ⟨kind, -, hk, -⟩ | ⟨r, hact, hr, hnext⟩
  · rw [hf]
    exact safe_throw hwf (hE t hsame)
  · rw [hk]
    exact safe_throw hwf (hE t hsame)
  · rw [hr]
    exact safe_pure hwf ⟨hsame, r.1, _, by rw [hact, ht, hnext]⟩

/-- What a search has done when it gives a name: the file, found at its own name, was dealt with by
`g`, for a backup name that was free. -/
def Found (place : Place) (file : FileName) (g : Shelf → Nat → FileName → Shelf) (s : Shelf)
    (b : FileName) (t : Shelf) : Prop :=
  ∃ t₁ i, Same place file s t₁ ∧ t₁.names file = some i ∧ t₁.names b = none ∧ IsBackup file b ∧
    t = g t₁ i b

/-- A call that takes a backup name where it is free, for the file at its own name. -/
structure Takes (place : Place) (file : FileName) (o : FileName → Call)
    (g : Shelf → Nat → FileName → Shelf) : Prop where
  done : ∀ {s b r}, Shelf.act place s (o b) = .ok r →
    ∃ i, s.names file = some i ∧ s.names b = none ∧ r.2 = g s i b
  missing : ∀ {s b}, Shelf.act place s (o b) = .error .notFound → s.names file = none
  taken : ∀ {s b}, Shelf.act place s (o b) = .error .alreadyExists → (s.names b).isSome

theorem takes_hardLink (place : Place) (file : FileName) :
    Takes place file (.hardLink file) Shelf.link where
  done {s b r} hact := by
    simp only [Shelf.act] at hact
    split at hact
    · cases hact
    · next i hi =>
      split at hact
      · cases hact
      · next hfree =>
        split at hact
        · cases hact
        · cases hact
          exact ⟨i, hi, by simpa using hfree, rfl⟩
  missing {s b} hact := by
    simp only [Shelf.act] at hact
    split at hact
    · assumption
    · split at hact
      · cases hact
      · split at hact <;> cases hact
  taken {s b} hact := by
    simp only [Shelf.act] at hact
    split at hact
    · cases hact
    · split at hact
      · assumption
      · split at hact <;> cases hact

theorem takes_renameNoreplace (place : Place) (file : FileName) :
    Takes place file (.renameNoreplace file) (fun s i b ↦ s.move i file b) where
  done {s b r} hact := by
    simp only [Shelf.act] at hact
    split at hact
    · cases hact
    · next i hi =>
      split at hact
      · cases hact
      · next hfree =>
        cases hact
        exact ⟨i, hi, by simpa using hfree, rfl⟩
  missing {s b} hact := by
    simp only [Shelf.act] at hact
    split at hact
    · assumption
    · split at hact <;> cases hact
  taken {s b} hact := by
    simp only [Shelf.act] at hact
    split at hact
    · cases hact
    · split at hact
      · assumption
      · cases hact

/-- The names that a search which ran out of attempts found taken. -/
def Exhausted (file : FileName) (first passes : Nat) (t : Shelf) : Prop :=
  ∀ k, first ≤ k → k < first + passes → (t.names (backupName file k)).isSome

/-- What a search leaves: the file as it was, or under the backup name that it gives. -/
def Searched (place : Place) (file : FileName) (g : Shelf → Nat → FileName → Shelf) (s : Shelf) :
    Option FileName → Shelf → Prop
  | some b, t => Found place file g s b t
  | none, t => Same place file s t ∧ s.names file = none

theorem safe_search {o : FileName → Call} {g : Shelf → Nat → FileName → Shelf}
    (htakes : Takes place file o g) (passes first : Nat) (hfirst : 1 ≤ first) (h : Wf s) :
    Safe (surroundings place file) Wf
      (fun stop t ↦ Same place file s t ∧ (stop = .exhausted → Exhausted file first passes t))
      (Searched place file g s) (search file o passes first) s := by
  induction passes generalizing s first with
  | zero => exact safe_throw h ⟨.refl .., fun _ k hk hk' ↦ by omega⟩
  | succ passes ih =>
    refine safe_call h fun c ↦ ?_
    have hwf := wf_next place file h (o (backupName file first)) c
    obtain ⟨-, hothers⟩ := same_others place file h c.takers
    rcases call_cases place file s (o (backupName file first)) c with
      ⟨f, -, hf, hnext⟩ | ⟨kind, hact, hk, hnext⟩ | ⟨r, hact, hr, hnext⟩
    · rw [hf]
      cases f <;> exact safe_throw hwf ⟨hnext ▸ hothers, nofun⟩
    · rw [hk]
      cases kind with
      | notFound =>
        exact safe_pure hwf ⟨hnext ▸ hothers, hothers.own ▸ htakes.missing hact⟩
      | alreadyExists =>
        -- the name is taken, and stays so while the next ones are tried
        obtain ⟨j, hj⟩ := Option.isSome_iff_exists.1 (htakes.taken hact)
        rw [hnext] at hwf ⊢
        refine (ih (first + 1) (by omega) hwf).imp (fun stop t _ ⟨hsame, hstop⟩ ↦
          ⟨hothers.trans hsame, fun heq k hk hk' ↦ ?_⟩) fun found t _ hfound ↦ ?_
        · rcases Nat.eq_or_lt_of_le hk with rfl | hlt
          · simp [hsame.name hj]
          · exact hstop heq k hlt (by omega)
        · cases found with
          | some b =>
            obtain ⟨t₁, i, hsame, hrest⟩ := hfound
            exact ⟨t₁, i, hothers.trans hsame, hrest⟩
          | none => exact ⟨hothers.trans hfound.1, hothers.own ▸ hfound.2⟩
      | unsupported => exact safe_throw hwf ⟨hnext ▸ hothers, nofun⟩
      | other => exact safe_throw hwf ⟨hnext ▸ hothers, nofun⟩
    · rw [hr]
      obtain ⟨i, hi, hfree, hdone⟩ := htakes.done hact
      exact safe_pure hwf
        ⟨_, i, hothers, hi, hfree, ⟨first, hfirst, rfl⟩, hnext.trans hdone⟩

/-! #### Publishing -/

/-- A call that is not quiet, where it fails. -/
theorem Same.of_error (h : Wf s) {o : Call} {c : Choice} {kind : IoKind}
    (hanswer : (surroundings place file).answer s o c = .error kind) :
    Same place file s ((surroundings place file).next s o c) := by
  have hothers : Same place file s (s.others file c.takers) := (same_others _ _ h c.takers).2
  rcases call_cases place file s o c with ⟨f, -, -, hnext⟩ | ⟨_, -, -, hnext⟩ | ⟨r, -, hr, -⟩
  · exact hnext ▸ hothers
  · exact hnext ▸ hothers
  · rw [hr] at hanswer
    cases hanswer

theorem safe_finalize (h : Wf s) :
    finalize.Safe (surroundings place file) Wf (fun _ t ↦ Same place file s t) s := by
  refine ⟨h, fun c ↦ ⟨wf_next _ _ h _ c, fun c' ↦ ⟨wf_next _ _ (wf_next _ _ h _ c) _ c', ?_⟩⟩⟩
  exact (same_next _ _ h (o := .afterPublish) trivial c).trans
    (same_next _ _ (wf_next _ _ h .afterPublish c) (o := .syncDir) trivial c')

/-- The folder once the log has that the backup could not be removed. -/
def Shelf.warned (s : Shelf) (b : FileName) : Shelf := { s with left := b :: s.left }

/-- A backup is taken back, or it is logged that it was left. -/
def TakenBack (place : Place) (file : FileName) (s : Shelf) (b : FileName) (t : Shelf) : Prop :=
  (∃ t₁ i, Same place file s t₁ ∧ t₁.names b = some i ∧ t = t₁.unlink i b) ∨
    ∃ t₁, Same place file s t₁ ∧ t = t₁.warned b

theorem safe_takeBackBackup (h : Wf s) (b : FileName) :
    (takeBackBackup b).Safe (surroundings place file) Wf
      (fun _ t ↦ TakenBack place file s b t) s := by
  refine ⟨h, fun c ↦ ?_⟩
  have hwf := wf_next place file h (.removeFile b) c
  obtain ⟨-, hothers⟩ := same_others place file h c.takers
  rcases hanswer : (surroundings place file).answer s (.removeFile b) c with kind | u
  · have hsame := Same.of_error h hanswer
    refine ⟨hwf, fun c' ↦ ⟨wf_next _ _ hwf _ c', .inr ?_⟩⟩
    obtain ⟨-, hothers'⟩ := same_others place file hwf c'.takers
    rcases call_cases place file _ (.warn b) c' with ⟨f, hf, -⟩ | ⟨kind, hact, -⟩ |
      ⟨r, hact, -, hnext⟩
    · cases hf
    · cases hact
    · cases hact
      exact ⟨_, hsame.trans hothers', hnext⟩
  · refine ⟨hwf, .inl ?_⟩
    rcases call_cases place file s (.removeFile b) c with ⟨f, -, hf, -⟩ | ⟨kind, -, hk, -⟩ |
      ⟨r, hact, -, hnext⟩
    · rw [hf] at hanswer
      cases hanswer
    · rw [hk] at hanswer
      cases hanswer
    · simp only [Shelf.act] at hact
      split at hact
      · cases hact
      · next i hi =>
        split at hact
        · cases hact
        · cases hact
          exact ⟨_, i, hothers, hi, hnext⟩

/-- The staged bytes have the file's name. -/
def Published (place : Place) (file : FileName) (bytes : Bytes) (s t : Shelf) : Prop :=
  ∃ t₁, Same place file s t₁ ∧ Same place file (t₁.publish place file bytes) t

/-- What a publish that failed leaves, with the backup that was made for it. -/
def Unpublished (place : Place) (file : FileName) : Option FileName → Shelf → Shelf → Prop
  | some b, s, t => ∃ t₁, Same place file s t₁ ∧ TakenBack place file t₁ b t
  | none, s, t => Same place file s t

theorem safe_publishOver (h : Wf s) (bytes : Bytes) (backup : Option FileName) :
    Safe (surroundings place file) Wf
      (fun stop t ↦ stop = .failed .io ∧ Unpublished place file backup s t)
      (fun _ t ↦ Published place file bytes s t) (publishOver file bytes backup) s := by
  refine safe_call h fun c ↦ ?_
  have hwf := wf_next place file h (.publish file bytes) c
  obtain ⟨-, hothers⟩ := same_others place file h c.takers
  rcases hanswer : (surroundings place file).answer s (.publish file bytes) c with kind | u
  · have hsame := Same.of_error h hanswer
    cases backup with
    | none =>
      exact ⟨hwf, rfl, hsame⟩
    | some b =>
      exact (safe_lift (safe_takeBackBackup hwf b)).bind fun _ t hwf' htaken ↦
        safe_throw hwf' ⟨rfl, _, hsame, htaken⟩
  · have hpublished : (surroundings place file).next s (.publish file bytes) c =
        (s.others file c.takers).publish place file bytes := by
      rcases call_cases place file s (.publish file bytes) c with ⟨f, -, hf, -⟩ | ⟨kind, -, hk, -⟩ |
        ⟨r, hact, -, hnext⟩
      · rw [hf] at hanswer
        cases hanswer
      · rw [hk] at hanswer
        cases hanswer
      · simp only [Shelf.act] at hact
        split at hact
        · cases hact
        · split at hact
          · cases hact
          · cases hact
            exact hnext
    refine (safe_lift (safe_finalize hwf)).mono fun _ t _ hsame ↦ ⟨_, hothers, ?_⟩
    exact hpublished ▸ hsame

/-! #### The whole update -/

/-- What a write has done: the bytes are published, after a backup of a file that was there, where
one was asked for. -/
inductive Wrote (place : Place) (file : FileName) (bytes : Bytes) (backUp : Bool)
    (s t : Shelf) : Prop
  | replaced {t₁} (before : Same place file s t₁) (folder : t₁.owner = place.folder)
      (alone : backUp → s.names file = none) (published : Published place file bytes t₁ t)
  | secured {t₁ t₂ : Shelf} {b} (before : Same place file s t₁)
      (folder : t₁.owner = place.folder) (asked : backUp)
      (linked : Found place file Shelf.link t₁ b t₂)
      (published : Published place file bytes t₂ t)

/-- What a write that failed has done: nothing, or it made a backup and took it back or left it. -/
inductive Unwritten (place : Place) (file : FileName) (s t : Shelf) : Prop
  | same (h : Same place file s t)
  | linked {t₁ t₂ : Shelf} {b} (linked : Found place file Shelf.link s b t₁)
      (before : Same place file t₁ t₂) (back : TakenBack place file t₂ b t)

theorem Unwritten.trans {t v : Shelf} (h : Same place file s t) (h' : Unwritten place file t v) :
    Unwritten place file s v := by
  cases h' with
  | same h' => exact .same (h.trans h')
  | linked hlinked hbefore hback =>
    obtain ⟨t₁, i, hsame, hrest⟩ := hlinked
    exact .linked ⟨t₁, i, h.trans hsame, hrest⟩ hbefore hback

/-- What a write ends in where it fails. -/
def Fails (place : Place) (file : FileName) (passes : Nat) (s : Shelf) (stop : Stop) (t : Shelf) :
    Prop :=
  Unwritten place file s t ∧ (stop = .exhausted → Exhausted file 1 passes t)

theorem Fails.of_same {passes : Nat} {t : Shelf} {error : StoreError} (h : Same place file s t) :
    Fails place file passes s (.failed error) t :=
  ⟨.same h, nofun⟩

theorem safe_write (h : Wf s) (passes : Nat) (dir : Bool) (bytes : Bytes) (backUp : Bool) :
    Safe (surroundings place file) Wf (Fails place file passes s)
      (fun _ t ↦ Wrote place file bytes backUp s t) (write file passes dir bytes backUp) s := by
  have hopen : Safe (surroundings place file) Wf (Fails place file passes s)
      (fun _ t ↦ Same place file s t) (opened dir) s := by
    cases dir with
    | true => exact safe_pure h (.refl ..)
    | false =>
      exact (safe_must h (o := .openDir true) trivial fun t ht ↦ Fails.of_same ht).mono
        fun _ _ _ hdone ↦ hdone.1
  refine hopen.bind fun _ t₁ hwf₁ hsame₁ ↦ ?_
  refine (safe_must hwf₁ (o := .prepareDir) trivial fun t ht ↦ .of_same (hsame₁.trans ht)).bind ?_
  rintro _ t₂ hwf₂ ⟨hsame₂, _, s', hact⟩
  have hfolder₂ : t₂.owner = place.folder := by
    cases hact
    rfl
  refine (safe_must hwf₂ (o := .stage file bytes) trivial fun t ht ↦
    .of_same ((hsame₁.trans hsame₂).trans ht)).bind ?_
  rintro _ t₃ hwf₃ ⟨hsame₃, _⟩
  have hsame : Same place file s t₃ := (hsame₁.trans hsame₂).trans hsame₃
  have hfolder : t₃.owner = place.folder := hsame₃.folder hfolder₂
  -- the file is published over what is at its name, with nothing to take back
  have hover {t : Shelf} (hwf : Wf t) (ht : Same place file t₃ t)
      (halone : backUp → s.names file = none) :
      Safe (surroundings place file) Wf (Fails place file passes s)
        (fun _ v ↦ Wrote place file bytes backUp s v) (publishOver file bytes none) t := by
    refine (safe_publishOver hwf bytes none).imp ?_ fun _ v _ hpublished ↦
      .replaced (hsame.trans ht) (ht.folder hfolder) halone hpublished
    rintro stop v - ⟨rfl, hv⟩
    exact .of_same ((hsame.trans ht).trans hv)
  cases backUp with
  | false =>
    refine (safe_pure (Q := fun backup t ↦ backup = none ∧ t = t₃) hwf₃ ⟨rfl, rfl⟩).bind ?_
    rintro backup t hwf ⟨rfl, rfl⟩
    exact hover hwf (.refl ..) (by rintro ⟨⟩)
  | true =>
    have hsearch : Safe (surroundings place file) Wf (Fails place file passes s)
        (Searched place file Shelf.link t₃) (linkToFreeBackup file passes) t₃ :=
      (safe_search (takes_hardLink place file) passes 1 (Nat.le_refl 1) hwf₃).imp
        (fun _ _ _ hstop ↦ ⟨.same (hsame.trans hstop.1), hstop.2⟩) fun _ _ _ hfound ↦ hfound
    refine hsearch.bind fun backup t₄ hwf₄ hfound ↦ ?_
    cases backup with
    | none => exact hover hwf₄ hfound.1 fun _ ↦ hsame.own ▸ hfound.2
    | some b =>
      refine (safe_publishOver hwf₄ bytes (some b)).imp ?_ fun _ v _ hpublished ↦
        .secured hsame hfolder rfl hfound hpublished
      rintro stop v - ⟨rfl, t₅, hsame₅, hback⟩
      exact ⟨.trans hsame (.linked hfound hsame₅ hback), (by rintro ⟨⟩)⟩

/-- Outcomes of an update that leaves the file. -/
def Leaves : UpdateOutcome → Prop
  | .unchanged | .absent | .kept => True
  | .stored | .removed | .movedAside => False

/-- What an action has done when it gives an outcome. -/
inductive Applied (place : Place) (file : FileName) (bytes : Bytes) (chosen : Step σ) (s : Shelf) :
    UpdateOutcome × Option FileName → Shelf → Prop
  | kept {outcome t} (leaves : Leaves outcome) (same : Same place file s t) :
      Applied place file bytes chosen s (outcome, none) t
  | stored {value backUp t} (write : chosen = .write value backUp)
      (wrote : Wrote place file bytes backUp s t) :
      Applied place file bytes chosen s (.stored, none) t
  | removed {t₁ i} (delete : chosen = .delete) (before : Same place file s t₁)
      (there : t₁.names file = some i) :
      Applied place file bytes chosen s (.removed, none) (t₁.unlink i file)
  | moved {b t} (moveAside : chosen = .moveAside)
      (found : Found place file (fun s i b ↦ s.move i file b) s b t) :
      Applied place file bytes chosen s (.movedAside, some b) t

theorem safe_remove (h : Wf s) : (Prog.perform (.removeFile file)).Safe (surroundings place file) Wf
      (fun (answer : Ans (.removeFile file)) t ↦ match answer with
        | .ok _ => ∃ t₁ i, Same place file s t₁ ∧ t₁.names file = some i ∧ t = t₁.unlink i file
        | .error _ => Same place file s t) s := by
  refine ⟨h, fun c ↦ ⟨wf_next _ _ h _ c, ?_⟩⟩
  obtain ⟨-, hothers⟩ := same_others place file h c.takers
  rcases call_cases place file s (.removeFile file) c with
    ⟨f, -, hf, hnext⟩ | ⟨kind, -, hk, hnext⟩ | ⟨r, hact, hr, hnext⟩
  · rw [hf]
    exact hnext ▸ hothers
  · rw [hk]
    exact hnext ▸ hothers
  · rw [hr]
    simp only [Shelf.act] at hact
    split at hact
    · cases hact
    · next i hi =>
      split at hact
      · cases hact
      · cases hact
        exact ⟨_, i, hothers, hi, hnext⟩

theorem safe_apply (h : Wf s) (passes : Nat) (dir : Bool) (bytes : Option Bytes) {chosen : Step σ}
    (hnothing : ∀ outcome, chosen = .nothing outcome → Leaves outcome) :
    Safe (surroundings place file) Wf (Fails place file passes s)
      (Applied place file (bytes.getD []) chosen s) (apply file passes dir bytes chosen) s := by
  have habsent : Safe (surroundings place file) Wf (Fails place file passes s)
      (Applied place file (bytes.getD []) chosen s)
      (pure (.absent, none) : Io (UpdateOutcome × Option FileName)) s :=
    safe_pure h (.kept trivial (.refl ..))
  cases chosen with
  | nothing outcome => exact safe_pure h (.kept (hnothing _ rfl) (.refl ..))
  | refuse error => exact safe_throw h (.of_same (.refl ..))
  | write value backUp =>
    exact (safe_write h passes dir (bytes.getD []) backUp).bind fun _ t hwf hwrote ↦
      safe_pure hwf (.stored rfl hwrote)
  | delete =>
    cases dir with
    | false => exact habsent
    | true =>
      refine Safe.bind (safe_lift (safe_remove h)) fun answer t hwf hremoved ↦ ?_
      match answer, hremoved with
      | .ok _, ⟨t₁, i, hsame, hi, ht⟩ =>
        exact safe_pure hwf (ht ▸ .removed rfl hsame hi)
      | .error kind, hsame =>
        cases kind with
        | notFound => exact safe_pure hwf (.kept trivial hsame)
        | _ => exact safe_throw hwf (.of_same hsame)
  | moveAside =>
    cases dir with
    | false => exact habsent
    | true =>
      have hsearch : Safe (surroundings place file) Wf (Fails place file passes s)
          (Searched place file (fun s i b ↦ s.move i file b) s) (moveAsideIn file passes) s :=
        (safe_search (takes_renameNoreplace place file) passes 1 (Nat.le_refl 1) h).imp
          (fun stop t _ ⟨ht, hstop⟩ ↦ ⟨.same ht, hstop⟩) fun _ _ _ hfound ↦ hfound
      refine hsearch.bind fun found t hwf hfound ↦ ?_
      cases found with
      | none => exact safe_pure hwf (.kept trivial hfound.1)
      | some b => exact safe_pure hwf (.moved rfl hfound)

/-- **What an update can do**: it fails, with the file as it was or under a second name that could
not be taken back, or it applies the step that it chose. -/
inductive Went (place : Place) (schema : Schema σ) (file : FileName) (role : Role) (passes : Nat)
    (decide : Loaded σ → Change σ × ρ) (s : Shelf) : Updated σ ρ → Shelf → Prop
  | unseen {t} (same : Same place file s t) :
      Went place schema file role passes decide s ⟨none, .error (.failed .io)⟩ t
  | failed {loaded stop t} (absent : loaded = .absent → s.names file = none)
      (fails : Fails place file passes s stop t) :
      Went place schema file role passes decide s ⟨some loaded, .error stop⟩ t
  | applied {loaded bytes t₁ t outcome backup} (absent : loaded = .absent → s.names file = none)
      (encoded : schema.encodeChange (decide loaded).1 = .ok bytes) (before : Same place file s t₁)
      (applied : Applied place file (bytes.getD []) (step role loaded (decide loaded).1) t₁
        (outcome, backup) t) :
      Went place schema file role passes decide s
        ⟨some loaded, .ok ((decide loaded).2, outcome, backup)⟩ t

theorem leaves_of_step {role : Role} {loaded : Loaded σ} {change : Change σ}
    {outcome : UpdateOutcome} (h : step role loaded change = .nothing outcome) :
    Leaves outcome := by
  cases change with
  | keep => cases h; trivial
  | store value => cases role <;> cases loaded <;> cases h
  | remove => cases role <;> cases loaded <;> cases h <;> trivial
  | moveAside => cases h

theorem safe_update (h : Wf s) (role : Role) (passes : Nat) (decide : Loaded σ → Change σ × ρ) :
    (update schema file role passes decide).Safe (surroundings place file) Wf
      (Went place schema file role passes decide s) s := by
  refine Prog.Safe.bind (safe_look h) fun r t hwf hlook ↦ ?_
  rcases r with stop | ⟨dir, loaded⟩
  · obtain ⟨rfl, hsame⟩ := hlook
    exact ⟨hwf, .unseen hsame⟩
  · obtain ⟨hsame, habsent, -⟩ := hlook
    obtain ⟨change, result, hdecide⟩ : ∃ change result, decide loaded = (change, result) :=
      ⟨_, _, rfl⟩
    simp only [hdecide]
    rcases hencode : schema.encodeChange change with error | bytes
    · exact ⟨hwf, .failed habsent (.of_same hsame)⟩
    · refine Prog.Safe.bind (safe_apply hwf passes dir bytes fun _ ↦ leaves_of_step)
        fun done v hwf' hdone ↦ ⟨hwf', ?_⟩
      rcases done with stop | ⟨outcome, backup⟩
      · exact .failed habsent ⟨.trans hsame hdone.1, hdone.2⟩
      · have happlied : Went place schema file role passes decide s
            ⟨some loaded, .ok ((decide loaded).2, outcome, backup)⟩ v :=
          .applied habsent (by rw [hdecide]; exact hencode) hsame (by rw [hdecide]; exact hdone)
        rwa [hdecide] at happlied

end Programs

end Hole.State.Backups
