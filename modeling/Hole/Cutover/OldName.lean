import Hole.Text.WinPath

/-!
# The name that an image is renamed to

`old_name` (`bridge/src/cutover/os/windows.rs`): the file's own name with the version of the update
after it, as the last name of its path. Paths are text; the installed files are those of the install
directory (`xtask-lib/src/bindir.rs`).
-/

namespace Hole.Cutover

open Text

/-- A path, as text. -/
abbrev Path := List Char

/-- What a path has before its last name. -/
def parentPart (path : Path) : Path := (path.reverse.dropWhile fun c ↦ !isSeparator c).reverse

/-- What a path has after its last separator. -/
def lastPart (path : Path) : Segment := (path.reverse.takeWhile fun c ↦ !isSeparator c).reverse

/-- `Path::file_name`, of a path that does not end in a separator. -/
def fileName (path : Path) : Option Segment :=
  if (lastPart path).isBlank || (lastPart path).isUp then none else some (lastPart path)

/-- `Path::with_file_name`: the text is put after the parent. -/
def withFileName (path : Path) (name : List Char) : Path := parentPart path ++ name

/-- `old_name`. -/
def oldName (targetVersion : List Char) (installed : Path) : Path :=
  withFileName installed ((fileName installed).getD [] ++ ".old-".toList ++ targetVersion)

/-- An install directory, below the root of a drive. -/
structure InstallDir where
  drive : Segment
  dirs : List Segment
  drive_plain : ∀ c ∈ drive, isSeparator c = false
  dirs_plain : ∀ s ∈ dirs, s.Plain ∧ ∀ c ∈ s, isSeparator c = false

/-- The text of a path below a drive. -/
def joined (drive : Segment) (names : List Segment) : Path :=
  drive ++ names.flatMap fun name ↦ '\\' :: name

/-- `install_dir.join(name)`. -/
def InstallDir.join (dir : InstallDir) (name : List Char) : Path :=
  joined dir.drive dir.dirs ++ '\\' :: name

/-- `bindir_dest_names`, for Windows. -/
def bindirDestNames : List Segment :=
  ["hole.exe".toList, "hole.pdb".toList, "ex-ray.exe".toList, "galoshes.exe".toList,
    "wintun.dll".toList, "NOTICES.md".toList]

/-- A path of the directory's own, once it is normalised. -/
def InstallDir.DirectChild (dir : InstallDir) (path : Path) : Prop :=
  ∃ name, normalize path = some (dir.drive, dir.dirs ++ [name])

/-- A name of a file, as the install directory has them. -/
def IsFileName (name : Segment) : Prop := name.Plain ∧ ∀ c ∈ name, isSeparator c = false

theorem bindirDestNames_isFileName : ∀ name ∈ bindirDestNames, IsFileName name := by
  have hplain : ∀ name ∈ bindirDestNames, name.isBlank = false ∧ name.isUp = false ∧
      (name.all fun c ↦ isSeparator c = false) = true := forall_of_all (by decide)
  intro name hname
  obtain ⟨hblank, hup, hall⟩ := hplain name hname
  exact ⟨⟨hblank, hup⟩, forall_of_all hall⟩

variable {name : Segment}

theorem parentPart_join (dir : InstallDir) (hname : IsFileName name) :
    parentPart (dir.join name) = joined dir.drive dir.dirs ++ ['\\'] := by
  have hlast : ∀ c ∈ name.reverse, (!isSeparator c) = true := by simpa using hname.2
  have hback : (dir.join name).reverse =
      name.reverse ++ '\\' :: (joined dir.drive dir.dirs).reverse := by simp [InstallDir.join]
  rw [parentPart, hback, List.dropWhile_append_of_pos hlast]
  simp [isSeparator]

theorem lastPart_join (dir : InstallDir) (hname : IsFileName name) :
    lastPart (dir.join name) = name := by
  have hlast : ∀ c ∈ name.reverse, (!isSeparator c) = true := by simpa using hname.2
  have hback : (dir.join name).reverse =
      name.reverse ++ '\\' :: (joined dir.drive dir.dirs).reverse := by simp [InstallDir.join]
  rw [lastPart, hback, List.takeWhile_append_of_pos hlast]
  simp [isSeparator]

/-- The name aside of an installed file. -/
theorem oldName_join (dir : InstallDir) (hname : IsFileName name) (targetVersion : List Char) :
    oldName targetVersion (dir.join name) = dir.join (name ++ ".old-".toList ++ targetVersion) := by
  have hfile : fileName (dir.join name) = some name := by
    rw [fileName, lastPart_join dir hname]
    simp [hname.1.1, hname.1.2]
  rw [oldName, withFileName, parentPart_join dir hname, hfile]
  simp [InstallDir.join]

/-- The segments of a path below a drive. -/
theorem segments_joined {drive : Segment} (hdrive : ∀ c ∈ drive, isSeparator c = false)
    {names : List Segment} (hnames : ∀ s ∈ names, ∀ c ∈ s, isSeparator c = false)
    (path : List Char) :
    segments (joined drive names ++ '\\' :: path) = drive :: (names ++ segments path) := by
  induction names generalizing drive with
  | nil => simpa [joined] using segments_cons hdrive path
  | cons name names ih =>
    obtain ⟨hname, hrest⟩ := List.forall_mem_cons.1 hnames
    have htext : joined drive (name :: names) ++ '\\' :: path =
        drive ++ '\\' :: (joined name names ++ '\\' :: path) := by simp [joined]
    rw [htext, segments_cons hdrive, ih hname hrest, List.cons_append]

/-- A path in the install directory, normalised. -/
theorem normalize_join (dir : InstallDir) (path : List Char) :
    normalize (dir.join path) = some (dir.drive, (segments path).foldl resolve dir.dirs) := by
  have hsegments : segments (dir.join path) = dir.drive :: (dir.dirs ++ segments path) :=
    segments_joined dir.drive_plain (fun s hs ↦ (dir.dirs_plain s hs).2) path
  rw [Text.normalize, hsegments]
  have hdirs := foldl_resolve_plain [] fun s hs ↦ (dir.dirs_plain s hs).1
  simp only [List.foldl_append, hdirs, List.nil_append]

/-- The directory's own paths. -/
theorem directChild_join (dir : InstallDir) (path : List Char) :
    dir.DirectChild (dir.join path) ↔
      ∃ name, (segments path).foldl resolve dir.dirs = dir.dirs ++ [name] := by
  simp [InstallDir.DirectChild, normalize_join]

/-- A version that its name aside does not leave the install directory by: counted from one, each
segment after the first takes one step, down for a name and back up for `..`, and the count is never
below zero and one at the end. -/
def StaysBelow (targetVersion : List Char) : Prop := climb 1 (segments targetVersion).tail = some 1

/-- What the name aside begins with. -/
theorem segments_aside (hname : IsFileName name) (targetVersion : List Char) :
    ∃ first, segments (name ++ ".old-".toList ++ targetVersion) =
        first :: (segments targetVersion).tail ∧ first.Plain ∧ '.' ∈ first := by
  have haside : ∀ c ∈ ".old-".toList, isSeparator c = false := forall_of_all (by decide)
  have hbase : ∀ c ∈ name ++ ".old-".toList, isSeparator c = false := fun c hc ↦
    (List.mem_append.1 hc).elim (hname.2 c) (haside c)
  rw [segments_append hbase]
  obtain ⟨head, tail, hsegments⟩ := List.exists_cons_of_ne_nil (segments_ne_nil targetVersion)
  refine ⟨name ++ ".old-".toList ++ head, by simp [hsegments], ?_, by simp⟩
  -- It is too long to be a dot segment.
  have hlength : 3 ≤ (name ++ ".old-".toList ++ head).length := by
    simp only [List.length_append]
    have : ".old-".toList.length = 5 := rfl
    omega
  constructor
  · simp only [Segment.isBlank, Bool.or_eq_false_iff, decide_eq_false_iff_not]
    constructor
    · intro h
      rw [h] at hlength
      exact absurd hlength (by decide)
    · intro h
      rw [h] at hlength
      exact absurd hlength (by decide)
  · simp only [Segment.isUp, decide_eq_false_iff_not]
    intro h
    rw [h] at hlength
    exact absurd hlength (by decide)

/-- A version that stays below keeps the name aside in the install directory. -/
theorem directChild_of_staysBelow (dir : InstallDir) (hname : IsFileName name)
    {targetVersion : List Char} (h : StaysBelow targetVersion) :
    dir.DirectChild (oldName targetVersion (dir.join name)) := by
  rw [oldName_join dir hname, directChild_join]
  obtain ⟨first, hsegments, hfirst, -⟩ := segments_aside hname targetVersion
  obtain ⟨below, hlength, hbelow⟩ := foldl_resolve_of_climb dir.dirs h List.length_singleton
  obtain ⟨last, rfl⟩ := List.length_eq_one_iff.1 hlength
  refine ⟨last, ?_⟩
  rw [hsegments, List.foldl_cons, resolve_plain hfirst]
  exact hbelow

/-- A name that is in no version of this text: it is too long. -/
def strangeName (targetVersion : List Char) : Segment :=
  List.replicate (targetVersion.length + 3) 'a'

theorem strangeName_plain (targetVersion : List Char) :
    (strangeName targetVersion).Plain ∧ ∀ c ∈ strangeName targetVersion, isSeparator c = false := by
  refine ⟨⟨?_, ?_⟩, fun c hc ↦ ?_⟩
  · simp [strangeName, Segment.isBlank, List.replicate_succ]
  · simp [strangeName, Segment.isUp, List.replicate_succ]
  · obtain rfl := List.eq_of_mem_replicate hc
    rfl

theorem strangeName_not_mem (targetVersion : List Char) :
    strangeName targetVersion ∉ segments targetVersion := by
  intro hmem
  have hlength := length_le_of_mem_segments hmem
  simp only [strangeName, List.length_replicate] at hlength
  omega

theorem driveC_plain : ∀ c ∈ ['C', ':'], isSeparator c = false := forall_of_all (by decide)

/-- An install directory that no version of this text names. -/
def strangeDir (targetVersion : List Char) : InstallDir where
  drive := ['C', ':']
  dirs := [strangeName targetVersion]
  drive_plain := driveC_plain
  dirs_plain := by
    intro s hs
    obtain rfl := List.mem_singleton.1 hs
    exact strangeName_plain targetVersion

/-- A version that does not stay below leaves some install directory. -/
theorem staysBelow_of_directChild (hname : IsFileName name) {targetVersion : List Char}
    (h : (strangeDir targetVersion).DirectChild
      (oldName targetVersion ((strangeDir targetVersion).join name))) :
      StaysBelow targetVersion := by
  rw [oldName_join _ hname, directChild_join] at h
  obtain ⟨last, hlast⟩ := h
  obtain ⟨first, hsegments, hfirst, hdot⟩ := segments_aside hname targetVersion
  rw [hsegments, List.foldl_cons, resolve_plain hfirst] at hlast
  unfold StaysBelow
  cases hclimb : climb 1 (segments targetVersion).tail with
  | none =>
    have hfirst' : strangeName targetVersion ∉ [first] := by
      intro hmem
      rw [← List.mem_singleton.1 hmem] at hdot
      exact absurd (List.eq_of_mem_replicate hdot) (by decide)
    have hgone : strangeName targetVersion ∉ (segments targetVersion).tail.foldl resolve
        ([] ++ [strangeName targetVersion] ++ [first]) :=
      not_mem_of_climb hclimb List.length_singleton List.not_mem_nil hfirst'
        fun hmem ↦ strangeName_not_mem targetVersion (List.mem_of_mem_tail hmem)
    -- The install directory's own name is gone from the path, which was to be in it.
    exact absurd (by rw [List.nil_append]; exact hlast ▸ by simp [strangeDir]) hgone
  | some depth =>
    obtain ⟨below, hlength, hbelow⟩ := foldl_resolve_of_climb (strangeDir targetVersion).dirs hclimb
      List.length_singleton
    rw [hlast] at hbelow
    have hlen := congrArg List.length hbelow
    simp only [List.length_append, List.length_singleton, hlength] at hlen
    obtain rfl : depth = 1 := by omega
    rfl

end Hole.Cutover
