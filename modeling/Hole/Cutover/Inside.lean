import Hole.Cutover.Swap

/-!
# An update request and the paths it acts on

The way of a target version from the request of a client to the paths that the update renames to and
removes: the handler (`bridge/src/ipc.rs`), the command line of the cutover child
(`cutover/apply.rs`), and the child's own swap (`cutover.rs`). Nothing on it looks at the text, so
the client chooses part of a path of a privileged process: `acts_inside_iff` says for which texts
that path stays in the install directory.

What the handler meets on its way (the marker, the verification, the archive) is a parameter, as are
the command line of the operating system and its parser.
-/

namespace Hole.Cutover

open Text Effect

/-- The payload and the version of an `UpdateApplyRequest`, with what verifies them. -/
structure UpdateApplyRequest where
  payloadPath : Path
  targetVersion : List Char
  consent : Bool
  sha256sums : List Char
  sha256sumsMinisig : List Char
  assetName : List Char

/-- `CreateOutcome`, or no marker. -/
inductive Claimed
  | created
  | taken
  | failed

/-- `StageError`. -/
inductive StageError
  | io
  | verify

/-- What the handler of an update meets. -/
structure Found where
  inProgress : Bool
  lockdownOn : Bool
  marker : Claimed
  privateDir : Bool
  /-- The payload copied and verified. -/
  staged : UpdateApplyRequest → Except StageError Unit
  extracted : UpdateApplyRequest → Option Path

/-- `consent_gate`. -/
def consentGate (lockdownOn consent : Bool) : Bool := lockdownOn || consent

/-- The arguments that `spawn_suspended_child` passes. -/
def childArgs (stagingDir : Path) (targetVersion : List Char) : List (List Char) :=
  ["bridge".toList, "cutover".toList, "--payload".toList, stagingDir, "--target-version".toList,
    targetVersion]

/-- `handle_update_apply`: a status, or the arguments of the child that it spawns. -/
def handleUpdateApply (found : Found) (req : UpdateApplyRequest) :
    Except Nat (List (List Char)) :=
  if found.inProgress then .error 409
  else if !consentGate found.lockdownOn req.consent then .error 403
  else
    match found.marker with
    | .taken => .error 409
    | .failed => .error 500
    | .created =>
      if !found.privateDir then .error 500
      else
        match found.staged req with
        | .error .verify => .error 422
        | .error .io => .error 500
        | .ok () =>
          match found.extracted req with
          | none => .error 500
          | some stagingDir => .ok (childArgs stagingDir req.targetVersion)

/-- `plan_windows_images`, where `findStaged` is what the staging directory holds. -/
def planWindowsImages (installDir : InstallDir) (findStaged : Segment → Option Path)
    (names : List Segment) : Option (List (ImageMove Path)) :=
  names.mapM fun name ↦ (findStaged name).map (⟨installDir.join name, ·⟩)

/-- `run_in`, as far as the swap. -/
def runIn (installDir : InstallDir) (findStaged : Segment → Option Path)
    (targetVersion : List Char) : WindowsSwap Path Swapped :=
  match planWindowsImages installDir findStaged bindirDestNames with
  | none => pure .error
  | some images => executeImageSwaps images (oldName targetVersion)

/-- The cutover child. `cli` is what it reads of the arguments that it was spawned with, nothing
where it was not spawned or refused them. -/
def cutoverChild (cli : List (List Char) → Option (Path × List Char)) (installDir : InstallDir)
    (findStaged : Path → Segment → Option Path) (args : List (List Char)) :
    WindowsSwap Path Swapped :=
  match cli args with
  | none => pure .error
  | some (payload, targetVersion) => runIn installDir (findStaged payload) targetVersion

/-- An act on a name aside is on a path of the install directory's own. -/
def InstallDir.ActsInside (dir : InstallDir) : WindowsSwapStep Path → Prop
  | .renameAway _ _ old => dir.DirectChild old
  | .removeOld _ old => dir.DirectChild old
  | .moveIn .. => True
  | .restoreHalfSwapped .. => True
  | .undo .. => True

/-! ### The steps of a swap -/

section Only

variable {P : Type} {T : WindowsSwapStep P → Prop} {old : P → P}

theorem only_steps {os : List (WindowsSwapStep P)} (h : ∀ o ∈ os, T o) : (steps os).Only T := by
  induction os with
  | nil => trivial
  | cons o os ih =>
    obtain ⟨ho, hos⟩ := List.forall_mem_cons.1 h
    exact ⟨ho, fun _ ↦ ih hos⟩

/-- The steps of a swap are steps of its images. -/
theorem only_swapImages {images : List (ImageMove P)} {completed : List (Completed P)}
    (haway : ∀ img ∈ images, ∀ index, T (.renameAway index img.installed (old img.installed)))
    (hin : ∀ img ∈ images, ∀ index, T (.moveIn index img.staged img.installed))
    (hhalf : ∀ img ∈ images, ∀ index, T (.restoreHalfSwapped index
    (old img.installed) img.installed))
    (hundo : ∀ c index, T (Completed.undo (c, index)))
    (hremove : ∀ c ∈ completed ++ images.map (ImageMove.completed old), ∀ index,
      T (Completed.removeOld (c, index))) :
    (swapImages old completed images).Only T := by
  have hundoAll (cs : List (Completed P)) : (undoAll cs).Only T := by
    refine only_steps fun o ho ↦ ?_
    obtain ⟨c, -, rfl⟩ := List.mem_map.1 ho
    exact hundo c.1 c.2
  induction images generalizing completed with
  | nil =>
    refine (only_steps fun o ho ↦ ?_).bind fun _ ↦ trivial
    obtain ⟨c, hc, rfl⟩ := List.mem_map.1 ho
    exact hremove c.1 (by simpa using List.fst_mem_of_mem_zipIdx hc) c.2
  | cons img images ih =>
    obtain ⟨haway', hrest⟩ := List.forall_mem_cons.1 haway
    obtain ⟨hin', hinRest⟩ := List.forall_mem_cons.1 hin
    obtain ⟨hhalf', hhalfRest⟩ := List.forall_mem_cons.1 hhalf
    refine ⟨haway' _, fun (away : Bool) ↦ ?_⟩
    cases away with
    | false => exact (hundoAll completed).bind fun _ ↦ trivial
    | true =>
      refine ⟨hin' _, fun (moved : Bool) ↦ ?_⟩
      cases moved with
      | false => exact ⟨hhalf' _, fun _ ↦ (hundoAll completed).bind fun _ ↦ trivial⟩
      | true =>
        refine ih hrest hinRest hhalfRest fun c hc index ↦ hremove c ?_ index
        simpa [ImageMove.completed] using hc

end Only

/-! ### Inside the install directory -/

section Inside

variable {cli : List (List Char) → Option (Path × List Char)} {targetVersion : List Char}

/-- The images of a plan are files of the install directory. -/
theorem installed_of_plan {dir : InstallDir} {findStaged : Segment → Option Path}
    {names : List Segment} {images : List (ImageMove Path)}
    (h : planWindowsImages dir findStaged names = some images) :
    ∀ img ∈ images, ∃ name ∈ names, img.installed = dir.join name := by
  induction names generalizing images with
  | nil =>
    obtain rfl : [] = images := Option.some.inj h
    nofun
  | cons name names ih =>
    simp only [planWindowsImages, List.mapM_cons, Option.bind_eq_bind, Option.bind_eq_some_iff,
      Option.map_eq_some_iff, Option.pure_def, Option.some.injEq] at h
    obtain ⟨_, ⟨staged, -, rfl⟩, rest, hrest, rfl⟩ := h
    intro img himg
    obtain rfl | himg := List.mem_cons.1 himg
    · exact ⟨name, .head _ .., rfl⟩
    · obtain ⟨name', hname', hinstalled⟩ := ih hrest img himg
      exact ⟨name', .tail _ hname', hinstalled⟩

theorem only_runIn (dir : InstallDir) (findStaged : Segment → Option Path)
    (h : StaysBelow targetVersion) : (runIn dir findStaged targetVersion).Only dir.ActsInside := by
  unfold runIn
  split
  · trivial
  · next images hplan =>
    have hold : ∀ img ∈ images, dir.DirectChild (oldName targetVersion img.installed) := by
      intro img himg
      obtain ⟨name, hname, hinstalled⟩ := installed_of_plan hplan img himg
      rw [hinstalled]
      exact directChild_of_staysBelow dir (bindirDestNames_isFileName name hname) h
    refine only_swapImages (fun img himg _ ↦ hold img himg) (fun _ _ _ ↦ trivial)
      (fun _ _ _ ↦ trivial) (fun _ _ ↦ trivial) fun c hc _ ↦ ?_
    obtain ⟨img, himg, rfl⟩ := List.mem_map.1 (List.mem_append.1 hc
      |>.resolve_left List.not_mem_nil)
    exact hold img himg

/-- The first act of the child is the rename of the executable. -/
theorem directChild_of_only (dir : InstallDir)
    (h : (runIn dir (fun _ ↦ some []) targetVersion).Only dir.ActsInside) :
    dir.DirectChild (oldName targetVersion (dir.join "hole.exe".toList)) :=
  h.1

/-- The child that a request spawns is given the request's own version. -/
theorem args_of_handle {found : Found} {req : UpdateApplyRequest} {args : List (List Char)}
    (h : handleUpdateApply found req = .ok args) :
    ∃ stagingDir, args = childArgs stagingDir req.targetVersion := by
  unfold handleUpdateApply at h
  split at h
  · cases h
  · split at h
    · cases h
    · split at h
      · cases h
      · cases h
      · split at h
        · cases h
        · split at h
          · cases h
          · cases h
          · split at h
            · cases h
            · next stagingDir _ => exact ⟨stagingDir, (Except.ok.inj h).symm⟩

/-- **A request keeps the cutover child inside the install directory**, wherever it is installed,
exactly if its version does not get through to the child, or stays below it. -/
theorem acts_inside_iff
    (hcli : ∀ payload version read, cli (childArgs payload version) = some read →
      read = (payload, version))
    {found : Found} {req : UpdateApplyRequest} {args : List (List Char)}
    (hargs : handleUpdateApply found req = .ok args) :
    (∀ dir findStaged, (cutoverChild cli dir findStaged args).Only dir.ActsInside) ↔
      cli args = none ∨ StaysBelow req.targetVersion := by
  obtain ⟨stagingDir, rfl⟩ := args_of_handle hargs
  cases hread : cli (childArgs stagingDir req.targetVersion) with
  | none => simp [cutoverChild, hread]
  | some read =>
    obtain rfl := hcli _ _ _ hread
    have hchild (dir : InstallDir) (findStaged : Path → Segment → Option Path) :
        cutoverChild cli dir findStaged (childArgs stagingDir req.targetVersion) =
          runIn dir (findStaged stagingDir) req.targetVersion := by
      simp only [cutoverChild, hread]
    simp only [hchild, reduceCtorEq, false_or]
    constructor
    · intro h
      exact staysBelow_of_directChild (bindirDestNames_isFileName _ (by simp [bindirDestNames]))
        (directChild_of_only _ (h (strangeDir req.targetVersion) fun _ _ ↦ some []))
    · exact fun h dir findStaged ↦ only_runIn dir (findStaged stagingDir) h

/-- The parser of the child, for arguments in this order. -/
def plainCli : List (List Char) → Option (Path × List Char)
  | [_, _, _, payload, _, targetVersion] =>
    if targetVersion.head? = some '-' then none else some (payload, targetVersion)
  | _ => none

/-- A request whose version leads out of the install directory. -/
def climbing : UpdateApplyRequest where
  payloadPath := "C:\\Users\\u\\hole.zip".toList
  targetVersion := "x\\..\\..\\evil".toList
  consent := true
  sha256sums := []
  sha256sumsMinisig := []
  assetName := "hole.zip".toList

/-- Every step of the handler goes through. -/
def foundGood : Found where
  inProgress := false
  lockdownOn := false
  marker := .created
  privateDir := true
  staged _ := .ok ()
  extracted _ := some "C:\\hole\\.update-staging".toList

/-- An install directory at the root of a drive. -/
def rootDir : InstallDir where
  drive := ['C', ':']
  dirs := ["hole".toList]
  drive_plain := driveC_plain
  dirs_plain s hs := by
    obtain rfl := List.mem_singleton.1 hs
    exact ⟨⟨by decide, by decide⟩, forall_of_all (by decide)⟩

theorem plainCli_childArgs (payload : Path) (version : List Char) (read : Path × List Char)
    (h : plainCli (childArgs payload version) = some read) : read = (payload, version) := by
  simp only [plainCli, childArgs] at h
  split at h
  · cases h
  · exact (Option.some.inj h).symm

/-- The executable is renamed to a file beside the install directory. -/
theorem executable_leaves :
    handleUpdateApply foundGood climbing =
        .ok (childArgs "C:\\hole\\.update-staging".toList climbing.targetVersion) ∧
      normalize (oldName climbing.targetVersion (rootDir.join "hole.exe".toList)) =
        some (['C', ':'], ["evil".toList]) ∧
      ¬(cutoverChild plainCli rootDir (fun _ _ ↦ some [])
        (childArgs "C:\\hole\\.update-staging".toList climbing.targetVersion)).Only
          rootDir.ActsInside := by
  have hleaves : normalize (oldName climbing.targetVersion (rootDir.join "hole.exe".toList)) =
      some (['C', ':'], ["evil".toList]) := by decide
  refine ⟨rfl, hleaves, fun h ↦ ?_⟩
  obtain ⟨name, hname⟩ : rootDir.DirectChild
    (oldName climbing.targetVersion (rootDir.join "hole.exe".toList)) := h.1
  rw [hleaves] at hname
  cases hname

/-- The same request with a version of the usual form. -/
theorem acts_inside_iff_usual : (∀ dir findStaged, (cutoverChild plainCli dir findStaged
        (childArgs "C:\\hole\\.update-staging".toList "1.2.3".toList)).Only dir.ActsInside) ↔
      plainCli (childArgs "C:\\hole\\.update-staging".toList "1.2.3".toList) = none ∨
        StaysBelow "1.2.3".toList :=
  let req : UpdateApplyRequest := { climbing with targetVersion := "1.2.3".toList }
  have hargs : handleUpdateApply foundGood req =
      .ok (childArgs "C:\\hole\\.update-staging".toList req.targetVersion) := rfl
  acts_inside_iff plainCli_childArgs hargs

end Inside

end Hole.Cutover
