import Mathlib.Data.List.Basic
import Hole.Text.Lines

/-!
# Windows paths as text

A path read the way Windows normalises one: both separators cut it into segments, empty segments and
`.` are dropped, and `..` takes back the segment before it, by the text alone. `climb` counts how
deep a relative path ends below the folder that it starts in, where it never leaves that folder:
`foldl_resolve_of_climb` and `not_mem_foldl_resolve` say what that count means for the folder's
path.
-/

namespace Text

/-- A piece of a path between two separators. -/
abbrev Segment := List Char

/-- Both separators of Windows. -/
def isSeparator (c : Char) : Bool := c = '\\' || c = '/'

/-- The pieces of a path. -/
def segments (path : List Char) : List Segment := path.splitOnP isSeparator

/-- A segment that stands for the folder it is in. -/
def Segment.isBlank (s : Segment) : Bool := s = [] || s = ['.']

/-- A segment that stands for the folder above. -/
def Segment.isUp (s : Segment) : Bool := s = ['.', '.']

/-- A segment that names something. -/
def Segment.Plain (s : Segment) : Prop := s.isBlank = false ∧ s.isUp = false

/-- The folder that a segment leads to. Nothing is above the root. -/
def resolve (at_ : List Segment) (s : Segment) : List Segment :=
  if s.isBlank then at_ else if s.isUp then at_.dropLast else at_ ++ [s]

/-- A full path, normalised: its drive, and the names below the root. -/
def normalize (path : List Char) : Option (Segment × List Segment) :=
  match segments path with
  | [] => none
  | drive :: rest => some (drive, rest.foldl resolve [])

/-- How deep a relative path leads, from so deep, where it never leads above the folder it starts
in. -/
def climb : Nat → List Segment → Option Nat
  | depth, [] => some depth
  | depth, s :: rest =>
    if s.isBlank then climb depth rest
    else if s.isUp then
      match depth with
      | 0 => none
      | depth + 1 => climb depth rest
    else climb (depth + 1) rest

/-- A separator cuts a path. -/
theorem segments_cons {s : Segment} (hs : ∀ c ∈ s, isSeparator c = false) (path : List Char) :
    segments (s ++ '\\' :: path) = s :: segments path :=
  List.splitOnP_append_cons_of_forall_mem hs '\\' rfl path

/-- What stands before a path without a separator is before its first segment. -/
theorem segments_append {s : List Char} (hs : ∀ c ∈ s, isSeparator c = false) (path : List Char) :
    segments (s ++ path) = (segments path).modifyHead (s ++ ·) := by
  induction s with
  | nil =>
    rw [List.nil_append]
    cases segments path <;> rfl
  | cons c s ih =>
    obtain ⟨hc, hrest⟩ := List.forall_mem_cons.1 hs
    rw [List.cons_append, segments, List.splitOnP_cons_eq_if_modifyHead, hc,
      if_neg Bool.false_ne_true]
    change (segments (s ++ path)).modifyHead (List.cons c) = _
    rw [ih hrest, List.modifyHead_modifyHead]
    rfl

theorem segments_ne_nil (path : List Char) : segments path ≠ [] :=
  List.splitOnP_ne_nil isSeparator path

/-- A segment is no longer than its path. -/
theorem length_le_of_mem_segments {path : List Char} {s : Segment} (hs : s ∈ segments path) :
    s.length ≤ path.length := by
  induction path generalizing s with
  | nil =>
    obtain rfl : s = [] := by simpa [segments] using hs
    exact Nat.zero_le _
  | cons c path ih =>
    rw [segments, List.splitOnP_cons_eq_if_modifyHead] at hs
    split at hs
    · obtain rfl | hs := List.mem_cons.1 hs
      · exact Nat.zero_le _
      · exact Nat.le_succ_of_le (ih hs)
    · obtain ⟨head, tail, hsegments⟩ := List.exists_cons_of_ne_nil (segments_ne_nil path)
      have hcases : s = c :: head ∨ s ∈ tail := by
        simpa [show path.splitOnP isSeparator = head :: tail from hsegments] using hs
      obtain rfl | htail := hcases
      · exact Nat.succ_le_succ (ih (by simp [hsegments]))
      · exact Nat.le_succ_of_le (ih (by simp [hsegments, htail]))

@[simp]
theorem resolve_plain {s : Segment} (hs : s.Plain) (at_ : List Segment) :
    resolve at_ s = at_ ++ [s] := by
  simp [resolve, hs.1, hs.2]

/-- Plain segments lead down. -/
theorem foldl_resolve_plain (at_ : List Segment) {ss : List Segment} (hss : ∀ s ∈ ss, s.Plain) :
    ss.foldl resolve at_ = at_ ++ ss := by
  induction ss generalizing at_ with
  | nil => simp
  | cons s rest ih =>
    obtain ⟨hs, hrest⟩ := List.forall_mem_cons.1 hss
    rw [List.foldl_cons, resolve_plain hs, ih _ hrest, List.append_assoc, List.singleton_append]

/-- A path that never leaves its folder ends below it, so deep. -/
theorem foldl_resolve_of_climb (folder : List Segment) {depth depth' : Nat} {ss : List Segment}
    (h : climb depth ss = some depth') {below : List Segment} (hbelow : below.length = depth) :
    ∃ below', below'.length = depth' ∧ ss.foldl resolve (folder ++ below) = folder ++ below' := by
  induction ss generalizing depth below with
  | nil =>
    cases h
    exact ⟨below, hbelow, rfl⟩
  | cons s rest ih =>
    simp only [climb] at h
    simp only [List.foldl_cons, resolve]
    split at h
    · next hblank =>
      rw [if_pos hblank]
      exact ih h hbelow
    · next hblank =>
      rw [if_neg hblank]
      split at h
      · next hup =>
        rw [if_pos hup]
        cases depth with
        | zero => cases h
        | succ depth =>
          have hne : below ≠ [] := List.ne_nil_of_length_eq_add_one hbelow
          rw [List.dropLast_append_of_ne_nil hne]
          exact ih h (by simp [hbelow])
      · next hup =>
        rw [if_neg hup, List.append_assoc]
        exact ih h (by simp [hbelow])

/-- A name that was left and that no segment is does not come back. -/
theorem not_mem_foldl_resolve {name : Segment} {at_ ss : List Segment} (hat : name ∉ at_)
    (hss : name ∉ ss) : name ∉ ss.foldl resolve at_ := by
  induction ss generalizing at_ with
  | nil => exact hat
  | cons s rest ih =>
    obtain ⟨hs, hrest⟩ : name ≠ s ∧ name ∉ rest := by simpa using hss
    refine ih ?_ hrest
    unfold resolve
    split
    · exact hat
    · split
      · exact fun h ↦ hat (List.dropLast_subset _ h)
      · simp [hat, hs]

/-- A path that leaves its folder loses the folder's name. -/
theorem not_mem_of_climb {name : Segment} {folder : List Segment} {depth : Nat} {ss : List Segment}
    (h : climb depth ss = none) {below : List Segment} (hbelow : below.length = depth)
    (hfolder : name ∉ folder) (hname : name ∉ below) (hss : name ∉ ss) :
    name ∉ ss.foldl resolve (folder ++ [name] ++ below) := by
  induction ss generalizing depth below with
  | nil => cases h
  | cons s rest ih =>
    obtain ⟨hs, hrest⟩ : name ≠ s ∧ name ∉ rest := by simpa using hss
    simp only [climb] at h
    simp only [List.foldl_cons, resolve]
    split at h
    · next hblank =>
      rw [if_pos hblank]
      exact ih h hbelow hname hrest
    · next hblank =>
      rw [if_neg hblank]
      split at h
      · next hup =>
        rw [if_pos hup]
        cases depth with
        | zero =>
          obtain rfl : below = [] := List.length_eq_zero_iff.1 hbelow
          exact not_mem_foldl_resolve (by simpa using hfolder) hrest
        | succ depth =>
          have hne : below ≠ [] := List.ne_nil_of_length_eq_add_one hbelow
          rw [List.dropLast_append_of_ne_nil hne]
          exact ih h (by simp [hbelow]) (fun hmem ↦ hname (List.dropLast_subset _ hmem)) hrest
      · next hup =>
        rw [if_neg hup, List.append_assoc]
        exact ih h (by simp [hbelow]) (by simp [hname, hs]) hrest

end Text
