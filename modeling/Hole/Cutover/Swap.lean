import Hole.Effect.Prog
import Hole.Cutover.OldName
import Mathlib.Data.List.Induction
import Mathlib.Data.List.Nodup
import Mathlib.Data.List.Pairwise

/-!
# The update swap

How an update puts its new files in place (`bridge/src/cutover/os/windows.rs`,
`bridge/src/platform/swap.rs`). On Windows each installed file is renamed aside and the staged file
moved in, image by image; on macOS the bundle is exchanged and the helper renamed over. A failure at
any image takes back what was done, and what was swapped out is deleted only once the whole set is
in place.

A path is the file that it names, and a file its contents. The surroundings may fail any rename that
goes forward and any removal; the renames of a rollback succeed wherever there is a file to rename.
-/

namespace Hole.Cutover

open Effect

variable {P β : Type}

/-- What is at each path. -/
abbrev Fs (P β : Type) := P → Option β

namespace Fs

variable [DecidableEq P] (fs : Fs P β)

/-- Other contents at one path. -/
def set (p : P) (content : Option β) : Fs P β := fun q ↦ if q = p then content else fs q

/-- `rename`, over what is at the new name. Nothing happens where there is no file. -/
def rename (p q : P) : Fs P β := if (fs p).isNone then fs else (fs.set q (fs p)).set p none

/-- `renamex_np` with `RENAME_SWAP`. -/
def exchange (p q : P) : Fs P β :=
  if (fs p).isNone || (fs q).isNone then fs else (fs.set p (fs q)).set q (fs p)

@[simp]
theorem set_same (p : P) (content : Option β) : fs.set p content p = content := if_pos rfl

theorem set_of_ne {p q : P} (h : q ≠ p) (content : Option β) : fs.set p content q = fs q := if_neg h

end Fs

/-! ### Windows -/

/-- `ImageMove`. -/
structure ImageMove (P : Type) where
  installed : P
  staged : P

/-- `Completed`. -/
structure Completed (P : Type) where
  installed : P
  staged : P
  old : P
  deriving DecidableEq

/-- `WindowsSwapStep`: a call names its image. -/
inductive WindowsSwapStep (P : Type)
  | renameAway (index : Nat) (installed old : P)
  | moveIn (index : Nat) (staged installed : P)
  | restoreHalfSwapped (index : Nat) (old installed : P)
  | undo (index : Nat) (installed staged old : P)
  | removeOld (index : Nat) (old : P)

/-- A rename that goes forward says whether it went. -/
def WindowsSwapStep.Ans : WindowsSwapStep P → Type
  | renameAway .. => Bool
  | moveIn .. => Bool
  | restoreHalfSwapped .. => Unit
  | undo .. => Unit
  | removeOld .. => Unit

/-- The programs of the swap. -/
abbrev WindowsSwap (P α : Type) := Prog (WindowsSwapStep P) WindowsSwapStep.Ans α

/-- How a swap ended. -/
inductive Swapped
  | ok
  | error
  deriving DecidableEq

/-- A step of the swap. -/
def step (o : WindowsSwapStep P) : WindowsSwap P o.Ans := Prog.perform o

/-- The steps of a rollback, and the removals. -/
def steps (os : List (WindowsSwapStep P)) : WindowsSwap P Unit := os.forM fun o ↦ do
    let _ ← step o
    pure ()

/-- The undo of a committed image. -/
def Completed.undo (c : Completed P × Nat) : WindowsSwapStep P :=
  .undo c.2 c.1.installed c.1.staged c.1.old

/-- The removal of what a committed image swapped out. -/
def Completed.removeOld (c : Completed P × Nat) : WindowsSwapStep P := .removeOld c.2 c.1.old

/-- `undo_all`. -/
def undoAll (completed : List (Completed P)) : WindowsSwap P Unit :=
  steps (completed.zipIdx.reverse.map Completed.undo)

/-- The loop of `execute_image_swaps`. -/
def swapImages (old : P → P) (completed : List (Completed P)) :
    List (ImageMove P) → WindowsSwap P Swapped
  | [] => do
    steps (completed.zipIdx.map Completed.removeOld)
    pure .ok
  | img :: rest => do
    let away : Bool ← step (.renameAway completed.length img.installed (old img.installed))
    if away then do
      let moved : Bool ← step (.moveIn completed.length img.staged img.installed)
      if moved then
        swapImages old (completed ++ [⟨img.installed, img.staged, old img.installed⟩]) rest
      else do
        steps [.restoreHalfSwapped completed.length (old img.installed) img.installed]
        undoAll completed
        pure .error
    else do
      undoAll completed
      pure .error

/-- `execute_image_swaps`, where `old` is the name that a file is renamed to. -/
def executeImageSwaps (images : List (ImageMove P)) (old : P → P) : WindowsSwap P Swapped :=
  swapImages old [] images

/-- `FsSwapStep`: the choice is whether the call goes through, for the calls that may fail. -/
def fsSwapStep [DecidableEq P] : Env (WindowsSwapStep P) WindowsSwapStep.Ans (Fs P β) Bool where
  answer fs
    | .renameAway _ installed _, ok => ok && (fs installed).isSome
    | .moveIn _ staged _, ok => ok && (fs staged).isSome
    | .restoreHalfSwapped .., _ => ()
    | .undo .., _ => ()
    | .removeOld .., _ => ()
  next fs
    | .renameAway _ installed old, ok => if ok then fs.rename installed old else fs
    | .moveIn _ staged installed, ok => if ok then fs.rename staged installed else fs
    | .restoreHalfSwapped _ old installed, _ => fs.rename old installed
    | .undo _ installed staged old, _ => (fs.rename installed staged).rename old installed
    | .removeOld _ old, ok => if ok then fs.set old none else fs

/-- The image once it is committed. -/
def ImageMove.completed (old : P → P) (img : ImageMove P) : Completed P :=
  ⟨img.installed, img.staged, old img.installed⟩

/-- The three paths of an image. -/
def Completed.paths (c : Completed P) : List P := [c.installed, c.staged, c.old]

/-- No two of the paths are one. -/
def Apart (cs : List (Completed P)) : Prop := (cs.flatMap Completed.paths).Nodup

/-! ### What a swap keeps -/

section Windows

variable {cs done rest : List (Completed P)} {c e : Completed P}

/-- The paths of an image are three. -/
theorem Apart.own (h : Apart cs) (hc : c ∈ cs) :
    c.installed ≠ c.staged ∧ c.installed ≠ c.old ∧ c.staged ≠ c.old := by
  have hpaths : c.paths.Nodup := (List.nodup_flatMap.1 h).1 c hc
  simpa [Completed.paths, not_or, and_assoc] using hpaths

/-- The paths of two images are apart. -/
theorem Apart.disjoint (h : Apart cs) (hc : c ∈ cs) (he : e ∈ cs) (hne : c ≠ e) :
    List.Disjoint c.paths e.paths := by
  have : Std.Symm (Function.onFun List.Disjoint (Completed.paths : Completed P → List P)) :=
    ⟨fun _ _ h _ ha hb ↦ h hb ha⟩
  exact (List.nodup_flatMap.1 h).2.forall hc he hne

/-- No name that an image is renamed to is a path of the set. -/
theorem Apart.ne_old (h : Apart cs) (hc : c ∈ cs) (he : e ∈ cs) :
    c.installed ≠ e.old ∧ c.staged ≠ e.old := by
  by_cases hce : c = e
  · subst hce
    exact (h.own hc).2
  · have hdisjoint := h.disjoint hc he hce
    constructor
    · exact fun heq ↦ hdisjoint (a := c.installed) (by simp [Completed.paths])
        (by simp [Completed.paths, heq])
    · exact fun heq ↦ hdisjoint (a := c.staged) (by simp [Completed.paths])
        (by simp [Completed.paths, heq])

/-- An image of the rest is not one of those done. -/
theorem Apart.not_mem_done (h : Apart (done ++ rest)) (hc : c ∈ rest) {p : P} (hp : p ∈ c.paths) :
    p ∉ done.flatMap Completed.paths := by
  intro hmem
  obtain ⟨d, hd, hpd⟩ := List.mem_flatMap.1 hmem
  rw [Apart, List.flatMap_append, List.nodup_append] at h
  exact h.2.2 p (List.mem_flatMap.2 ⟨d, hd, hpd⟩) p (List.mem_flatMap.2 ⟨c, hc, hp⟩) rfl

/-- The image that the swap is at is like no other one. -/
theorem Apart.middle (h : Apart (done ++ c :: rest)) (he : e ∈ done ∨ e ∈ rest) :
    List.Disjoint c.paths e.paths := by
  have hpairs := (List.nodup_flatMap.1 h).2
  obtain ⟨-, hrest, hdone⟩ := List.pairwise_append.1 hpairs
  obtain he | he := he
  · exact fun _ hpc hpe ↦ hdone e he c (.head _ ..) hpe hpc
  · exact (List.pairwise_cons.1 hrest).1 e he

/-- The state of the swap between two images: `done` is committed, and nothing else is touched, but
for the names that `rest` was renamed to, which may be gone. -/
structure Between (fs₀ : Fs P β) (done rest : List (Completed P)) (fs : Fs P β) : Prop where
  committed : ∀ c ∈ done, fs c.installed = fs₀ c.staged ∧ fs c.staged = none ∧
    fs c.old = fs₀ c.installed ∧ (fs₀ c.installed).isSome ∧ (fs₀ c.staged).isSome
  frame : ∀ p ∉ done.flatMap Completed.paths, fs p = fs₀ p ∨ (∃ c ∈ rest, p = c.old) ∧ fs p = none

/-- The old and the new contents of an image are both there. -/
def Kept (fs₀ fs : Fs P β) (c : Completed P) : Prop :=
  (fs c.installed = fs₀ c.installed ∨ fs c.old = fs₀ c.installed) ∧
    (fs c.staged = fs₀ c.staged ∨ fs c.installed = fs₀ c.staged)

/-- Everything that a failed set needs is there, or the whole set is committed. -/
def Recoverable (fs₀ : Fs P β) (cs : List (Completed P)) (fs : Fs P β) : Prop :=
  (∀ c ∈ cs, Kept fs₀ fs c) ∨ ∀ c ∈ cs, fs c.installed = fs₀ c.staged

variable {fs₀ fs : Fs P β}

theorem Between.start (fs : Fs P β) (rest : List (Completed P)) : Between fs [] rest fs :=
  ⟨nofun, fun _ _ ↦ .inl rfl⟩

/-- An image that is not committed is untouched. -/
theorem Between.untouched (h : Between fs₀ done rest fs) (hapart : Apart (done ++ rest))
    (hc : c ∈ rest) : fs c.installed = fs₀ c.installed ∧ fs c.staged = fs₀ c.staged := by
  have hmem {e : Completed P} (he : e ∈ rest) : e ∈ done ++ rest := List.mem_append_right _ he
  constructor
  · refine (h.frame c.installed (hapart.not_mem_done hc
      (by simp [Completed.paths]))).resolve_right ?_
    rintro ⟨⟨e, he, hold⟩, -⟩
    exact (hapart.ne_old (hmem hc) (hmem he)).1 hold
  · refine (h.frame c.staged (hapart.not_mem_done hc (by simp [Completed.paths]))).resolve_right ?_
    rintro ⟨⟨e, he, hold⟩, -⟩
    exact (hapart.ne_old (hmem hc) (hmem he)).2 hold

theorem Between.recoverable (h : Between fs₀ done rest fs) (hapart : Apart (done ++ rest)) :
    Recoverable fs₀ (done ++ rest) fs := by
  refine .inl fun c hc ↦ ?_
  obtain hc | hc := List.mem_append.1 hc
  · obtain ⟨hinstalled, -, hold, -⟩ := h.committed c hc
    exact ⟨.inr hold, .inr hinstalled⟩
  · obtain ⟨hinstalled, hstaged⟩ := h.untouched hapart hc
    exact ⟨.inl hinstalled, .inl hstaged⟩

variable [DecidableEq P] {p q r : P}

theorem rename_from (h : (fs p).isSome) : fs.rename p q p = none := by
  simp [Fs.rename, Option.isNone_eq_false_iff.2 h]

theorem rename_to (h : (fs p).isSome) (hne : p ≠ q) : fs.rename p q q = fs p := by
  simp [Fs.rename, Option.isNone_eq_false_iff.2 h, Fs.set_of_ne _ hne.symm]

theorem rename_other (hp : r ≠ p) (hq : r ≠ q) : fs.rename p q r = fs r := by
  unfold Fs.rename
  split
  · rfl
  · rw [Fs.set_of_ne _ hp, Fs.set_of_ne _ hq]

/-- A rename of paths of the image leaves the paths of another. -/
theorem rename_disjoint (h : List.Disjoint c.paths e.paths) (hp : p ∈ c.paths) (hq : q ∈ c.paths)
    (hr : r ∈ e.paths) : fs.rename p q r = fs r :=
  rename_other (fun heq ↦ h hp (heq ▸ hr)) (fun heq ↦ h hq (heq ▸ hr))

/-- Once the next image is renamed aside, everything is there still. -/
theorem Between.recoverable_half (h : Between fs₀ done (c :: rest) fs)
    (hapart : Apart (done ++ c :: rest)) (hsome : (fs c.installed).isSome) :
    Recoverable fs₀ (done ++ c :: rest) (fs.rename c.installed c.old) := by
  obtain ⟨hinstalled, hstaged⟩ := h.untouched hapart (.head _ ..)
  obtain ⟨hne, hold, hne'⟩ := hapart.own (c := c) (by simp)
  refine .inl fun e he ↦ ?_
  by_cases hec : e = c
  · subst hec
    refine ⟨.inr ?_, .inl ?_⟩
    · rw [rename_to hsome hold, hinstalled]
    · rw [rename_other hne.symm hne', hstaged]
  · have hother : e ∈ done ∨ e ∈ rest := by simpa [hec] using he
    have hsame {p : P} (hp : p ∈ e.paths) : fs.rename c.installed c.old p = fs p :=
      rename_disjoint (hapart.middle hother) (by simp [Completed.paths])
        (by simp [Completed.paths]) hp
    have hkept : Kept fs₀ fs e := by
      obtain hdone | hrest := hother
      · obtain ⟨hi, -, ho, -⟩ := h.committed e hdone
        exact ⟨.inr ho, .inr hi⟩
      · obtain ⟨hi, hs⟩ := h.untouched hapart (.tail _ hrest)
        exact ⟨.inl hi, .inl hs⟩
    unfold Kept at hkept ⊢
    rwa [hsame (by simp [Completed.paths]), hsame (by simp [Completed.paths]),
      hsame (by simp [Completed.paths])]

/-- Renames of paths of the image leave those that are done. -/
theorem Between.committed_rename {done' rest' : List (Completed P)} {x y x' y' : P}
    (h : Between fs₀ done' rest' fs) (hapart : Apart (done ++ c :: rest)) (he : e ∈ done)
    (he' : e ∈ done') (hpaths : [x, y, x', y'] ⊆ c.paths) :
    let fs' := (fs.rename x y).rename x' y'
    fs' e.installed = fs₀ e.staged ∧ fs' e.staged = none ∧ fs' e.old = fs₀ e.installed ∧
      (fs₀ e.installed).isSome ∧ (fs₀ e.staged).isSome := by
  have hdisjoint := hapart.middle (.inl he)
  have hsame {p : P} (hp : p ∈ e.paths) : (fs.rename x y).rename x' y' p = fs p := by
    rw [rename_disjoint hdisjoint (hpaths (by simp)) (hpaths (by simp)) hp,
      rename_disjoint hdisjoint (hpaths (by simp)) (hpaths (by simp)) hp]
  dsimp only
  rw [hsame (by simp [Completed.paths]), hsame (by simp [Completed.paths]),
    hsame (by simp [Completed.paths])]
  exact h.committed e he'

/-- An image renamed aside and taken back is untouched, and its name aside is gone. -/
theorem Between.restored (h : Between fs₀ done (c :: rest) fs) (hapart : Apart (done ++ c :: rest))
    (hsome : (fs c.installed).isSome) :
    Between fs₀ done (c :: rest) ((fs.rename c.installed c.old).rename c.old c.installed) := by
  obtain ⟨-, hold, -⟩ := hapart.own (c := c) (by simp)
  have haside : ((fs.rename c.installed c.old) c.old).isSome := by rwa [rename_to hsome hold]
  refine ⟨fun e he ↦ ?_, fun p hp ↦ ?_⟩
  · exact h.committed_rename hapart he he (by simp [Completed.paths])
  · by_cases hpold : p = c.old
    · subst hpold
      exact .inr ⟨⟨c, .head _ .., rfl⟩, rename_from haside⟩
    · by_cases hpinst : p = c.installed
      · subst hpinst
        rw [rename_to haside hold.symm, rename_to hsome hold]
        exact h.frame _ hp
      · rw [rename_other hpold hpinst, rename_other hpinst hpold]
        exact h.frame _ hp

/-- An image renamed aside, with the new file moved in, is committed. -/
theorem Between.commit (h : Between fs₀ done (c :: rest) fs) (hapart : Apart (done ++ c :: rest))
    (hsome : (fs c.installed).isSome) (hstagedSome : (fs c.staged).isSome) :
    Between fs₀ (done ++ [c]) rest ((fs.rename c.installed c.old).rename c.staged c.installed) := by
  obtain ⟨hinstalled, hstaged⟩ := h.untouched hapart (.head _ ..)
  obtain ⟨hne, hold, hne'⟩ := hapart.own (c := c) (by simp)
  have hstill : (fs.rename c.installed c.old) c.staged = fs c.staged := rename_other hne.symm hne'
  have hmove : ((fs.rename c.installed c.old) c.staged).isSome := by rwa [hstill]
  refine ⟨fun e he ↦ ?_, fun p hp ↦ ?_⟩
  · obtain he | he := List.mem_append.1 he
    · exact h.committed_rename hapart he he (by simp [Completed.paths])
    · obtain rfl := List.mem_singleton.1 he
      refine ⟨?_, rename_from hmove, ?_, hinstalled ▸ hsome, hstaged ▸ hstagedSome⟩
      · rw [rename_to hmove hne.symm, hstill, hstaged]
      · rw [rename_other hne'.symm hold.symm, rename_to hsome hold, hinstalled]
  · obtain ⟨hdone, hc⟩ : p ∉ done.flatMap Completed.paths ∧ p ∉ c.paths := by
      simpa [List.flatMap_append] using hp
    obtain ⟨hpi, hps, hpo⟩ : p ≠ c.installed ∧ p ≠ c.staged ∧ p ≠ c.old := by
      simpa [Completed.paths] using hc
    rw [rename_other hps hpi, rename_other hpi hpo]
    refine (h.frame p hdone).imp id ?_
    rintro ⟨⟨e, he, rfl⟩, hnone⟩
    exact ⟨⟨e, (List.mem_cons.1 he).resolve_left fun heq ↦ hpo (heq ▸ rfl), rfl⟩, hnone⟩

/-- A committed image that is undone is untouched, and its name aside is gone. -/
theorem Between.undo (h : Between fs₀ (done ++ [c]) rest fs) (hapart : Apart (done ++ c :: rest)) :
    Between fs₀ done (c :: rest) ((fs.rename c.installed c.staged).rename c.old c.installed) := by
  obtain ⟨hne, hold, hne'⟩ := hapart.own (c := c) (by simp)
  obtain ⟨hinstalled, hstaged, haside, hsome, hsome'⟩ := h.committed c (by simp)
  have hback : (fs c.installed).isSome := by rwa [hinstalled]
  have hstill : (fs.rename c.installed c.staged) c.old = fs₀ c.installed := by
    rw [rename_other hold.symm hne'.symm, haside]
  have hrestore : ((fs.rename c.installed c.staged) c.old).isSome := by rwa [hstill]
  refine ⟨fun e he ↦ ?_, fun p hp ↦ ?_⟩
  · exact h.committed_rename hapart he (by simp [he]) (by simp [Completed.paths])
  · by_cases hpo : p = c.old
    · subst hpo
      exact .inr ⟨⟨c, .head _ .., rfl⟩, rename_from hrestore⟩
    · by_cases hpi : p = c.installed
      · subst hpi
        exact .inl (by rw [rename_to hrestore hold.symm, hstill])
      · rw [rename_other hpo hpi]
        by_cases hps : p = c.staged
        · subst hps
          exact .inl (by rw [rename_to hback hne, hinstalled])
        · rw [rename_other hpi hps]
          have hpc : p ∉ (done ++ [c]).flatMap Completed.paths := by
            simpa [List.flatMap_append, Completed.paths, hpi, hps, hpo] using hp
          refine (h.frame p hpc).imp id ?_
          rintro ⟨⟨e, he, rfl⟩, hnone⟩
          exact ⟨⟨e, .tail _ he, rfl⟩, hnone⟩

/-- All of the swap is taken back, but for what a name aside held before. -/
def RolledBack (fs₀ : Fs P β) (cs : List (Completed P)) (fs : Fs P β) : Prop :=
  (∀ c ∈ cs, fs c.installed = fs₀ c.installed ∧ fs c.staged = fs₀ c.staged ∧
    (fs c.old = fs₀ c.old ∨ fs c.old = none)) ∧
  ∀ p, (∀ c ∈ cs, p ≠ c.old) → fs p = fs₀ p

omit [DecidableEq P] in
theorem Between.rolledBack (h : Between fs₀ [] cs fs) (hapart : Apart cs) :
    RolledBack fs₀ cs fs := by
  refine ⟨fun c hc ↦ ?_, fun p hp ↦ ?_⟩
  · obtain ⟨hinstalled, hstaged⟩ := h.untouched hapart hc
    exact ⟨hinstalled, hstaged, (h.frame c.old (by simp)).imp id And.right⟩
  · refine (h.frame p (by simp)).resolve_right ?_
    rintro ⟨⟨c, hc, hold⟩, -⟩
    exact hp c hc hold

omit [DecidableEq P] in
/-- The undo of all images is the undo of the last, and then of the others. -/
theorem undoAll_append (done : List (Completed P)) (c : Completed P) :
    undoAll (done ++ [c]) =
      (do let _ ← step (Completed.undo (c, done.length)); undoAll done) := by
  simp only [undoAll, steps, List.zipIdx_append, List.reverse_append, List.zipIdx_singleton,
    Nat.zero_add, List.reverse_singleton, List.singleton_append]
  rfl

theorem safe_undoAll (hapart : Apart (done ++ rest)) (h : Between fs₀ done rest fs) :
    (undoAll done).Safe fsSwapStep (Recoverable fs₀ (done ++ rest))
      (fun _ fs' ↦ Between fs₀ [] (done ++ rest) fs') fs := by
  induction done using List.reverseRecOn generalizing rest fs with
  | nil => exact ⟨h.recoverable hapart, h⟩
  | append_singleton done c ih =>
    have hrecoverable := h.recoverable hapart
    rw [List.append_assoc] at hapart hrecoverable ⊢
    rw [undoAll_append]
    exact ⟨hrecoverable, fun _ ↦ ih hapart (h.undo hapart)⟩

/-- The removals leave the installed files. -/
theorem safe_removals {os : List (WindowsSwapStep P)}
    (hos : ∀ o ∈ os, ∃ c ∈ cs, ∃ index, o = .removeOld index c.old) (hapart : Apart cs)
    (h : ∀ c ∈ cs, fs c.installed = fs₀ c.staged) :
    (steps os).Safe fsSwapStep (Recoverable fs₀ cs)
      (fun _ fs' ↦ ∀ c ∈ cs, fs' c.installed = fs₀ c.staged) fs := by
  induction os generalizing fs with
  | nil => exact ⟨.inr h, h⟩
  | cons o os ih =>
    obtain ⟨ho, hrest⟩ := List.forall_mem_cons.1 hos
    obtain ⟨e, he, index, rfl⟩ := ho
    refine ⟨.inr h, fun ok ↦ ih hrest fun c hc ↦ ?_⟩
    cases ok with
    | false => exact h c hc
    | true => exact (Fs.set_of_ne _ (hapart.ne_old hc he).1 _).trans (h c hc)

/-- What a swap of these images ends with. -/
def Ends (fs₀ : Fs P β) (cs : List (Completed P)) : Swapped → Fs P β → Prop
  | .ok, fs => ∀ c ∈ cs, fs c.installed = fs₀ c.staged ∧ (fs₀ c.staged).isSome
  | .error, fs => RolledBack fs₀ cs fs

section Rules

variable {I : Fs P β → Prop} {α : Type} {Q : α → Fs P β → Prop} {k : Bool → WindowsSwap P α}
  {index : Nat}

theorem rename_of_none (h : (fs p).isSome = false) : fs.rename p q = fs := by
  have hnone : (fs p).isNone = true := by simpa using h
  simp [Fs.rename, hnone]

/-- A rename that goes forward either went or changed nothing. -/
theorem safe_forward (hok : (fs p).isSome → (k true).Safe fsSwapStep I Q (fs.rename p q))
    (hfail : (k false).Safe fsSwapStep I Q fs) (ok : Bool) :
    (k (ok && (fs p).isSome)).Safe fsSwapStep I Q (if ok then fs.rename p q else fs) := by
  cases ok with
  | false => exact hfail
  | true =>
    cases hsome : (fs p).isSome with
    | true => exact hok hsome
    | false => simpa [rename_of_none hsome] using hfail

theorem safe_renameAway (hI : I fs)
    (hok : (fs p).isSome → (k true).Safe fsSwapStep I Q (fs.rename p q))
    (hfail : (k false).Safe fsSwapStep I Q fs) :
    (step (.renameAway index p q) >>= k).Safe fsSwapStep I Q fs :=
  ⟨hI, safe_forward hok hfail⟩

theorem safe_moveIn (hI : I fs) (hok : (fs p).isSome → (k true).Safe fsSwapStep I Q (fs.rename p q))
    (hfail : (k false).Safe fsSwapStep I Q fs) :
    (step (.moveIn index p q) >>= k).Safe fsSwapStep I Q fs :=
  ⟨hI, safe_forward hok hfail⟩

/-- A rollback ends the swap with an error. -/
theorem safe_giveUp (hapart : Apart (done ++ rest)) (h : Between fs₀ done rest fs) :
    (undoAll done >>= fun _ ↦ pure .error).Safe fsSwapStep (Recoverable fs₀ (done ++ rest))
      (Ends fs₀ (done ++ rest)) fs :=
  (safe_undoAll hapart h).bind fun _ _ hI hundone ↦ ⟨hI, hundone.rolledBack hapart⟩

end Rules

theorem safe_swapImages {old : P → P} {images : List (ImageMove P)}
    (hapart : Apart (done ++ images.map (ImageMove.completed old)))
    (h : Between fs₀ done (images.map (ImageMove.completed old)) fs) :
    (swapImages old done images).Safe fsSwapStep
      (Recoverable fs₀ (done ++ images.map (ImageMove.completed old)))
      (Ends fs₀ (done ++ images.map (ImageMove.completed old))) fs := by
  have hrecoverable := h.recoverable hapart
  induction images generalizing done fs with
  | nil =>
    simp only [List.map_nil, List.append_nil] at hapart h hrecoverable ⊢
    have hremovals : ∀ o ∈ done.zipIdx.map Completed.removeOld,
        ∃ c ∈ done, ∃ index, o = .removeOld index c.old := by
      rintro o ho
      obtain ⟨⟨c, index⟩, hc, rfl⟩ := List.mem_map.1 ho
      exact ⟨c, List.fst_mem_of_mem_zipIdx hc, index, rfl⟩
    refine (safe_removals hremovals hapart fun c hc ↦ (h.committed c hc).1).bind
      fun _ fs' hfs' hend ↦ ⟨hfs', fun c hc ↦ ⟨hend c hc, (h.committed c hc).2.2.2.2⟩⟩
  | cons img images ih =>
    rw [List.map_cons] at hapart h hrecoverable ⊢
    obtain ⟨hne, -, hne'⟩ := hapart.own (c := img.completed old) (by simp)
    refine safe_renameAway hrecoverable (fun hsome ↦ ?_) (safe_giveUp hapart h)
    have hhalf := h.recoverable_half hapart hsome
    refine safe_moveIn hhalf (fun hstaged ↦ ?_) ⟨hhalf, fun _ ↦ ?_⟩
    · have hstill : (fs.rename img.installed (old img.installed)) img.staged = fs img.staged :=
        rename_other hne.symm hne'
      have hcommit := h.commit hapart hsome (hstill ▸ hstaged)
      have happend : done ++ img.completed old :: images.map (ImageMove.completed old) =
          done ++ [img.completed old] ++ images.map (ImageMove.completed old) := by simp
      rw [happend] at hapart ⊢
      exact ih hapart hcommit (hcommit.recoverable hapart)
    · exact safe_giveUp hapart (h.restored hapart hsome)

end Windows

/-! ### macOS -/

/-- `SwapPrimitive`. -/
inductive SwapPrimitive
  | renameSwap
  | plainRename
  deriving DecidableEq

/-- `ImageSwap`. -/
structure ImageSwap (P : Type) where
  staging : P
  dest : P
  primitive : SwapPrimitive
  deleteSwappedOutStaging : Bool

/-- `SwapPlan`. -/
structure SwapPlan (P : Type) where
  app : ImageSwap P
  helper : ImageSwap P

/-- `plan_swap`. -/
def planSwap (appStaging appDest helperStaging helperDest : P) : SwapPlan P :=
  ⟨⟨appStaging, appDest, .renameSwap, true⟩, ⟨helperStaging, helperDest, .plainRename, false⟩⟩

/-- `SwapOps`: a call names its image. -/
inductive SwapOps (P : Type)
  | swap (img : ImageSwap P) (index : Nat)
  | reswap (img : ImageSwap P) (index : Nat)
  | deleteStaging (img : ImageSwap P) (index : Nat)

/-- A swap says whether it went. -/
def SwapOps.Ans : SwapOps P → Type
  | swap .. => Bool
  | reswap .. => Unit
  | deleteStaging .. => Unit

/-- The programs of a plan. -/
abbrev PlanSwap (P α : Type) := Prog (SwapOps P) SwapOps.Ans α

/-- An operation of a plan. -/
def op (o : SwapOps P) : PlanSwap P o.Ans := Prog.perform o

/-- The operations of a rollback, and the deletions. -/
def ops (os : List (SwapOps P)) : PlanSwap P Unit := os.forM fun o ↦ do
    let _ ← op o
    pure ()

/-- How a plan ended. -/
inductive Planned
  /-- The order of the images was asserted, and is wrong. -/
  | panicked
  | ended (swapped : Swapped)

/-- The loop of `execute_plan`. -/
def swapPlanned (committed : List (ImageSwap P × Nat)) : List (ImageSwap P) → PlanSwap P Planned
  | [] => do
    ops ((committed.filter (·.1.deleteSwappedOutStaging)).map fun c ↦ .deleteStaging c.1 c.2)
    pure (.ended .ok)
  | img :: rest => do
    let swapped : Bool ← op (.swap img committed.length)
    if swapped then swapPlanned (committed ++ [(img, committed.length)]) rest
    else do
      ops (committed.reverse.map fun c ↦ .reswap c.1 c.2)
      pure (.ended .error)

/-- `execute_plan`, in a build that checks its assertion or not. -/
def executePlan (debug : Bool) (plan : SwapPlan P) : PlanSwap P Planned :=
  let images := [plan.app, plan.helper]
  if debug && !(images.dropLast.all (·.primitive = .renameSwap)) then pure .panicked
  else swapPlanned [] images

/-- `MacosSwapOps`: the choice is whether the call goes through, for the calls that may fail. -/
def macosSwapOps [DecidableEq P] : Env (SwapOps P) SwapOps.Ans (Fs P β) Bool where
  answer fs
    | .swap img _, ok =>
      ok && (fs img.staging).isSome && (img.primitive = .plainRename || (fs img.dest).isSome)
    | .reswap .., _ => ()
    | .deleteStaging .., _ => ()
  next fs
    | .swap img _, ok =>
      if ok then
        match img.primitive with
        | .renameSwap => fs.exchange img.staging img.dest
        | .plainRename => fs.rename img.staging img.dest
      else fs
    | .reswap img _, _ =>
      match img.primitive with
      | .renameSwap => fs.exchange img.dest img.staging
      | .plainRename => fs
    | .deleteStaging img _, ok => if ok then fs.set img.staging none else fs

/-- An image of a plan, whose staging is where the swapped-out file goes. -/
def ImageSwap.completed (img : ImageSwap P) : Completed P := ⟨img.dest, img.staging, img.staging⟩

/-- The images of a plan. -/
def SwapPlan.images (plan : SwapPlan P) : List (Completed P) :=
  [plan.app.completed, plan.helper.completed]

section Macos

variable [DecidableEq P] {fs : Fs P β} {p q r : P}

theorem exchange_from (hp : (fs p).isSome) (hq : (fs q).isSome) (hne : p ≠ q) :
    fs.exchange p q p = fs q := by
  simp [Fs.exchange, Option.isNone_eq_false_iff.2 hp, Option.isNone_eq_false_iff.2 hq,
    Fs.set_of_ne _ hne]

theorem exchange_to (hp : (fs p).isSome) (hq : (fs q).isSome) : fs.exchange p q q = fs p := by
  simp [Fs.exchange, Option.isNone_eq_false_iff.2 hp, Option.isNone_eq_false_iff.2 hq]

theorem exchange_other (hp : r ≠ p) (hq : r ≠ q) : fs.exchange p q r = fs r := by
  unfold Fs.exchange
  split
  · rfl
  · rw [Fs.set_of_ne _ hq, Fs.set_of_ne _ hp]

/-- An exchange is its own inverse. -/
theorem exchange_exchange (hp : (fs p).isSome) (hq : (fs q).isSome) (hne : p ≠ q) :
    (fs.exchange p q).exchange q p = fs := by
  have hq' : ((fs.exchange p q) q).isSome := by rwa [exchange_to hp hq]
  have hp' : ((fs.exchange p q) p).isSome := by rwa [exchange_from hp hq hne]
  funext r
  by_cases hrp : r = p
  · subst hrp
    rw [exchange_to hq' hp', exchange_to hp hq]
  · by_cases hrq : r = q
    · subst hrq
      rw [exchange_from hq' hp' hne.symm, exchange_from hp hq hne]
    · rw [exchange_other hrq hrp, exchange_other hrp hrq]

section Rules

variable {I : Fs P β → Prop} {α : Type} {Q : α → Fs P β → Prop} {k : Bool → PlanSwap P α}
  {deletes : Bool} {index : Nat}

theorem safe_exchange (hI : I fs)
    (hok : (fs p).isSome → (fs q).isSome → (k true).Safe macosSwapOps I Q (fs.exchange p q))
    (hfail : (k false).Safe macosSwapOps I Q fs) :
    (op (.swap ⟨p, q, .renameSwap, deletes⟩ index) >>= k).Safe macosSwapOps I Q fs := by
  refine ⟨hI, fun ok ↦ ?_⟩
  show (k (ok && (fs p).isSome && (false || (fs q).isSome))).Safe macosSwapOps I Q
    (if ok then fs.exchange p q else fs)
  rw [Bool.false_or]
  cases ok with
  | false => exact hfail
  | true =>
    cases hp : (fs p).isSome with
    | false => simpa [Fs.exchange, Option.isSome_eq_false_iff.1 hp] using hfail
    | true =>
      cases hq : (fs q).isSome with
      | false => simpa [Fs.exchange, Option.isSome_eq_false_iff.1 hq] using hfail
      | true => exact hok hp hq

theorem safe_rename (hI : I fs)
    (hok : (fs p).isSome → (k true).Safe macosSwapOps I Q (fs.rename p q))
    (hfail : (k false).Safe macosSwapOps I Q fs) :
    (op (.swap ⟨p, q, .plainRename, deletes⟩ index) >>= k).Safe macosSwapOps I Q fs := by
  refine ⟨hI, fun ok ↦ ?_⟩
  show (k (ok && (fs p).isSome && true)).Safe macosSwapOps I Q (if ok then fs.rename p q else fs)
  rw [Bool.and_true]
  cases ok with
  | false => exact hfail
  | true =>
    cases hp : (fs p).isSome with
    | false => simpa [rename_of_none hp] using hfail
    | true => exact hok hp

end Rules

/-- What a plan ends with. -/
def PlanEnds (fs₀ : Fs P β) (plan : SwapPlan P) : Planned → Fs P β → Prop
  | .panicked, _ => False
  | .ended .ok, fs => ∀ c ∈ plan.images, fs c.installed = fs₀ c.staged ∧ (fs₀ c.staged).isSome
  | .ended .error, fs => fs = fs₀

/-- The bundle is exchanged, and the helper renamed over, or nothing is. -/
theorem safe_executePlan (debug : Bool) {a d h e : P} (hpaths : [a, d, h, e].Nodup) (fs : Fs P β) :
    (executePlan debug (planSwap a d h e)).Safe macosSwapOps
      (Recoverable fs (planSwap a d h e).images) (PlanEnds fs (planSwap a d h e)) fs := by
  obtain ⟨⟨had, hah, hae⟩, ⟨hdh, hde⟩, hhe⟩ :
      (a ≠ d ∧ a ≠ h ∧ a ≠ e) ∧ (d ≠ h ∧ d ≠ e) ∧ h ≠ e := by
    simpa [not_or, and_assoc] using hpaths
  have hassert : (debug && !([(planSwap a d h e).app, (planSwap a d h e).helper].dropLast.all
      (·.primitive = .renameSwap))) = false := by
    cases debug <;> rfl
  unfold executePlan
  simp only [hassert, Bool.false_eq_true, if_false]
  have hstart : Recoverable fs (planSwap a d h e).images fs := .inl fun c _ ↦ ⟨.inl rfl, .inl rfl⟩
  refine safe_exchange hstart (fun ha hd ↦ ?_) ⟨hstart, rfl⟩
  have happ : Recoverable fs (planSwap a d h e).images (fs.exchange a d) := by
    refine .inl (List.forall_mem_cons.2 ⟨⟨.inr ?_, .inr ?_⟩, List.forall_mem_singleton.2
      ⟨.inl ?_, .inl ?_⟩⟩)
    · exact exchange_from ha hd had
    · exact exchange_to ha hd
    · exact exchange_other hae.symm hde.symm
    · exact exchange_other hah.symm hdh.symm
  refine safe_rename happ (fun hh ↦ ?_) ⟨happ, fun _ ↦ ?_⟩
  · have hhelper : (fs.exchange a d) h = fs h := exchange_other hah.symm hdh.symm
    have hdone : ∀ c ∈ (planSwap a d h e).images,
        ((fs.exchange a d).rename h e) c.installed = fs c.staged ∧ (fs c.staged).isSome := by
      refine List.forall_mem_cons.2 ⟨⟨?_, ha⟩, List.forall_mem_singleton.2 ⟨?_, hhelper ▸ hh⟩⟩
      · exact (rename_other hdh hde).trans (exchange_to ha hd)
      · exact (rename_to hh hhe).trans hhelper
    -- Only the bundle that was swapped out is deleted.
    refine ⟨.inr fun c hc ↦ (hdone c hc).1, fun ok ↦ ?_⟩
    have hdeleted : ∀ c ∈ (planSwap a d h e).images,
        (if ok then ((fs.exchange a d).rename h e).set a none else (fs.exchange a d).rename h e)
          c.installed = fs c.staged ∧ (fs c.staged).isSome := by
      cases ok with
      | false => exact hdone
      | true =>
        refine fun c hc ↦ ⟨(Fs.set_of_ne _ ?_ _).trans (hdone c hc).1, (hdone c hc).2⟩
        obtain rfl | hc := List.mem_cons.1 hc
        · exact had.symm
        · obtain rfl := List.mem_singleton.1 hc
          exact hae.symm
    exact ⟨.inr fun c hc ↦ (hdeleted c hc).1, hdeleted⟩
  · have hback : (fs.exchange a d).exchange d a = fs := exchange_exchange ha hd had
    show Recoverable fs (planSwap a d h e).images ((fs.exchange a d).exchange d a) ∧
      (fs.exchange a d).exchange d a = fs
    rw [hback]
    exact ⟨hstart, rfl⟩

end Macos

/-! ### All or nothing -/

/-- **A swap is all or nothing**, where no two of its paths are one: at every moment the old and the
new file of each image are there or the whole set is in place, an error leaves what was there, and
otherwise every installed path holds its staged file. -/
theorem swap_all_or_nothing :
    (∀ (images : List (ImageMove Path)) (targetVersion : List Char) (fs : Fs Path β)
        (choices : List Bool),
      Apart (images.map (ImageMove.completed (oldName targetVersion))) →
      let r := (executeImageSwaps images (oldName targetVersion)).run fsSwapStep fs choices
      Recoverable fs (images.map (ImageMove.completed (oldName targetVersion))) r.2.1 ∧
        ∀ swapped, r.1 = some swapped →
          Ends fs (images.map (ImageMove.completed (oldName targetVersion))) swapped r.2.1) ∧
    ∀ (debug : Bool) (appStaging appDest helperStaging helperDest : Path) (fs : Fs Path β)
        (choices : List Bool), [appStaging, appDest, helperStaging, helperDest].Nodup →
      let plan := planSwap appStaging appDest helperStaging helperDest
      let r := (executePlan debug plan).run macosSwapOps fs choices
      Recoverable fs plan.images r.2.1 ∧
        ∀ planned, r.1 = some planned → PlanEnds fs plan planned r.2.1 := by
  refine ⟨fun images targetVersion fs choices hapart ↦ ?_,
    fun debug a d h e fs choices hpaths ↦ (safe_executePlan debug hpaths fs).sound choices⟩
  have hstart := Between.start fs (images.map (ImageMove.completed (oldName targetVersion)))
  exact (safe_swapImages hapart hstart).sound choices

/-- Two installed files, where the second has the name that the first is renamed to. -/
def clashing : List (ImageMove Path) :=
  [⟨"C:\\hole\\a".toList, "C:\\new\\a".toList⟩,
    ⟨"C:\\hole\\a.old-1".toList, "C:\\new\\b".toList⟩]

/-- The contents of the installed and the staged files. -/
def clashingFs : Fs Path Nat := fun path ↦
  if path = "C:\\hole\\a".toList then some 0
  else if path = "C:\\hole\\a.old-1".toList then some 1
  else if path = "C:\\new\\a".toList then some 2
  else if path = "C:\\new\\b".toList then some 3 else none

/-- The last image cannot be moved in, the swap is taken back, and the second installed file is
gone: the first was renamed over it. -/
theorem second_image_lost :
    (clashing.flatMap fun img ↦ [img.installed, img.staged]).Nodup ∧
    let r := (executeImageSwaps clashing (oldName ['1'])).run fsSwapStep clashingFs
      [true, true, true, false, true, true]
    r.1 = some .error ∧ clashingFs "C:\\hole\\a.old-1".toList = some 1 ∧
      r.2.1 "C:\\hole\\a.old-1".toList = none := by
  decide

/-- Under another version the names do not clash, and a second file that cannot be moved in is taken
back with the first; so is the app of a plan whose helper cannot be swapped. -/
theorem swap_all_or_nothing_two :
    (let images := clashing.map (ImageMove.completed (oldName ['2']))
      let r := (executeImageSwaps clashing (oldName ['2'])).run fsSwapStep clashingFs
        [true, true, true, false, true, true, true]
      r.1 = some .error ∧ Recoverable clashingFs images r.2.1 ∧
        ∀ swapped, r.1 = some swapped → Ends clashingFs images swapped r.2.1) ∧
    let plan := planSwap "C:\\new\\a".toList "C:\\hole\\a".toList "C:\\new\\b".toList
      "C:\\hole\\a.old-1".toList
    let r := (executePlan false plan).run macosSwapOps clashingFs [true, false, true]
    Recoverable clashingFs plan.images r.2.1 ∧
      ∀ planned, r.1 = some planned → PlanEnds clashingFs plan planned r.2.1 :=
  ⟨⟨by decide, swap_all_or_nothing.1 _ _ _ _ (by unfold Apart; decide)⟩,
    swap_all_or_nothing.2 _ _ _ _ _ _ _ (by decide)⟩

end Hole.Cutover
