import Hole.Files.OpenLocked

/-!
# The lock excludes

Any number of calls of `open_locked` on one path, blocking or not, each with its own owner, as
tasks over one file system. A call that got the lock holds it until its `Exclusive` is dropped; a
crash, in front of any system call, closes the files and nothing else.

The lock file is created, judged, unlinked and recreated by the contenders themselves, so holding
the `flock` of *a* lock file says little: it may be an orphan. What carries the proof is that the
name changes in two ways only. It is created where there is none, and it is unlinked by a task
that holds the `flock` of the file it denotes and has seen so. Once a task has found the name to
denote the file it holds, nobody else can make it denote anything else (`Phase.sure`).
-/

namespace Hole.Files

open Posix Effect
open Function (update update_of_ne)
open Fallible (follows_bind follows_attempt follows_onError)

/-- How a call of `try_acquire` or `acquire` ended. -/
inductive Outcome
  /-- It got the lock, and its `Exclusive` has been dropped. -/
  | released
  /-- It returned `None`. -/
  | contended
  | failed (err : Error)
  | crashed
  deriving DecidableEq

/-- A live `Exclusive`, up to its drop. -/
def exclusive (file : Nat) : Prog Call Ans Outcome :=
  Prog.call (.close file) fun _ ↦ .pure .released

/-- `try_acquire` or `acquire`, and the life of the `Exclusive` it returns. -/
def acquire (dir : Except Error Nat) (name : Name) (block : Bool) (owner : Option (Nat × Nat))
    (euid passes : Nat) : Prog Call Ans Outcome := do
  match ← (openLocked dir name block owner euid passes).run with
  | .ok (some file) => exclusive file
  | .ok none => pure .contended
  | .error err => pure (.failed err)

/-- A call: what opening the folder failed with, if it did, whether the call blocks, and the owner
it was given. -/
structure Caller where
  refused : Option {err : Error // err ≠ .exhausted}
  block : Bool
  owner : Option (Nat × Nat)

/-- The file system, with a record of how each call ended and of how many system calls were
made. -/
structure Shared where
  fs : Fs
  outcome : Nat → Option Outcome
  clock : Nat

/-- The calls of `open_locked` on one name of one folder, by processes of uid `euid`. A choice is
whether a system call fails for a reason of its own. -/
def contenders (dir : Nat) (name : Name) (euid passes : Nat) :
    System Call Ans Shared Bool Caller Outcome where
  body k := acquire (k.refused.elim (.ok dir) fun err ↦ .error err) name k.block k.owner euid passes
  arrives _ := true
  enabled s _ i o := (s.fs.waitsFor i o).isNone
  answer s i _ o fail := s.fs.answer euid i o fail
  next s i _ o fail := { s with fs := s.fs.after euid i o fail, clock := s.clock + 1 }
  fork _ := none
  droppable _ _ := true
  finish s i _ r := { s with outcome := update s.outcome i (some r) }
  cleanup s i _ :=
    { s with fs := s.fs.closeAll i, outcome := update s.outcome i (some .crashed) }

/-! ### How far a call has come -/

/-- How far a call has come, with the passes it has left and the file it has open. -/
inductive Phase
  /-- In front of a pass. -/
  | idle (left : Nat)
  /-- The name was there. -/
  | trying (left : Nat)
  | failing
  | opened (left file : Nat)
  /-- It holds the lock of its file. -/
  | locked (left file : Nat)
  /-- It has looked what the name denotes. -/
  | looked (left file : Nat) (named : Option Nat)
  /-- It has found that the name denotes its file. -/
  | sure (left file : Nat)
  /-- Somebody else holds the lock of its file, and it will not wait. -/
  | beaten (file : Nat)
  | lost
  | closed

/-- The calls a phase allows. A name is created or unlinked only if it is an ordinary one. -/
def Phase.allows (dir : Nat) (name : Name) : Phase → Call → Prop
  | .idle _, o => ordinary name = true ∧
    o = .openat dir name (OpenFile.createNew 0o600).flags.1 0o600
  | .trying _, o => o = .openat dir name OpenFile.existing.flags.1 0
  | .failing, o => o = .fstatat dir name
  | .opened _ f, o => o = .fstat f ∨ (∃ block, o = .flock f block) ∨ o = .close f
  | .locked _ f, o => o = .fstatat dir name ∨ o = .close f
  | .looked _ f _, o => o = .fstat f
  | .sure _ f, o => o = .fstat f ∨ (∃ mode, o = .fchmod f mode) ∨
    (∃ uid gid, o = .fchown f uid gid) ∨ (ordinary name = true ∧ o = .unlinkat dir name) ∨
    o = .close f
  | .beaten f, o => o = .close f
  | .lost, _ => False
  | .closed, _ => False

/-- The phase after a call. -/
def Phase.after : Phase → (o : Call) → Ans o → Phase
  | .idle left, .openat .., .ok f => .opened (left - 1) f
  | .idle left, .openat .., .error err =>
    if err = .alreadyExists then .trying (left - 1) else .failing
  | .trying left, .openat .., .ok f => .opened left f
  | .trying left, .openat .., .error err => if err = .notFound then .idle left else .failing
  | .opened left f, .flock .., .ok _ => .locked left f
  | .opened left f, .flock _ block, .error err =>
    if !block && err = .wouldBlock then .beaten f else .opened left f
  | .opened _ _, .close _, _ => .failing
  | .locked left f, .fstatat .., .ok st => .looked left f (some (Meta.id st))
  | .locked left f, .fstatat .., .error err =>
    if err = .notFound then .looked left f none else .locked left f
  | .locked left _, .close _, _ => .idle left
  | .looked left f named, .fstat _, .ok st =>
    if named = some (Meta.id st) then .sure left f else .locked left f
  | .looked left f _, .fstat _, .error _ => .locked left f
  | .sure left f, .unlinkat .., .ok _ => .locked left f
  | .sure left f, .unlinkat .., .error err =>
    if err = .notFound then .locked left f else .sure left f
  | .sure _ _, .close _, _ => .closed
  | .beaten _, .close _, _ => .lost
  | ph, _, _ => ph

/-- How a call may end in a phase. -/
def Phase.leaves : Phase → Outcome → Prop
  | .idle left, r => ∃ err, r = .failed err ∧ (err = .exhausted → left = 0)
  | .failing, r => ∃ err, r = .failed err ∧ err ≠ .exhausted
  | .lost, r => r = .contended
  | .closed, r => r = .released ∨ ∃ err, r = .failed err ∧ err ≠ .exhausted
  | _, _ => False

/-- The protocol of `open_locked`. -/
def openProtocol (dir : Nat) (name : Name) (passes : Nat) :
    Protocol Call Ans Caller Outcome Phase where
  enter _ := .idle passes
  allows := Phase.allows dir name
  after := Phase.after
  leaves := Phase.leaves

/-! ### The program follows it -/

section Follows

variable {dir : Nat} {name : Name} {passes : Nat} {block : Bool} {owner : Option (Nat × Nat)}
  {euid : Nat}

/-- A call that fails here may end. -/
def Phase.fails (err : Error) (ph : Phase) : Prop := ph.leaves (.failed err)

variable {err : Error}

theorem fails_idle (h : err ≠ .exhausted) (left : Nat) : (Phase.idle left).fails err :=
  ⟨err, rfl, fun he ↦ absurd he h⟩

theorem fails_failing (h : err ≠ .exhausted) : Phase.failing.fails err :=
  ⟨err, rfl, h⟩

variable {E : Error → Phase → Prop}

variable {ph : Phase}

/-- Looking up what sits at a name that cannot be opened. -/
theorem follows_kindOf {Q : Option Kind → Phase → Prop} (hph : ordinary name = true → ph = .failing)
    (hE : ∀ err, err ≠ .exhausted → E err ph) (hQ : ∀ kind, Q kind ph) :
    Fallible.Follows (openProtocol dir name passes) E Q (kindOf dir name) ph := by
  refine follows_bind (follows_singleComponent (fun hname ↦ ?_) fun _ ↦ hE _ nofun)
  obtain rfl := hph hname
  refine follows_bind (follows_attempt (follows_sys rfl ?_ ?_))
  · exact fun st ↦ hQ _
  · intro kind
    cases kind with
    | notFound => exact hQ none
    | _ => exact hE _ nofun

theorem follows_failedOpen {α : Type} {Q : α → Phase → Prop}
    (hph : ordinary name = true → ph = .failing) (hfails : ∀ e, e ≠ .exhausted → ph.fails e)
    (herr : err ≠ .exhausted) :
    Fallible.Follows (openProtocol dir name passes) (fun e ph ↦ ph.fails e) Q
      (failedOpen dir name err : Io α) ph := by
  have hunopenable : Fallible.Follows (openProtocol dir name passes) (fun e ph ↦ ph.fails e)
      (fun _ ph' ↦ ph' = ph) (ofUnopenable dir name) ph := by
    refine follows_bind (follows_attempt (follows_kindOf hph ?_ ?_))
    · exact fun _ _ ↦ rfl
    · rintro (- | kind)
      · exact rfl
      · cases kind <;> exact rfl
  refine hunopenable.bind ?_
  rintro why ph' rfl
  rcases why with - | why
  · exact hfails _ herr
  · exact hfails _ nofun

/-- An open that does not read: the one call, on an ordinary name. -/
theorem follows_openFile {Q : Nat → Phase → Prop} {how : OpenFile} (hhow : how ≠ .read)
    (hallows : ordinary name = true → ph.allows dir name (.openat dir name how.flags.1 how.flags.2))
    (hinvalid : ordinary name = false → E .invalidInput ph)
    (hE : ordinary name = true →
      ∀ kind, E (.io kind) (ph.after (.openat dir name how.flags.1 how.flags.2) (.error kind)))
    (hQ : ∀ file : Nat, Q file (ph.after (.openat dir name how.flags.1 how.flags.2) (.ok file))) :
    Fallible.Follows (openProtocol dir name passes) E Q (openFile dir name how) ph := by
  refine follows_bind (follows_singleComponent (fun hname ↦ ?_) hinvalid)
  refine follows_bind (follows_sys (hallows hname) (fun file ↦ ?_) (hE hname))
  rw [if_neg hhow]
  exact hQ file

theorem follows_openName (left : Nat) :
    Fallible.Follows (openProtocol dir name passes) (fun e ph ↦ ph.fails e) (fun r ph ↦ match r with
        | none => ph = .idle left
        | some opened => ph = .opened left opened.file)
      (openName dir name) (.idle (left + 1)) := by
  refine follows_bind (follows_attempt (follows_openFile nofun ?_ ?_ ?_ ?_))
  · exact fun hname ↦ ⟨hname, rfl⟩
  · intro hname
    exact follows_failedOpen (fun h ↦ by cases hname.symm.trans h)
      (fun _ he ↦ fails_idle he _) nofun
  · intro hname kind
    have hfailed {Q : Option Opened → Phase → Prop} {err : Error} (herr : err ≠ .exhausted) :
        Fallible.Follows (openProtocol dir name passes) (fun e ph ↦ ph.fails e) Q
          (failedOpen dir name err : Io (Option Opened)) .failing :=
      follows_failedOpen (fun _ ↦ rfl) (fun _ he ↦ fails_failing he) herr
    cases kind with
    | alreadyExists =>
      refine follows_bind (follows_attempt (follows_openFile nofun ?_ ?_ ?_ ?_))
      · exact fun _ ↦ rfl
      · exact fun h ↦ by cases h.symm.trans hname
      · intro _ kind'
        cases kind' with
        | notFound => exact rfl
        | _ => exact hfailed nofun
      · exact fun file ↦ rfl
    | _ => exact hfailed nofun
  · exact fun file ↦ rfl

theorem follows_names {left file : Nat} (hE : ∀ err, err ≠ .exhausted → E err (.locked left file)) :
    Fallible.Follows (openProtocol dir name passes) E
      (fun r ph ↦ ph = if r then .sure left file else .locked left file)
      (names dir name file) (.locked left file) := by
  have hfile (named : Option Nat) : Fallible.Follows (openProtocol dir name passes) E
        (fun r ph ↦ ph = if r then .sure left file else .locked left file)
        (do let own ← fileId file; pure (decide (named = some own))) (.looked left file named) := by
    refine follows_bind (follows_bind (follows_sys rfl (fun st ↦ ?_) ?_))
    · show Phase.after (.looked left file named) (.fstat file) (.ok st) =
        if decide (named = some (Meta.id st)) then _ else _
      simp [Phase.after]
    · exact fun kind ↦ hE _ nofun
  have hid : Fallible.Follows (openProtocol dir name passes) E
      (fun named ph ↦ ph = .looked left file named) (idOf dir name) (.locked left file) := by
    refine follows_bind (follows_singleComponent (fun _ ↦ ?_) fun _ ↦ hE _ nofun)
    refine follows_bind (follows_attempt (follows_sys (.inl rfl) ?_ ?_))
    · exact fun st ↦ rfl
    · intro kind
      cases kind with
      | notFound => exact rfl
      | _ => exact hE _ nofun
  refine hid.bind ?_
  rintro named ph rfl
  exact hfile named

/-- A file in hand whose end may be an error: the phases a pass can fail in. -/
def Phase.inHand (left file : Nat) (ph : Phase) : Prop :=
  ph = .opened left file ∨ ph = .locked left file ∨ ph = .sure left file

/-- How a pass ends, as a phase. -/
def Pass.phase (left file : Nat) : Pass → Phase
  | .again => .locked left file
  | .held => .beaten file
  | .locked _ => .sure left file

theorem follows_factsOf {Q : Facts → Phase → Prop} {file : Nat}
    (hallows : ph.allows dir name (.fstat file)) (hafter : ∀ a, ph.after (.fstat file) a = ph)
    (hE : ∀ err, err ≠ .exhausted → E err ph) (hQ : ∀ facts, Q facts ph) :
    Fallible.Follows (openProtocol dir name passes) E Q (factsOf file) ph := by
  refine follows_bind (follows_sys hallows (fun st ↦ ?_) fun kind ↦ ?_)
  · rw [show (openProtocol dir name passes).after ph (.fstat file) (.ok st) = ph from hafter _]
    exact hQ _
  · rw [show (openProtocol dir name passes).after ph (.fstat file) (.error kind) = ph from hafter _]
    exact hE _ nofun

theorem follows_judge (left : Nat) (opened : Opened) :
    Fallible.Follows (openProtocol dir name passes)
      (fun e ph ↦ e ≠ .exhausted ∧ ph.inHand left opened.file)
      (fun r ph ↦ ph = r.phase left opened.file)
      (judge dir name owner euid opened) (.sure left opened.file) := by
  have hE : ∀ err : Error, err ≠ .exhausted →
      err ≠ .exhausted ∧ (Phase.sure left opened.file).inHand left opened.file :=
    fun err herr ↦ ⟨herr, .inr (.inr rfl)⟩
  have hverdict : Fallible.Follows (openProtocol dir name passes)
      (fun e ph ↦ e ≠ .exhausted ∧ ph.inHand left opened.file)
      (fun _ ph ↦ ph = .sure left opened.file)
      (verdictOf owner euid opened) (.sure left opened.file) := by
    unfold verdictOf
    split
    · exact rfl
    · refine follows_bind (follows_factsOf (.inl rfl) (fun _ ↦ rfl) hE fun facts ↦ ?_)
      rcases vet facts euid owner with why | verdict
      · exact hE _ nofun
      · exact rfl
  refine hverdict.bind ?_
  rintro (- | -) ph rfl
  · refine follows_bind (follows_factsOf (.inl rfl) (fun _ ↦ rfl) hE fun facts ↦ ?_)
    dsimp only
    split
    · refine follows_bind (follows_sys (.inr (.inl ⟨_, rfl⟩)) ?_ fun kind ↦ hE _ nofun)
      exact fun _ ↦ rfl
    · exact rfl
  · refine follows_bind (follows_attempt
      (follows_bind (follows_singleComponent (fun hname ↦ ?_) fun _ ↦ hE _ nofun)))
    refine follows_sys (.inr (.inr (.inr (.inl ⟨hname, rfl⟩)))) (fun _ ↦ rfl) fun kind ↦ ?_
    cases kind with
    | notFound => exact rfl
    | _ => exact hE _ nofun

theorem follows_pass (left : Nat) (opened : Opened) :
    Fallible.Follows (openProtocol dir name passes)
      (fun e ph ↦ e ≠ .exhausted ∧ ph.inHand left opened.file)
      (fun r ph ↦ ph = r.phase left opened.file)
      (pass dir name block owner euid opened) (.opened left opened.file) := by
  have hE : ∀ err : Error, err ≠ .exhausted →
      err ≠ .exhausted ∧ (Phase.opened left opened.file).inHand left opened.file :=
    fun err herr ↦ ⟨herr, .inl rfl⟩
  have hregular : Fallible.Follows (openProtocol dir name passes)
      (fun e ph ↦ e ≠ .exhausted ∧ ph.inHand left opened.file)
      (fun _ ph ↦ ph = .opened left opened.file) (lockable opened)
      (.opened left opened.file) := by
    unfold lockable
    split
    · exact rfl
    · exact follows_bind (follows_factsOf (.inl rfl) (fun _ ↦ rfl) hE fun _ ↦ rfl)
  have hlock : Fallible.Follows (openProtocol dir name passes)
      (fun e ph ↦ e ≠ .exhausted ∧ ph.inHand left opened.file)
      (fun r ph ↦ ph = if r then .locked left opened.file else .beaten opened.file)
      (lock opened.file block) (.opened left opened.file) := by
    refine follows_bind (follows_attempt
      (follows_sys (.inr (.inl ⟨block, rfl⟩)) (fun _ ↦ rfl) fun kind ↦ ?_))
    cases block with
    | true => exact hE _ nofun
    | false =>
      cases kind with
      | wouldBlock => exact rfl
      | _ => exact hE _ nofun
  refine hregular.bind ?_
  rintro (- | -) ph rfl
  · exact hE _ nofun
  · refine hlock.bind ?_
    rintro (- | -) ph rfl
    · exact rfl
    · refine (follows_names fun err herr ↦ ⟨herr, .inr (.inl rfl)⟩).bind ?_
      rintro (- | -) ph rfl
      · exact rfl
      · exact follows_judge left opened

/-- Closing the file a pass failed with. -/
theorem follows_close_inHand {left file : Nat} (herr : err ≠ .exhausted) (h : ph.inHand left file) :
    (close file).Follows (openProtocol dir name passes) (fun _ ph' ↦ ph'.fails err) ph := by
  rcases h with rfl | rfl | rfl
  · exact follows_close (.inr (.inr rfl)) fun _ ↦ fails_failing herr
  · exact follows_close (.inr rfl) fun _ ↦ fails_idle herr left
  · exact follows_close (.inr (.inr (.inr (.inr rfl)))) fun _ ↦ .inr ⟨err, rfl, herr⟩

theorem follows_openLockedWith (left : Nat) :
    Fallible.Follows (openProtocol dir name passes) (fun e ph ↦ ph.fails e) (fun r ph ↦ match r with
        | none => ph = .lost
        | some l => ∃ left, ph = .sure left l.file)
      (openLockedWith dir name block owner euid left) (.idle left) := by
  induction left with
  | zero => exact ⟨.exhausted, rfl, fun _ ↦ rfl⟩
  | succ left ih =>
    refine (follows_openName left).bind ?_
    rintro (- | opened) ph rfl
    · exact ih
    · refine Fallible.Follows.bind (follows_onError (follows_pass left opened)
        fun err ph' h ↦ follows_close_inHand h.1 h.2) ?_
      rintro (- | - | changeable) ph rfl
      · exact ⟨.inr rfl, fun _ ↦ ih⟩
      · exact ⟨rfl, fun _ ↦ rfl⟩
      · exact ⟨left, rfl⟩

/-- **Every call follows the protocol.** -/
theorem obeys_acquire (k : Caller) :
    ((contenders dir name euid passes).body k).Obeys (openProtocol dir name passes)
      ((openProtocol dir name passes).enter k) := by
  have hopen : Fallible.Follows (openProtocol dir name passes) (fun e ph ↦ ph.fails e)
      (fun r ph ↦ r.elim (ph = .lost) fun file ↦ ∃ left, ph = .sure left file)
      (openLocked (k.refused.elim (.ok dir) fun err ↦ .error err) name k.block k.owner euid passes)
      (.idle passes) := by
    rcases k.refused with - | err
    · refine (follows_openLockedWith passes).bind ?_
      rintro (- | ⟨file, changeable⟩) ph h
      · exact h
      · obtain ⟨left, rfl⟩ := h
        dsimp only
        split
        · rcases k.owner with - | ⟨uid, gid⟩
          · exact ⟨left, rfl⟩
          · refine follows_bind (follows_onError
              (F := fun err ph ↦ err ≠ .exhausted ∧ ph.inHand left file) ?_
              fun err ph' h ↦ follows_close_inHand h.1 h.2)
            exact follows_sys (.inr (.inr (.inl ⟨uid, some gid, rfl⟩))) (fun _ ↦ ⟨left, rfl⟩)
              fun kind ↦ ⟨nofun, .inr (.inr rfl)⟩
        · exact ⟨left, rfl⟩
    · exact fails_idle err.2 passes
  refine Prog.Follows.bind hopen ?_
  rintro (err | - | file) ph h
  · exact h
  · subst h
    exact rfl
  · obtain ⟨left, rfl⟩ := h
    exact ⟨.inr (.inr (.inr (.inr rfl))), fun _ ↦ .inl rfl⟩

end Follows

/-! ### What a call does to the name and to the locks -/

/-- The file a phase has open. -/
def Phase.file : Phase → Option Nat
  | .opened _ f | .locked _ f | .looked _ f _ | .sure _ f | .beaten f => some f
  | _ => none

/-- The file whose lock a phase holds. -/
def Phase.holds : Phase → Option Nat
  | .locked _ f | .looked _ f _ | .sure _ f => some f
  | _ => none

/-- The file a phase has seen the name denote, while holding its lock. -/
def Phase.knows : Phase → Option Nat
  | .looked _ f named => if named = some f then some f else none
  | .sure _ f => some f
  | _ => none

/-- The passes a phase has left. -/
def Phase.left : Phase → Option Nat
  | .idle n | .trying n | .opened n _ | .locked n _ | .looked n _ _ | .sure n _ => some n
  | _ => none

/-- The phases of a call that returns `None`. -/
def Phase.beat : Phase → Bool
  | .beaten _ | .lost => true
  | _ => false

theorem holds_of_knows {ph : Phase} {f : Nat} (h : ph.knows = some f) : ph.holds = some f := by
  cases ph with
  | looked left file named =>
    simp only [Phase.knows] at h
    split at h
    · exact h
    · cases h
  | sure left file => exact h
  | _ => cases h

theorem file_of_holds {ph : Phase} {f : Nat} (h : ph.holds = some f) : ph.file = some f := by
  cases ph with
  | locked left file => exact h
  | looked left file named => exact h
  | sure left file => exact h
  | _ => cases h

/-- What a task's phase says about the file system. -/
structure Phase.Fits (dir : Nat) (name : Name) (i : Nat) (s : Fs) (ph : Phase) : Prop where
  file : ∀ {f}, ph.file = some f → f < s.next
  holds : ∀ {f}, ph.holds = some f → s.lock f = some i
  knows : ∀ {f}, ph.knows = some f → s.lookup dir name = some f

/-- What a call of task `i` may do to the name and to the locks. -/
structure Shift (dir : Nat) (name : Name) (i : Nat) (s s' : Fs) : Prop where
  next : s.next ≤ s'.next
  /-- The name is left alone, or created where there was none, or unlinked by the task that holds
  the lock of what it denoted. -/
  lookup : s'.lookup dir name = s.lookup dir name ∨
    (s.lookup dir name = none ∧ s'.lookup dir name = some s.next ∧ s.next < s'.next) ∨
    (s'.lookup dir name = none ∧ ∃ f, s.lookup dir name = some f ∧ s.lock f = some i)
  /-- The locks of the others are left alone. -/
  lock : ∀ {f j}, j ≠ i → (s'.lock f = some j ↔ s.lock f = some j)

theorem Shift.refl (dir : Nat) (name : Name) (i : Nat) (s : Fs) : Shift dir name i s s :=
  ⟨Nat.le_refl _, .inl rfl, fun _ ↦ Iff.rfl⟩

/-- A call that leaves the name, the locks and the inodes alone. -/
theorem Shift.of_eq {dir : Nat} {name : Name} {i : Nat} {s s' : Fs} (hnext : s'.next = s.next)
    (hlookup : s'.lookup dir name = s.lookup dir name) (hlock : s'.lock = s.lock) :
    Shift dir name i s s' :=
  ⟨Nat.le_of_eq hnext.symm, .inl hlookup, fun _ ↦ by rw [hlock]⟩

/-- **The others do not notice**: what a task's phase says about the file system outlives a call of
another one. -/
theorem Phase.Fits.of_shift {dir : Nat} {name : Name} {i j : Nat} {s s' : Fs} {ph : Phase}
    (h : ph.Fits dir name j s) (hs : Shift dir name i s s') (hne : j ≠ i) :
    ph.Fits dir name j s' := by
  refine ⟨fun hf ↦ Nat.lt_of_lt_of_le (h.file hf) hs.next, fun hf ↦ (hs.lock hne).2 (h.holds hf),
    fun hf ↦ ?_⟩
  have hname := h.knows hf
  rcases hs.lookup with hkeep | ⟨hnone, -⟩ | ⟨-, g, hg, hlock⟩
  · rw [hkeep, hname]
  · cases hnone.symm.trans hname
  · -- the unlinked file is the one `j` holds the lock of
    obtain rfl : g = _ := Option.mem_unique hg hname
    have hj := h.holds (holds_of_knows hf)
    exact absurd (Option.mem_unique hj hlock) hne

/-- What holds of a task in phase `ph` and of the name. -/
structure Phase.Sound (dir : Nat) (name : Name) (i : Nat) (s : Fs) (ph : Phase) : Prop extends
    ph.Fits dir name i s where
  named : ∀ {f}, s.lookup dir name = some f → f < s.next
  /-- The task holds no lock but that of its file. -/
  own : ∀ {f}, s.lock f = some i → ph.holds = some f

/-- What a call of task `i` takes its phase to. -/
structure Moves (dir : Nat) (name : Name) (i : Nat) (s s' : Fs) (ph ph' : Phase) : Prop where
  shift : Shift dir name i s s'
  sound : ph'.Sound dir name i s'
  /-- A call that goes away empty-handed was beaten by a holder. -/
  beat : ph'.beat = true → ph.beat = true ∨ ∃ f j, j ≠ i ∧ s.lock f = some j
  left : ∀ {n'}, ph'.left = some n' → ∃ n, ph.left = some n ∧ n ≤ n' + 1

section Moves

variable {dir : Nat} {name : Name} {euid i : Nat} {s : Fs} {ph : Phase}

/-- A call that changes nothing of the name and the locks, and takes the phase where it may. -/
theorem Phase.Sound.moves {s' : Fs} {ph' : Phase} (h : ph.Sound dir name i s)
    (hnext : s'.next = s.next) (hlookup : s'.lookup dir name = s.lookup dir name)
    (hlock : s'.lock = s.lock) (hfile : ∀ {f}, ph'.file = some f → f < s.next)
    (hholds : ph'.holds = ph.holds) (hknows : ∀ {f}, ph'.knows = some f →
      s.lookup dir name = some f)
    (hbeat : ph'.beat = true → ph.beat = true ∨ ∃ f j, j ≠ i ∧ s.lock f = some j)
    (hleft : ∀ {n'}, ph'.left = some n' → ∃ n, ph.left = some n ∧ n ≤ n' + 1) :
    Moves dir name i s s' ph ph' := by
  refine ⟨Shift.of_eq hnext hlookup hlock, ⟨⟨?_, ?_, ?_⟩, ?_, ?_⟩, hbeat, hleft⟩
  · exact fun hf ↦ hnext ▸ hfile hf
  · intro f hf
    rw [hlock]
    exact h.holds (hholds ▸ hf)
  · intro f hf
    rw [hlookup]
    exact hknows hf
  · intro f hf
    rw [hnext]
    exact h.named (hlookup ▸ hf)
  · intro f hf
    rw [hholds]
    exact h.own (hlock ▸ hf)

theorem Phase.Sound.stays (h : ph.Sound dir name i s) : Moves dir name i s s ph ph :=
  h.moves rfl rfl rfl h.file rfl h.knows .inl fun hn ↦ ⟨_, hn, Nat.le_succ _⟩

/-- A file that the task lets go. -/
theorem Phase.Sound.moves_close {file : Nat} (h : ph.Sound dir name i s) (ph' : Phase)
    (hheld : ∀ {f}, ph.holds = some f → f = file) (hfile : ph'.file = none)
    (hbeat : ph'.beat = true → ph.beat = true)
    (hleft : ∀ {n'}, ph'.left = some n' → ph.left = some n') (fail : Bool) :
    Moves dir name i s (s.after euid i (.close file) fail) ph ph' := by
  have hafter : s.after euid i (.close file) fail =
      if s.lock file = some i then { s with lock := update s.lock file none } else s := by
    simp [Fs.after, Call.fallible, Fs.act]
  have hholds : ph'.holds = none := by
    rcases hph : ph'.holds with - | f
    · rfl
    · cases hfile.symm.trans (file_of_holds hph)
  rw [hafter]
  split
  · next hlock =>
    refine ⟨⟨Nat.le_refl _, .inl rfl, ?_⟩, ⟨⟨?_, ?_, ?_⟩, h.named, ?_⟩, fun hb ↦ .inl (hbeat hb),
      fun hn ↦ ⟨_, hleft hn, Nat.le_succ _⟩⟩
    · intro f j hne
      rcases eq_or_ne f file with rfl | hf
      · simp [hlock, hne.symm]
      · simp [hf]
    · exact fun hf ↦ by cases hfile.symm.trans hf
    · exact fun hf ↦ by cases hholds.symm.trans hf
    · exact fun hf ↦ by cases hholds.symm.trans (holds_of_knows hf)
    · intro f hf
      rcases eq_or_ne f file with rfl | hne
      · simp at hf
      · have hf : s.lock f = some i := by simpa [hne] using hf
        exact absurd (hheld (h.own hf)) hne
  · next hlock =>
    have hnone : ph.holds = none := by
      rcases hph : ph.holds with - | f
      · rfl
      · obtain rfl := hheld hph
        exact absurd (h.holds hph) hlock
    refine h.moves rfl rfl rfl ?_ (hholds.trans hnone.symm) ?_ (fun hb ↦ .inl (hbeat hb))
      fun hn ↦ ⟨_, hleft hn, Nat.le_succ _⟩
    · exact fun hf ↦ by cases hfile.symm.trans hf
    · exact fun hf ↦ by cases hholds.symm.trans (holds_of_knows hf)

/-- A call that only looks leaves the file system as it is. -/
theorem after_of_act {o : Call} (h : ∀ v s', s.act euid i o = .ok (v, s') → s' = s) (fail : Bool) :
    s.after euid i o fail = s := by
  unfold Fs.after
  split
  · rfl
  · split
    · next v s' hact => exact h v s' hact
    · rfl

theorem after_fstat (f : Nat) (fail : Bool) : s.after euid i (.fstat f) fail = s := by
  refine after_of_act (fun v s' h ↦ ?_) fail
  simp only [Fs.act] at h
  exact (congrArg Prod.snd (Except.ok.inj h)).symm

theorem after_fstatat (d : Nat) (n : Name) (fail : Bool) :
    s.after euid i (.fstatat d n) fail = s := by
  refine after_of_act (fun v s' h ↦ ?_) fail
  simp only [Fs.act] at h
  split at h
  · exact (congrArg Prod.snd (Except.ok.inj h)).symm
  · cases h

variable {flags : Flags}

theorem after_open {d : Nat} {n : Name} {mode : Nat} (h : flags.create = false) (fail : Bool) :
    s.after euid i (.openat d n flags mode) fail = s := by
  refine after_of_act (fun v s' hact ↦ ?_) fail
  simp only [Fs.act, h, Bool.false_eq_true, if_false] at hact
  split at hact
  · split at hact
    · exact (congrArg Prod.snd (Except.ok.inj hact)).symm
    · cases hact
  · cases hact

theorem moves_create {left : Nat} (h : (Phase.idle left).Sound dir name i s)
    (hname : ordinary name = true) {mode : Nat} (hcreate : flags.create = true) (fail : Bool) :
    Moves dir name i s (s.after euid i (.openat dir name flags mode) fail) (.idle left)
      ((Phase.idle left).after (.openat dir name flags mode)
        (s.answer euid i (.openat dir name flags mode) fail)) := by
  have hcount {n' : Nat} (hn : left - 1 = n') : left ≤ n' + 1 := by omega
  rcases fail with - | -
  · rcases hlookup : s.lookup dir name with - | j
    · simp only [Fs.after, Fs.answer, Fs.act, hlookup, hcreate, Bool.false_and,
        Bool.false_eq_true, if_false, if_true, Except.map, Phase.after]
      refine ⟨⟨Nat.le_succ _, .inr (.inl ⟨hlookup, lookup_make_self hname _, Nat.lt_succ_self _⟩),
        fun _ ↦ Iff.rfl⟩, ⟨⟨?_, by rintro _ ⟨⟩, by rintro _ ⟨⟩⟩, ?_, ?_⟩, by rintro ⟨⟩, ?_⟩
      · exact fun hf ↦ Option.some.inj hf ▸ Nat.lt_succ_self _
      · intro f hf
        obtain rfl := Option.some.inj ((lookup_make_self hname _).symm.trans hf)
        exact Nat.lt_succ_self _
      · exact fun hf ↦ h.own hf
      · exact fun hn ↦ ⟨left, rfl, hcount (Option.some.inj hn)⟩
    · simp only [Fs.after, Fs.answer, Fs.act, hlookup, hcreate, Bool.false_and,
        Bool.false_eq_true, if_false, if_true, Except.map, Phase.after]
      exact h.moves rfl rfl rfl (by rintro _ ⟨⟩) rfl (by rintro _ ⟨⟩) (by rintro ⟨⟩)
        fun hn ↦ ⟨left, rfl, hcount (Option.some.inj hn)⟩
  · exact h.moves rfl rfl rfl (by rintro _ ⟨⟩) rfl (by rintro _ ⟨⟩) (by rintro ⟨⟩) (by rintro _ ⟨⟩)

theorem moves_existing {left : Nat} (h : (Phase.trying left).Sound dir name i s) {mode : Nat}
    (hcreate : flags.create = false) (fail : Bool) :
    Moves dir name i s (s.after euid i (.openat dir name flags mode) fail) (.trying left)
      ((Phase.trying left).after (.openat dir name flags mode)
        (s.answer euid i (.openat dir name flags mode) fail)) := by
  rw [after_open hcreate]
  rcases fail with - | -
  · rcases hlookup : s.lookup dir name with - | j
    · simp only [Fs.answer, Fs.act, hlookup, hcreate, Bool.false_and, Bool.false_eq_true, if_false,
        if_true, Except.map, Phase.after]
      exact h.moves rfl rfl rfl (by rintro _ ⟨⟩) rfl (by rintro _ ⟨⟩) (by rintro ⟨⟩)
        fun hn ↦ ⟨left, rfl, Option.some.inj hn ▸ Nat.le_succ _⟩
    · rcases hopens : s.opens flags j with - | -
      · simp only [Fs.answer, Fs.act, hlookup, hcreate, hopens, Bool.false_and,
          Bool.false_eq_true, if_false, Except.map, Phase.after]
        exact h.moves rfl rfl rfl (by rintro _ ⟨⟩) rfl (by rintro _ ⟨⟩) (by rintro ⟨⟩)
          (by rintro _ ⟨⟩)
      · simp only [Fs.answer, Fs.act, hlookup, hcreate, hopens, Bool.false_and,
          Bool.false_eq_true, if_false, if_true, Except.map, Phase.after]
        exact h.moves rfl rfl rfl (fun hf ↦ Option.some.inj hf ▸ h.named hlookup) rfl
          (by rintro _ ⟨⟩) (by rintro ⟨⟩) fun hn ↦ ⟨left, rfl, Option.some.inj hn ▸ Nat.le_succ _⟩
  · exact h.moves rfl rfl rfl (by rintro _ ⟨⟩) rfl (by rintro _ ⟨⟩) (by rintro ⟨⟩) (by rintro _ ⟨⟩)

variable {left f : Nat}

theorem moves_flock (h : (Phase.opened left f).Sound dir name i s) (block : Bool) (fail : Bool) :
    Moves dir name i s (s.after euid i (.flock f block) fail) (.opened left f)
      ((Phase.opened left f).after (.flock f block) (s.answer euid i (.flock f block) fail)) := by
  rcases fail with - | -
  · rcases hlock : s.lock f with - | j
    · simp only [Fs.after, Fs.answer, Fs.act, hlock, Bool.false_and, Bool.false_eq_true, if_false,
        Except.map, Phase.after]
      refine ⟨⟨Nat.le_refl _, .inl rfl, ?_⟩, ⟨⟨h.file, ?_, by rintro _ ⟨⟩⟩, h.named, ?_⟩,
        by rintro ⟨⟩, ?_⟩
      · intro g j hne
        rcases eq_or_ne g f with rfl | hg
        · simp [hlock, hne.symm]
        · simp [hg]
      · intro g hg
        cases hg
        simp
      · intro g hg
        rcases eq_or_ne g f with rfl | hne
        · rfl
        · cases h.own (show s.lock g = some i by simpa [hne] using hg)
      · exact fun hn ↦ ⟨_, hn, Nat.le_succ _⟩
    · have hne : j ≠ i := by
        rintro rfl
        cases h.own hlock
      simp only [Fs.after, Fs.answer, Fs.act, hlock, hne, Bool.false_and, Bool.false_eq_true,
        if_false, Except.map]
      rcases block with - | -
      · exact h.moves rfl rfl rfl h.file rfl (by rintro _ ⟨⟩) (fun _ ↦ .inr ⟨f, j, hne, hlock⟩)
          (by rintro _ ⟨⟩)
      · exact h.stays
  · rcases block with - | - <;> exact h.stays

theorem moves_look (h : (Phase.locked left f).Sound dir name i s) (fail : Bool) :
    Moves dir name i s (s.after euid i (.fstatat dir name) fail) (.locked left f)
      ((Phase.locked left f).after (.fstatat dir name)
        (s.answer euid i (.fstatat dir name) fail)) := by
  rw [after_fstatat]
  have hlooked (named : Option Nat) (hnamed : named = some f → s.lookup dir name = some f) :
      Moves dir name i s s (.locked left f) (.looked left f named) := by
    refine h.moves rfl rfl rfl h.file rfl ?_ (by rintro ⟨⟩) fun hn ↦ ⟨_, hn, Nat.le_succ _⟩
    intro g hg
    simp only [Phase.knows] at hg
    split at hg
    · next hf => exact hg ▸ hnamed hf
    · cases hg
  rcases fail with - | -
  · rcases hlookup : s.lookup dir name with - | j
    · simp only [Fs.answer, Fs.act, hlookup, Bool.false_and, Bool.false_eq_true, if_false,
        if_true, Except.map, Phase.after]
      exact hlooked none (by rintro ⟨⟩)
    · simp only [Fs.answer, Fs.act, hlookup, Bool.false_and, Bool.false_eq_true, if_false,
        Except.map, Phase.after]
      exact hlooked (some j) fun hj ↦ hlookup.trans hj
  · exact h.stays

theorem moves_compare {named : Option Nat} (h : (Phase.looked left f named).Sound dir name i s)
    (fail : Bool) :
    Moves dir name i s (s.after euid i (.fstat f) fail) (.looked left f named)
      ((Phase.looked left f named).after (.fstat f) (s.answer euid i (.fstat f) fail)) := by
  rw [after_fstat]
  have hlocked : Moves dir name i s s (.looked left f named) (.locked left f) :=
    h.moves rfl rfl rfl h.file rfl (by rintro _ ⟨⟩) (by rintro ⟨⟩) fun hn ↦ ⟨_, hn, Nat.le_succ _⟩
  rcases fail with - | -
  · simp only [Fs.answer, Fs.act, Bool.false_and, Bool.false_eq_true, if_false, Except.map,
      Phase.after, Fs.stat]
    split
    · next hnamed =>
      refine h.moves rfl rfl rfl h.file rfl (fun hg ↦ h.knows ?_) (by rintro ⟨⟩)
        fun hn ↦ ⟨_, hn, Nat.le_succ _⟩
      simpa [Phase.knows, hnamed] using hg
    · exact hlocked
  · exact hlocked

theorem moves_unlink (h : (Phase.sure left f).Sound dir name i s) (hname : ordinary name = true)
    (fail : Bool) :
    Moves dir name i s (s.after euid i (.unlinkat dir name) fail) (.sure left f)
      ((Phase.sure left f).after (.unlinkat dir name)
        (s.answer euid i (.unlinkat dir name) fail)) := by
  have hlookup : s.lookup dir name = some f := h.knows rfl
  rcases fail with - | -
  · by_cases hkind : (s.node f).kind = .directory
    · simp only [Fs.after, Fs.answer, Fs.act, hlookup, hkind, Bool.false_and, Bool.false_eq_true,
        if_false, if_true, Except.map]
      exact h.stays
    · simp only [Fs.after, Fs.answer, Fs.act, hlookup, hkind, Bool.false_and, Bool.false_eq_true,
        if_false, Except.map, Phase.after]
      have hgone : ((s.leave dir name).unlinked f).lookup dir name = none := by
        rw [lookup_unlinked, lookup_leave hname, if_pos ⟨rfl, rfl⟩]
      refine ⟨⟨Nat.le_refl _, .inr (.inr ⟨hgone, f, hlookup, h.holds rfl⟩), fun _ ↦ Iff.rfl⟩,
        ⟨⟨h.file, h.holds, by rintro _ ⟨⟩⟩, ?_, h.own⟩, by rintro ⟨⟩,
        fun hn ↦ ⟨_, hn, Nat.le_succ _⟩⟩
      exact fun hf ↦ by cases hgone.symm.trans hf
  · exact h.stays

/-- A change of the file's mode or owner. -/
theorem moves_modify (h : (Phase.sure left f).Sound dir name i s) {o : Call} {v : Val o}
    (g : Node → Node) (hact : s.act euid i o = .ok (v, s.modify f g))
    (hentries : ∀ x, (g x).entries = x.entries) (hparent : ∀ x, (g x).parent = x.parent)
    (fail : Bool) : Moves dir name i s (s.after euid i o fail) (.sure left f) (.sure left f) := by
  unfold Fs.after
  split
  · exact h.stays
  · rw [hact]
    exact h.moves rfl (lookup_modify hentries hparent) rfl h.file rfl h.knows .inl
      fun hn ↦ ⟨_, hn, Nat.le_succ _⟩

/-- **What a call does**, phase by phase. -/
theorem Phase.Sound.moves_call {o : Call} (h : ph.Sound dir name i s)
    (hallows : ph.allows dir name o) (fail : Bool) :
    Moves dir name i s (s.after euid i o fail) ph (ph.after o (s.answer euid i o fail)) := by
  cases ph with
  | idle left =>
    obtain ⟨hname, rfl⟩ := hallows
    exact moves_create h hname rfl fail
  | trying left =>
    obtain rfl := hallows
    exact moves_existing h rfl fail
  | failing =>
    obtain rfl := hallows
    rw [after_fstatat]
    exact h.stays
  | opened left f =>
    obtain rfl | ⟨block, rfl⟩ | rfl := hallows
    · rw [after_fstat]
      exact h.stays
    · exact moves_flock h block fail
    · exact h.moves_close .failing (nofun) rfl (nofun)
        (nofun) fail
  | locked left f =>
    obtain rfl | rfl := hallows
    · exact moves_look h fail
    · exact h.moves_close (.idle left) (fun hf ↦ (Option.some.inj hf).symm) rfl
        (nofun)
        (fun hn ↦ hn) fail
  | looked left f named =>
    obtain rfl := hallows
    exact moves_compare h fail
  | sure left f =>
    obtain rfl | ⟨mode, rfl⟩ | ⟨uid, gid, rfl⟩ | ⟨hname, rfl⟩ | rfl := hallows
    · rw [after_fstat]
      exact h.stays
    · exact moves_modify h (fun x ↦ { x with mode := mode }) rfl (fun _ ↦ rfl) (fun _ ↦ rfl) fail
    · exact moves_modify h (fun x ↦ { x with uid := uid, gid := gid.getD x.gid }) rfl
        (fun _ ↦ rfl) (fun _ ↦ rfl) fail
    · exact moves_unlink h hname fail
    · exact h.moves_close .closed (fun hf ↦ (Option.some.inj hf).symm) rfl (nofun)
        (nofun) fail
  | beaten f =>
    obtain rfl := hallows
    exact h.moves_close .lost (nofun) rfl (fun _ ↦ rfl) (nofun) fail
  | lost => exact hallows.elim
  | closed => exact hallows.elim

end Moves

/-! ### The invariant of the pool -/

/-- A call that returned `None`, or will. -/
def Beaten (s : Shared) (φ : Nat → Option (Caller × Phase)) (i : Nat) : Prop :=
  (∃ k ph, φ i = some (k, ph) ∧ ph.beat = true) ∨ s.outcome i = some .contended

/-- A call that may still get the lock, or that did not return `None`. -/
def Unbeaten (s : Shared) (φ : Nat → Option (Caller × Phase)) (i : Nat) : Prop :=
  (∃ k ph, φ i = some (k, ph) ∧ ph.beat = false) ∨ ∃ r, s.outcome i = some r ∧ r ≠ .contended

/-- The invariant: each phase fits the file system, each lock is that of a task's file, and among
the calls from `b` on one is unbeaten if one is beaten. -/
structure Inv (dir : Nat) (name : Name) (passes b : Nat) (s : Shared)
    (φ : Nat → Option (Caller × Phase)) : Prop where
  fits : ∀ {i k ph}, φ i = some (k, ph) → ph.Fits dir name i s.fs
  named : ∀ {f}, s.fs.lookup dir name = some f → f < s.fs.next
  own : ∀ {f i}, s.fs.lock f = some i → ∃ k ph, φ i = some (k, ph) ∧ ph.holds = some f
  left : ∀ {i k ph n}, φ i = some (k, ph) → ph.left = some n → passes ≤ n + s.clock
  spent : ∀ {i}, s.outcome i = some (.failed .exhausted) → passes ≤ s.clock
  since : ∀ {i x}, φ i = some x → b ≤ i
  running : ∀ {i x}, φ i = some x → s.outcome i = none
  fair : ∀ {i}, b ≤ i → Beaten s φ i → ∃ j, b ≤ j ∧ Unbeaten s φ j

section Inv

variable {dir : Nat} {name : Name} {passes b i : Nat} {s : Shared}
  {φ : Nat → Option (Caller × Phase)} {k : Caller} {ph : Phase}

theorem Inv.sound (h : Inv dir name passes b s φ) (hi : φ i = some (k, ph)) :
    ph.Sound dir name i s.fs := by
  refine ⟨h.fits hi, h.named, fun hlock ↦ ?_⟩
  obtain ⟨k', ph', hφ, hholds⟩ := h.own hlock
  obtain ⟨rfl, rfl⟩ := Prod.mk.inj (Option.mem_unique hφ hi)
  exact hholds

/-- A task other than `i` that is unbeaten stays so whatever becomes of `i`. -/
theorem unbeaten_of_ne {s' : Shared} {x : Option (Caller × Phase)} {j : Nat} (hne : j ≠ i)
    (houtcome : s'.outcome j = s.outcome j) (h : Unbeaten s φ j) :
    Unbeaten s' (update φ i x) j := by
  rcases h with ⟨k, ph, hφ, hbeat⟩ | ⟨r, hr, hne'⟩
  · exact .inl ⟨k, ph, by rwa [update_of_ne hne], hbeat⟩
  · exact .inr ⟨r, houtcome.trans hr, hne'⟩

/-- The one that is unbeaten is not one that is beaten. -/
theorem Inv.ne_of_unbeaten (h : Inv dir name passes b s φ) (hi : φ i = some (k, ph))
    (hbeat : ph.beat = true) {j : Nat} (hj : Unbeaten s φ j) : j ≠ i := by
  rintro rfl
  rcases hj with ⟨k', ph', hφ, hbeat'⟩ | ⟨r, hr, -⟩
  · obtain ⟨rfl, rfl⟩ := Prod.mk.inj (Option.mem_unique hφ hi)
    cases hbeat.symm.trans hbeat'
  · cases hr.symm.trans (h.running hi)

theorem beat_of_holds {f : Nat} (h : ph.holds = some f) : ph.beat = false := by
  cases ph with
  | beaten file => cases h
  | lost => cases h
  | _ => rfl

theorem Inv.spawn (h : Inv dir name passes b s φ) {fresh : Nat} (hb : b ≤ fresh)
    (houtcome : s.outcome fresh = none) (hφ : φ fresh = none) :
    Inv dir name passes b s (update φ fresh (some (k, .idle passes))) := by
  constructor
  case fits =>
    intro i k' ph' hi
    rcases of_update_some hi with ⟨-, heq⟩ | ⟨-, hold⟩
    · cases heq
      exact ⟨nofun, nofun, nofun⟩
    · exact h.fits hold
  case named => exact h.named
  case own =>
    intro f i hlock
    obtain ⟨k', ph', hi, hholds⟩ := h.own hlock
    have hne : i ≠ fresh := by
      rintro rfl
      cases hφ.symm.trans hi
    exact ⟨k', ph', by rwa [update_of_ne hne], hholds⟩
  case left =>
    intro i k' ph' n hi hn
    rcases of_update_some hi with ⟨-, heq⟩ | ⟨-, hold⟩
    · cases heq
      cases hn
      exact Nat.le_add_right _ _
    · exact h.left hold hn
  case spent => exact h.spent
  case since =>
    intro i x hi
    rcases of_update_some hi with ⟨rfl, -⟩ | ⟨-, hold⟩
    · exact hb
    · exact h.since hold
  case running =>
    intro i x hi
    rcases of_update_some hi with ⟨rfl, -⟩ | ⟨-, hold⟩
    · exact houtcome
    · exact h.running hold
  case fair => exact fun _ _ ↦ ⟨fresh, hb, .inl ⟨k, .idle passes, by simp, rfl⟩⟩

theorem Inv.advance (h : Inv dir name passes b s φ) (hi : φ i = some (k, ph)) {o : Call}
    (hallows : ph.allows dir name o) (euid : Nat) (fail : Bool) :
    Inv dir name passes b { s with fs := s.fs.after euid i o fail, clock := s.clock + 1 }
      (update φ i (some (k, ph.after o (s.fs.answer euid i o fail)))) := by
  have hmoves : Moves dir name i s.fs (s.fs.after euid i o fail) ph
      (ph.after o (s.fs.answer euid i o fail)) := (h.sound hi).moves_call hallows fail
  constructor
  case fits =>
    intro j k' ph' hj
    rcases of_update_some hj with ⟨rfl, heq⟩ | ⟨hne, hold⟩
    · cases heq
      exact hmoves.sound.toFits
    · exact (h.fits hold).of_shift hmoves.shift hne
  case named => exact hmoves.sound.named
  case own =>
    intro f j hlock
    rcases eq_or_ne j i with rfl | hne
    · exact ⟨k, _, by simp, hmoves.sound.own hlock⟩
    · obtain ⟨k', ph', hj, hholds⟩ := h.own ((hmoves.shift.lock hne).1 hlock)
      exact ⟨k', ph', by rwa [update_of_ne hne], hholds⟩
  case left =>
    intro j k' ph' n hj hn
    show passes ≤ n + (s.clock + 1)
    rcases of_update_some hj with ⟨rfl, heq⟩ | ⟨-, hold⟩
    · cases heq
      obtain ⟨m, hm, hle⟩ := hmoves.left hn
      have hpasses := h.left hi hm
      omega
    · have hpasses := h.left hold hn
      omega
  case spent => exact fun hr ↦ Nat.le_succ_of_le (h.spent hr)
  case since =>
    intro j x hj
    rcases of_update_some hj with ⟨rfl, -⟩ | ⟨-, hold⟩
    · exact h.since hi
    · exact h.since hold
  case running =>
    intro j x hj
    rcases of_update_some hj with ⟨rfl, -⟩ | ⟨-, hold⟩
    · exact h.running hi
    · exact h.running hold
  case fair =>
    intro _ _ _
    rcases hbeat : (ph.after o (s.fs.answer euid i o fail)).beat with - | -
    · exact ⟨i, h.since hi, .inl ⟨k, _, by simp, hbeat⟩⟩
    · rcases hmoves.beat hbeat with hold | ⟨f, w, hne, hlock⟩
      · obtain ⟨j, hbj, hj⟩ := h.fair (h.since hi) (.inl ⟨k, ph, hi, hold⟩)
        exact ⟨j, hbj, unbeaten_of_ne (h.ne_of_unbeaten hi hold hj) rfl hj⟩
      · -- whoever holds the lock is running and not beaten
        obtain ⟨k', ph', hw, hholds⟩ := h.own hlock
        exact ⟨w, h.since hw, unbeaten_of_ne hne rfl (.inl ⟨k', ph', hw, beat_of_holds hholds⟩)⟩

/-- A task that ends, with its files closed. -/
theorem Inv.ends (h : Inv dir name passes b s φ) (hi : φ i = some (k, ph)) {fs' : Fs}
    (hshift : Shift dir name i s.fs fs')
    (hnamed : ∀ {f}, fs'.lookup dir name = some f → f < fs'.next)
    (hclosed : ∀ {f}, fs'.lock f ≠ some i) (r : Outcome)
    (hspent : r = .failed .exhausted → passes ≤ s.clock)
    (hbeat : r = .contended → ph.beat = true) :
    Inv dir name passes b { s with fs := fs', outcome := update s.outcome i (some r) }
      (update φ i none) := by
  constructor
  case fits =>
    intro j k' ph' hj
    obtain ⟨hne, hold⟩ := of_update_none hj
    exact (h.fits hold).of_shift hshift hne
  case named => exact hnamed
  case own =>
    intro f j hlock
    have hne : j ≠ i := by
      rintro rfl
      exact hclosed hlock
    obtain ⟨k', ph', hj, hholds⟩ := h.own ((hshift.lock hne).1 hlock)
    exact ⟨k', ph', by rwa [update_of_ne hne], hholds⟩
  case left =>
    intro j k' ph' n hj hn
    exact h.left (of_update_none hj).2 hn
  case spent =>
    intro j hj
    rcases eq_or_ne j i with rfl | hne
    · exact hspent (by simpa using hj)
    · exact h.spent (by simpa [hne] using hj)
  case since => exact fun hj ↦ h.since (of_update_none hj).2
  case running =>
    intro j x hj
    obtain ⟨hne, hold⟩ := of_update_none hj
    simpa [hne] using h.running hold
  case fair =>
    intro _ _ _
    by_cases hr : r = .contended
    · have hbeat := hbeat hr
      obtain ⟨j, hbj, hj⟩ := h.fair (h.since hi) (.inl ⟨k, ph, hi, hbeat⟩)
      have hne := h.ne_of_unbeaten hi hbeat hj
      exact ⟨j, hbj, unbeaten_of_ne hne (by simp [hne]) hj⟩
    · exact ⟨i, h.since hi, .inr ⟨r, by simp, hr⟩⟩

theorem Inv.finish (h : Inv dir name passes b s φ) (hi : φ i = some (k, ph)) {r : Outcome}
    (hleaves : ph.leaves r) :
    Inv dir name passes b { s with outcome := update s.outcome i (some r) }
      (update φ i none) := by
  have hsound := h.sound hi
  have hholds : ph.holds = none := by
    cases ph with
    | locked left f => exact hleaves.elim
    | looked left f named => exact hleaves.elim
    | sure left f => exact hleaves.elim
    | _ => rfl
  refine h.ends hi (Shift.refl dir name i s.fs) hsound.named ?_ r ?_ ?_
  · exact fun hlock ↦ nomatch hholds.symm.trans (hsound.own hlock)
  · rintro rfl
    cases ph with
    | idle left =>
      obtain ⟨err, herr, hleft⟩ := hleaves
      obtain rfl := hleft (Outcome.failed.inj herr).symm
      simpa using h.left hi rfl
    | failing =>
      obtain ⟨err, herr, hne⟩ := hleaves
      exact absurd (Outcome.failed.inj herr).symm hne
    | lost => cases hleaves
    | closed =>
      obtain hr | ⟨err, herr, hne⟩ := hleaves
      · cases hr
      · exact absurd (Outcome.failed.inj herr).symm hne
    | _ => exact hleaves.elim
  · rintro rfl
    cases ph with
    | idle left =>
      obtain ⟨err, herr, -⟩ := hleaves
      cases herr
    | failing =>
      obtain ⟨err, herr, -⟩ := hleaves
      cases herr
    | lost => rfl
    | closed =>
      obtain hr | ⟨err, herr, -⟩ := hleaves
      · cases hr
      · cases herr
    | _ => exact hleaves.elim

theorem Inv.crash (h : Inv dir name passes b s φ) (hi : φ i = some (k, ph)) : Inv dir name passes b
      { s with fs := s.fs.closeAll i, outcome := update s.outcome i (some .crashed) }
      (update φ i none) := by
  have hshift : Shift dir name i s.fs (s.fs.closeAll i) := by
    refine ⟨Nat.le_refl _, .inl rfl, fun {f j} hne ↦ ?_⟩
    by_cases hf : s.fs.lock f = some i
    · simp [Fs.closeAll, hf, hne.symm]
    · simp [Fs.closeAll, hf]
  refine h.ends hi hshift h.named ?_ .crashed nofun nofun
  · intro f hlock
    by_cases hf : s.fs.lock f = some i
    · simp [Fs.closeAll, hf] at hlock
    · simp [Fs.closeAll, hf] at hlock

/-- What a step of the pool may assume: the next call has no outcome yet. -/
def Fresh (b : Nat) (p : Pool Call Ans Shared Caller Outcome) : Prop :=
  b ≤ p.fresh ∧ p.shared.outcome p.fresh = none

theorem keeps_contenders (dir : Nat) (name : Name) (euid passes b : Nat) :
    (contenders dir name euid passes).Keeps (openProtocol dir name passes)
      (Inv dir name passes b) (fun p _ ↦ Fresh b p) where
  follows := obeys_acquire
  spawn _ hJ _ hfresh hφ := hJ.spawn hfresh.1 hfresh.2 hφ
  advance _ hJ _ _ hi hallows _ _ _ := hJ.advance hi hallows euid _
  finish _ hJ _ _ hi hleaves := hJ.finish hi hleaves
  drop _ hJ _ _ hi _ _ := hJ.crash hi

end Inv

/-! ### Runs -/

section Runs

variable {dir : Nat} {name : Name} {euid passes b : Nat} {p : Pool Call Ans Shared Caller Outcome}

/-- The numbers of the calls from `b` on that are not started yet: no task and no outcome. -/
structure Booked (b : Nat) (p : Pool Call Ans Shared Caller Outcome) : Prop where
  le : b ≤ p.fresh
  unused : ∀ {i}, p.fresh ≤ i → p.tasks i = none ∧ p.shared.outcome i = none

theorem Booked.step (h : Booked b p) (l : Label Bool Caller) :
    Booked b ((contenders dir name euid passes).step p l) := by
  have hlt {i : Nat} {t : Task Call Ans Caller Outcome} (ht : p.tasks i = some t) :
      i < p.fresh := by
    refine Nat.lt_of_not_le fun hle ↦ ?_
    cases (h.unused hle).1.symm.trans ht
  -- a step that ends task `i`
  have hends {i : Nat} {s' : Shared} {r : Outcome} (hi : i < p.fresh)
      (hs : s'.outcome = update p.shared.outcome i (some r)) :
      Booked b ⟨s', update p.tasks i none, p.fresh⟩ := by
    refine ⟨h.le, fun {j} hj ↦ ?_⟩
    have hne : j ≠ i := Nat.ne_of_gt (Nat.lt_of_lt_of_le hi hj)
    simpa [hs, hne] using h.unused hj
  cases l with
  | spawn k =>
    refine ⟨Nat.le_succ_of_le h.le, fun {i} hi ↦ ?_⟩
    have hne : i ≠ p.fresh := Nat.ne_of_gt hi
    simpa [System.step, contenders, System.start, hne] using h.unused (Nat.le_of_lt hi)
  | advance i c =>
    unfold System.step
    dsimp only
    split
    · next k o f ht =>
      split
      · refine ⟨h.le, fun {j} hj ↦ ?_⟩
        have hne : j ≠ i := Nat.ne_of_gt (Nat.lt_of_lt_of_le (hlt ht) hj)
        simpa [contenders, System.start, hne] using h.unused hj
      · exact h
    · exact h
  | finish i =>
    unfold System.step
    dsimp only
    split
    · next k r ht => exact hends (hlt ht) rfl
    · exact h
  | drop i =>
    unfold System.step
    dsimp only
    split
    · next k o f ht =>
      split
      · exact hends (hlt ht) rfl
      · exact h
    · exact h

theorem Booked.exec (h : Booked b p) (ls : List (Label Bool Caller)) :
    Booked b ((contenders dir name euid passes).exec p ls) := by
  induction ls generalizing p with
  | nil => exact h
  | cons l ls ih => exact ih (h.step l)

/-- A step makes at most one system call. -/
theorem clock_step (l : Label Bool Caller) :
    ((contenders dir name euid passes).step p l).shared.clock ≤ p.shared.clock + 1 := by
  cases l with
  | spawn k => exact Nat.le_succ _
  | advance i c =>
    unfold System.step
    dsimp only
    split
    · split
      · exact Nat.le_refl _
      · exact Nat.le_succ _
    · exact Nat.le_succ _
  | finish i =>
    unfold System.step
    dsimp only
    split <;> exact Nat.le_succ _
  | drop i =>
    unfold System.step
    dsimp only
    split
    · split <;> exact Nat.le_succ _
    · exact Nat.le_succ _

theorem clock_exec (ls : List (Label Bool Caller)) :
    ((contenders dir name euid passes).exec p ls).shared.clock ≤ p.shared.clock + ls.length := by
  induction ls generalizing p with
  | nil => exact Nat.le_refl _
  | cons l ls ih =>
    have hstep : ((contenders dir name euid passes).step p l).shared.clock ≤ p.shared.clock + 1 :=
      clock_step l
    have hrest := ih (p := (contenders dir name euid passes).step p l)
    simp only [System.exec_cons, List.length_cons]
    omega

/-- The invariant along a run. -/
theorem holds_exec (h : System.Holds (openProtocol dir name passes) (Inv dir name passes b) p)
    (hbooked : Booked b p) (ls : List (Label Bool Caller)) :
    System.Holds (openProtocol dir name passes) (Inv dir name passes b)
      ((contenders dir name euid passes).exec p ls) := by
  refine System.exec_of_keeps (keeps_contenders dir name euid passes b) h
    (System.along_of_split _ fun before _ _ _ ↦ ?_)
  have hbefore : Booked b ((contenders dir name euid passes).exec p before) := hbooked.exec before
  exact ⟨hbefore.le, (hbefore.unused (Nat.le_refl _)).2⟩

/-- A task with a live `Exclusive` on a file. -/
def Holding (p : Pool Call Ans Shared Caller Outcome) (i file : Nat) : Prop :=
  ∃ k, p.tasks i = some ⟨k, exclusive file⟩

/-- Who holds an `Exclusive` has found the name to denote its file. -/
theorem sure_of_holding {φ : Nat → Option (Caller × Phase)}
    (h : Tracked (openProtocol dir name passes) p φ) {i file : Nat} (hi : Holding p i file) :
    ∃ k left, φ i = some (k, .sure left file) := by
  obtain ⟨k, ht⟩ := hi
  obtain ⟨ph, hφ, hallows, hleaves⟩ := h.here ht
  have hleaves : (ph.after (.close file) (.ok ())).leaves .released := hleaves (.ok ())
  have hallows : ph.allows dir name (.close file) := hallows
  cases ph with
  | sure left f =>
    rcases hallows with h | ⟨_, h⟩ | ⟨_, _, h⟩ | ⟨_, h⟩ | h
    · cases h
    · cases h
    · cases h
    · cases h
    · cases h
      exact ⟨k, left, hφ⟩
  | idle left => cases hallows.2
  | trying left => cases hallows
  | failing => cases hallows
  | opened left f =>
    obtain ⟨err, herr, -⟩ := hleaves
    cases herr
  | locked left f =>
    obtain ⟨err, herr, -⟩ := hleaves
    cases herr
  | looked left f named => cases hallows
  | beaten f => cases hleaves
  | lost => exact hallows.elim
  | closed => exact hallows.elim

/-- The lock file's name denotes the file of whoever holds an `Exclusive`, who holds its lock. -/
theorem holder_facts (h : System.Holds (openProtocol dir name passes) (Inv dir name passes b) p)
    {i file : Nat} (hi : Holding p i file) :
    p.shared.fs.lookup dir name = some file ∧ p.shared.fs.lock file = some i := by
  obtain ⟨φ, htracked, hinv⟩ := h
  obtain ⟨k, left, hφ⟩ := sure_of_holding htracked hi
  exact ⟨(hinv.fits hφ).knows rfl, (hinv.fits hφ).holds rfl⟩

/-- A step taken while somebody holds an `Exclusive` leaves its name alone. -/
theorem lookup_step (h : System.Holds (openProtocol dir name passes) (Inv dir name passes b) p)
    {i file : Nat} (hi : Holding p i file) (l : Label Bool Caller) :
    ((contenders dir name euid passes).step p l).shared.fs.lookup dir name = some file := by
  obtain ⟨hname, hlock⟩ := holder_facts h hi
  obtain ⟨φ, htracked, hinv⟩ := h
  cases l with
  | spawn k => exact hname
  | advance j c =>
    unfold System.step
    dsimp only
    split
    · next k o f ht =>
      split
      · obtain ⟨ph, hφ, hallows, -⟩ := htracked.here ht
        rcases eq_or_ne j i with rfl | hne
        · -- the holder itself can only let go
          obtain ⟨k', hk'⟩ := hi
          have hprog := congrArg Task.prog (Option.mem_unique ht hk')
          obtain ⟨rfl, -⟩ := Prog.call.inj hprog
          show (p.shared.fs.after euid j (.close file) c).lookup dir name = some file
          simp only [Fs.after, Call.fallible, Fs.act, Bool.and_false, Bool.false_eq_true, if_false]
          split <;> exact hname
        · have hmoves : Moves dir name j p.shared.fs (p.shared.fs.after euid j o c) ph
              (ph.after o (p.shared.fs.answer euid j o c)) :=
            (hinv.sound hφ).moves_call hallows c
          rcases hmoves.shift.lookup with hkeep | ⟨hnone, -⟩ | ⟨-, g, hg, hg'⟩
          · exact hkeep.trans hname
          · cases hnone.symm.trans hname
          · obtain rfl := Option.mem_unique hg hname
            exact absurd (Option.mem_unique hg' hlock) hne
      · exact hname
    · exact hname
  | finish j =>
    unfold System.step
    dsimp only
    split <;> exact hname
  | drop j =>
    unfold System.step
    dsimp only
    split
    · split <;> exact hname
    · exact hname

/-- A pool in which no call runs is a beginning: the calls to come can be looked at for
themselves. -/
theorem holds_again (h : System.Holds (openProtocol dir name passes) (Inv dir name passes b) p)
    (hbooked : Booked b p) (hidle : ∀ i, p.live i = false) :
    System.Holds (openProtocol dir name passes) (Inv dir name passes p.fresh) p := by
  obtain ⟨φ, htracked, hinv⟩ := h
  have hnone (i : Nat) (x : Caller × Phase) : φ i ≠ some x := by
    intro hi
    have hlive := (htracked.live_iff i).2 (by rw [hi]; rfl)
    cases (hidle i).symm.trans hlive
  refine ⟨φ, htracked, ?_⟩
  constructor
  case fits => exact fun hi ↦ absurd hi (hnone _ _)
  case named => exact hinv.named
  case own => exact hinv.own
  case left => exact fun hi ↦ absurd hi (hnone _ _)
  case spent => exact hinv.spent
  case since => exact fun hi ↦ absurd hi (hnone _ _)
  case running => exact fun hi ↦ absurd hi (hnone _ _)
  case fair =>
    intro i hi hbeaten
    rcases hbeaten with ⟨k, ph, hφ, -⟩ | houtcome
    · exact absurd hφ (hnone _ _)
    · cases (hbooked.unused hi).2.symm.trans houtcome

/-- Of the calls from `b` on, not all return `None`. -/
theorem not_all_contended
    (h : System.Holds (openProtocol dir name passes) (Inv dir name passes b) p)
    (hbooked : Booked b p) (hsome : b < p.fresh) :
    ∃ i, b ≤ i ∧ i < p.fresh ∧ p.shared.outcome i ≠ some .contended := by
  by_contra hall
  have hall : ∀ i, b ≤ i → i < p.fresh → p.shared.outcome i = some .contended := by
    intro i hb hi
    by_contra hne
    exact hall ⟨i, hb, hi, hne⟩
  obtain ⟨φ, htracked, hinv⟩ := h
  obtain ⟨j, hbj, hj⟩ := hinv.fair (Nat.le_refl b) (.inr (hall b (Nat.le_refl b) hsome))
  rcases hj with ⟨k, ph, hφ, -⟩ | ⟨r, hr, hne⟩
  · obtain ⟨prog, ht, -⟩ := htracked.task hφ
    have houtcome := hall j hbj (htracked.lt_fresh ht)
    cases houtcome.symm.trans (hinv.running hφ)
  · have hlt : j < p.fresh := by
      refine Nat.lt_of_not_le fun hle ↦ ?_
      cases (hbooked.unused hle).2.symm.trans hr
    exact hne (Option.some.inj (hr.symm.trans (hall j hbj hlt)))

end Runs

/-- The pool before the first call. -/
def quiet (s : Fs) : Pool Call Ans Shared Caller Outcome := Pool.idle ⟨s, fun _ ↦ none, 0⟩

/-- **The lock excludes, and never locks everybody out.** For every folder and name, whatever the
name denotes, and for every run of calls of `open_locked` on it, with their failures and crashes
(and with more passes than the run has steps, so that no loop is cut off): at most one `Exclusive`
is alive, and its file is what the name denotes; no step taken meanwhile makes the name denote
anything else; and of the calls that start when no call runs, not all return `None`. -/
theorem lock_excludes (dir : Nat) (name : Name) (euid passes : Nat) (s : Fs)
    (hunlocked : ∀ f, s.lock f = none) (hnamed : ∀ f, s.lookup dir name = some f → f < s.next)
    (before after : List (Label Bool Caller)) (hpasses : before.length + after.length < passes) :
    let S := contenders dir name euid passes
    let p := S.exec (quiet s) before
    let q := S.exec p after
    (∀ i j f g, Holding p i f → Holding p j g → i = j ∧ f = g) ∧
    (∀ i f, Holding p i f → p.shared.fs.lookup dir name = some f) ∧
    (∀ i f l, Holding p i f → (S.step p l).shared.fs.lookup dir name = some f) ∧
    ((∀ i, p.live i = false) → p.fresh < q.fresh →
      ∃ i, p.fresh ≤ i ∧ i < q.fresh ∧ q.shared.outcome i ≠ some .contended) ∧
    ∀ i, q.shared.outcome i ≠ some (.failed .exhausted) := by
  intro S p q
  have hstart : System.Holds (openProtocol dir name passes) (Inv dir name passes 0) (quiet s) := by
    refine ⟨fun _ ↦ none, tracked_idle _, ?_⟩
    constructor
    case fits => exact nofun
    case named => exact fun hf ↦ hnamed _ hf
    case own => exact fun hlock ↦ nomatch (hunlocked _).symm.trans hlock
    case left => exact nofun
    case spent => exact nofun
    case since => exact nofun
    case running => exact nofun
    case fair => exact fun _ hbeaten ↦ by rcases hbeaten with ⟨_, _, h, -⟩ | h <;> cases h
  have hbooked : Booked 0 (quiet s) := ⟨Nat.le_refl _, fun _ ↦ ⟨rfl, rfl⟩⟩
  have hp : System.Holds (openProtocol dir name passes) (Inv dir name passes 0) p :=
    holds_exec hstart hbooked before
  have hq : System.Holds (openProtocol dir name passes) (Inv dir name passes 0) q :=
    holds_exec hp (hbooked.exec before) after
  refine ⟨?_, ?_, ?_, ?_, ?_⟩
  · intro i j f g hi hj
    obtain ⟨hf, hlock⟩ := holder_facts hp hi
    obtain ⟨hg, hlock'⟩ := holder_facts hp hj
    obtain rfl := Option.mem_unique hf hg
    exact ⟨Option.mem_unique hlock hlock', rfl⟩
  · exact fun i f hi ↦ (holder_facts hp hi).1
  · exact fun i f l hi ↦ lookup_step hp hi l
  · intro hidle hsome
    have hbooked' : Booked p.fresh p := ⟨Nat.le_refl _, (hbooked.exec before).unused⟩
    have hfresh := holds_again hp (hbooked.exec before) hidle
    exact not_all_contended (holds_exec hfresh hbooked' after) (hbooked'.exec after) hsome
  · intro i hi
    obtain ⟨φ, -, hinv⟩ := hq
    have hspent := hinv.spent hi
    have hbefore : p.shared.clock ≤ 0 + before.length := clock_exec before
    have hafter : q.shared.clock ≤ p.shared.clock + after.length := clock_exec after
    omega

/-- An empty folder. -/
def emptyFolder : Fs := ⟨fun _ ↦ .folder 0 0o755 0, 1, fun _ ↦ none, 0, 0⟩

/-- Two calls of `try_acquire` on one name, of which the first creates the file and the second
comes between its `flock` and the end. -/
def rivals : List (Label Bool Caller) :=
  [.spawn ⟨none, false, none⟩, .spawn ⟨none, false, none⟩, .advance 0 false, .advance 1 false,
    .advance 1 false, .advance 1 false, .advance 0 false, .advance 1 false, .advance 1 false,
    .finish 1, .advance 0 false, .advance 0 false, .advance 0 false, .advance 0 false]

/-- The pool they leave. -/
def rivalPool : Pool Call Ans Shared Caller Outcome :=
  (contenders 0 [108] 0 15).exec (quiet emptyFolder) rivals

theorem lock_excludes_rivals :
    rivalPool.shared.outcome 1 = some .contended ∧ Holding rivalPool 0 1 ∧
      ∀ i f, Holding rivalPool i f → i = 0 ∧ f = 1 := by
  have hholding : Holding rivalPool 0 1 := ⟨⟨none, false, none⟩, rfl⟩
  have h := lock_excludes 0 [108] 0 15 emptyFolder (fun _ ↦ rfl) nofun rivals [] (by decide)
  exact ⟨rfl, hholding, fun i f hi ↦ h.1 i 0 f 1 hi hholding⟩

end Hole.Files
