import Hole.Files.OwnFile
import Hole.Posix.User

/-!
# A privileged process changes only its own files

The lock open, `append_own_file` and `stage`, each run in a folder whose names a user may change
between any two of its system calls. What a call may do is settled by the calls before it: it may
set the contents, the permissions or the owner of an inode that an earlier call of the same program
*created*, or that an earlier `fstat` of the open handle *judged*: a regular file with one name, of
the expected owner (`Own`). Everything else keeps its data, names change in the one folder only, and
nothing is waited for but the lock of a regular file (`Clean`).
-/

namespace Hole.Files

open Posix Effect
open Fallible (only_pure safe_attempt safe_onError safe_lift Safe)

/-- A call of the program created the inode. -/
def Created (calls : List Event) (i : Nat) : Prop :=
  ∃ b a d n flags mode, flags.create = true ∧
    (⟨b, .openat d n flags mode, .ok i, a⟩ : Event) ∈ calls

/-- A call of the program looked at the open inode and found a regular file with one name that
belongs to the expected owner; with none expected, `anyone`'s will do or no file will. -/
def Judged (anyone : Bool) (owner : Option (Nat × Nat)) (calls : List Event) (i : Nat) : Prop :=
  ∃ b a st, (⟨b, .fstat i, .ok st, a⟩ : Event) ∈ calls ∧ (b.node i).kind = .file ∧
    (b.node i).links = 1 ∧ owner.elim (anyone = true) fun o ↦ (b.node i).uid = o.1

/-- The inodes that are the program's to change. -/
def Own (anyone : Bool) (owner : Option (Nat × Nat)) (calls : List Event) (i : Nat) : Prop :=
  Created calls i ∨ Judged anyone owner calls i

/-- A call that changes nothing but what is the program's: every other inode keeps its data, names
change in the one folder only, a FIFO or a link is not waited for, and no link is followed. -/
structure Clean (dir : Nat) (own : Nat → Prop) (e : Event) : Prop where
  data : ∀ i < e.before.next, ¬ own i → (e.after.node i).data = (e.before.node i).data
  names : ∀ d < e.before.next, d ≠ dir → ∀ n, e.after.lookup d n = e.before.lookup d n
  waits : ∀ i, e.before.waitsFor 0 e.call = some i → (e.before.node i).kind = .file
  follows : e.before.follows e.call = false

/-- Every call is clean, with what the calls before it made the program's. -/
def Careful (dir : Nat) (anyone : Bool) (owner : Option (Nat × Nat)) (calls : List Event) : Prop :=
  ∀ newer e older, calls = newer ++ e :: older → Clean dir (Own anyone owner older) e

section Careful

variable {dir : Nat} {anyone : Bool} {owner : Option (Nat × Nat)} {calls : List Event} {i : Nat}

theorem careful_nil : Careful dir anyone owner [] := by
  intro newer e older h
  simp at h

theorem Careful.cons {e : Event} (h : Careful dir anyone owner calls)
    (he : Clean dir (Own anyone owner calls) e) : Careful dir anyone owner (e :: calls) := by
  intro newer e' older heq
  cases newer with
  | nil =>
    obtain ⟨rfl, rfl⟩ := List.cons.inj heq
    exact he
  | cons e'' newer => exact h newer e' older (List.cons.inj heq).2

theorem Created.cons (h : Created calls i) (e : Event) : Created (e :: calls) i := by
  obtain ⟨b, a, d, n, flags, mode, hcreate, hmem⟩ := h
  exact ⟨b, a, d, n, flags, mode, hcreate, List.mem_cons_of_mem e hmem⟩

theorem Own.cons (h : Own anyone owner calls i) (e : Event) : Own anyone owner (e :: calls) i := by
  rcases h with h | ⟨b, a, st, hmem, hjudged⟩
  · exact .inl (h.cons e)
  · exact .inr ⟨b, a, st, List.mem_cons_of_mem e hmem, hjudged⟩

end Careful

/-- What a call may do, given what is the program's. -/
structure Permitted (dir : Nat) (own : Nat → Prop) (s : Fs) (o : Call) : Prop where
  target : ∀ i, o.target = some i → own i
  folder : ∀ d, o.folder = some d → d = dir
  waits : ∀ i, s.waitsFor 0 o = some i → (s.node i).kind = .file
  follows : s.follows o = false

variable {own : Nat → Prop}

theorem Permitted.clean {dir me : Nat} {s : Fs} {o : Call} (h : Permitted dir own s o)
    (fail : Bool) :
    Clean dir own ⟨s, o, s.answer me 0 o fail, s.after me 0 o fail⟩ where
  data i hi hown := (change_after me 0 s o fail).data hi fun ht ↦ hown (h.target i ht)
  names _ hd hne _ := (change_after me 0 s o fail).lookup hd fun hf ↦ hne (h.folder _ hf)
  waits := h.waits
  follows := h.follows

/-- Calls that only look. -/
theorem permitted_of_look {dir : Nat} {s : Fs} {o : Call} (htarget : o.target = none)
    (hfolder : o.folder = none) (hwaits : s.waitsFor 0 o = none) (hfollows : s.follows o = false) :
    Permitted dir own s o where
  target _ hi := nomatch htarget.symm.trans hi
  folder _ hd := nomatch hfolder.symm.trans hd
  waits _ hi := nomatch hwaits.symm.trans hi
  follows := hfollows

/-- The opens of `open_file` in the program's folder: none follows a link, and none waits for a
FIFO. -/
theorem permitted_open {dir : Nat} {s : Fs} {name : Name} (how : OpenFile) :
    Permitted dir own s (.openat dir name how.flags.1 how.flags.2) where
  target := nofun
  folder d hd := by
    simp only [Call.folder] at hd
    split at hd
    · exact (Option.some.inj hd).symm
    · cases hd
  waits i hi := by
    simp only [Fs.waitsFor] at hi
    split at hi
    · cases how <;> simp [OpenFile.flags] at hi
    · cases hi
  follows := by cases how <;> simp [Fs.follows, OpenFile.flags]

/-! ### Rules -/

section Rules

variable {u me dir : Nat} {name : Name} {anyone : Bool} {owner : Option (Nat × Nat)} {w : World}
  {α : Type} {E : Error → World → Prop}

/-- What holds at every point of a careful program. -/
structure Going (dir : Nat) (anyone : Bool) (owner : Option (Nat × Nat)) (w : World) : Prop where
  careful : Careful dir anyone owner w.trace
  wf : w.fs.Wf
  dir_lt : dir < w.fs.next
  dir_kind : (w.fs.node dir).kind = .directory

theorem Going.met (h : Going dir anyone owner w) (moves : List Move) :
    (w.met u moves).Wf ∧ dir < (w.met u moves).next ∧
      ((w.met u moves).node dir).kind = .directory := by
  have hkeeps := keeps_met u w moves
  exact ⟨h.wf.movedAll _, Nat.lt_of_lt_of_le h.dir_lt hkeeps.next,
    (hkeeps.kind h.dir_lt).trans h.dir_kind⟩

variable {o : Call}

theorem Going.next (h : Going dir anyone owner w)
    (hpermitted : ∀ moves, Permitted dir (Own anyone owner w.trace) (w.met u moves) o)
    (c : List Move × Bool) : Going dir anyone owner ((among u me).next w o c) := by
  obtain ⟨hwf, hlt, hkind⟩ := h.met (u := u) c.1
  have hchange := change_after me 0 (w.met u c.1) o c.2
  refine ⟨h.careful.cons ((hpermitted c.1).clean c.2), hwf.change hchange fun d hd ↦ ?_,
    Nat.lt_of_lt_of_le hlt hchange.kind.next, (hchange.kind.node hlt).trans hkind⟩
  obtain rfl := (hpermitted c.1).folder d hd
  exact ⟨hlt, hkind⟩

theorem safe_sys {Q : Val o → World → Prop} (h : Going dir anyone owner w)
    (hpermitted : ∀ moves, Permitted dir (Own anyone owner w.trace) (w.met u moves) o)
    (hok : ∀ c v, (w.met u c.1).answer me 0 o c.2 = .ok v → Q v ((among u me).next w o c))
    (herror : ∀ c kind, (w.met u c.1).answer me 0 o c.2 = .error kind →
      E (.io kind) ((among u me).next w o c)) :
    Safe (among u me) (Going dir anyone owner) E Q (sys o) w := by
  refine ⟨h, fun c ↦ ⟨h.next hpermitted c, ?_⟩⟩
  show Fallible.post E Q (((w.met u c.1).answer me 0 o c.2).mapError Error.io) _
  rcases hanswer : (w.met u c.1).answer me 0 o c.2 with kind | v
  · exact herror c kind hanswer
  · exact hok c v hanswer

/-- A call of which only the outcome matters to what follows. -/
theorem safe_sys_of {Q : Val o → World → Prop} (h : Going dir anyone owner w)
    (hpermitted : ∀ moves, Permitted dir (Own anyone owner w.trace) (w.met u moves) o)
    (hok : ∀ c v, Q v ((among u me).next w o c))
    (herror : ∀ c kind, E (.io kind) ((among u me).next w o c)) :
    Safe (among u me) (Going dir anyone owner) E Q (sys o) w :=
  safe_sys h hpermitted (fun c v _ ↦ hok c v) fun c kind _ ↦ herror c kind

variable {file : Nat}

theorem safe_close {Q : Unit → World → Prop} (h : Going dir anyone owner w)
    (hQ : ∀ c, Q () ((among u me).next w (.close file) c)) :
    (close file).Safe (among u me) (Going dir anyone owner) Q w :=
  ⟨h, fun c ↦ ⟨h.next (fun _ ↦ permitted_of_look rfl rfl rfl rfl) c, hQ c⟩⟩

theorem safe_singleComponent {Q : Unit → World → Prop} (h : Going dir anyone owner w)
    (hok : ordinary name = true → Q () w) (herror : E .invalidInput w) :
    Safe (among u me) (Going dir anyone owner) E Q (singleComponent name) w := by
  unfold singleComponent
  split
  · next hname => exact ⟨h, hok hname⟩
  · exact ⟨h, herror⟩

/-- An inode of a known kind and owner. -/
def Is (i : Nat) (x : Kind × Nat) (w : World) : Prop := i < w.fs.next ∧ (w.fs.node i).identity = x

/-- What goes on holding: the kind and owner of an inode, and whose it is to change. -/
structure Onward (anyone : Bool) (owner : Option (Nat × Nat)) (w w' : World) : Prop where
  is : ∀ {i x}, Is i x w → Is i x w'
  created : ∀ {i}, Created w.trace i → Created w'.trace i
  own : ∀ {i}, Own anyone owner w.trace i → Own anyone owner w'.trace i

theorem Onward.refl (w : World) : Onward anyone owner w w := ⟨id, id, id⟩

theorem Onward.trans {w' w'' : World} (h : Onward anyone owner w w')
    (h' : Onward anyone owner w' w'') : Onward anyone owner w w'' :=
  ⟨fun hi ↦ h'.is (h.is hi), fun hi ↦ h'.created (h.created hi), fun hi ↦ h'.own (h.own hi)⟩

variable {x : Kind × Nat}

theorem Is.met {i : Nat} (h : Is i x w) (moves : List Move) :
    i < (w.met u moves).next ∧ ((w.met u moves).node i).identity = x :=
  ⟨Nat.lt_of_lt_of_le h.1 (keeps_met u w moves).next, ((keeps_met u w moves).node h.1).trans h.2⟩

theorem Is.next {i : Nat} (h : Is i x w) (htarget : o.target ≠ some i) (c : List Move × Bool) :
    Is i x ((among u me).next w o c) := by
  obtain ⟨hlt, hx⟩ := h.met (u := u) c.1
  have hchange := change_after me 0 (w.met u c.1) o c.2
  have hdata := hchange.data hlt htarget
  exact ⟨Nat.lt_of_lt_of_le hlt hchange.kind.next, (congrArg (fun d ↦ (d.1, d.2.1)) hdata).trans hx⟩

theorem onward_next (htarget : o.target = none) (c : List Move × Bool) :
    Onward anyone owner w ((among u me).next w o c) :=
  ⟨fun hi ↦ hi.next (by rw [htarget]; exact nofun) c, fun hi ↦ hi.cons _, fun hi ↦ hi.cons _⟩

/-- Calls that are permitted whatever the program has done so far. -/
def Harmless (dir : Nat) (o : Call) : Prop := o.target = none ∧ ∀ own s, Permitted dir own s o

/-- **Programs of harmless calls.** -/
theorem safe_harmless {p : Io α} (hp : Fallible.Only (Harmless dir) p)
    (h : Going dir anyone owner w) :
    Safe (among u me) (Going dir anyone owner) (fun _ w' ↦ Onward anyone owner w w')
      (fun _ w' ↦ Onward anyone owner w w') p w :=
  hp.safe h Onward.refl Onward.trans fun _ _ c ho hw ↦
    ⟨hw.next (fun _ ↦ ho.2 _ _) c, onward_next ho.1 c⟩

theorem harmless_fstat (file : Nat) : Harmless dir (.fstat file) :=
  ⟨rfl, fun _ _ ↦ permitted_of_look rfl rfl rfl rfl⟩

theorem harmless_fstatat (d : Nat) (n : Name) : Harmless dir (.fstatat d n) :=
  ⟨rfl, fun _ _ ↦ permitted_of_look rfl rfl rfl rfl⟩

theorem harmless_close (file : Nat) : Harmless dir (.close file) :=
  ⟨rfl, fun _ _ ↦ permitted_of_look rfl rfl rfl rfl⟩

theorem harmless_unlinkat (n : Name) : Harmless dir (.unlinkat dir n) :=
  ⟨rfl, fun _ _ ↦ ⟨nofun, fun _ hd ↦ (Option.some.inj hd).symm, nofun, rfl⟩⟩

theorem only_sys {P : Call → Prop} (h : P o) : Fallible.Only P (sys o) :=
  ⟨h, fun _ ↦ trivial⟩

theorem only_singleComponent {P : Call → Prop} : Fallible.Only P (singleComponent name) := by
  unfold singleComponent
  split
  · exact trivial
  · exact trivial

theorem only_kindOf : Fallible.Only (Harmless dir) (kindOf dir name) := by
  refine only_singleComponent.bind fun _ ↦ (only_sys (harmless_fstatat dir name)).attempt.bind ?_
  rintro (err | st)
  · dsimp only
    split
    · exact trivial
    · exact trivial
  · exact trivial

theorem only_idOf : Fallible.Only (Harmless dir) (idOf dir name) := by
  refine only_singleComponent.bind fun _ ↦ (only_sys (harmless_fstatat dir name)).attempt.bind ?_
  rintro (err | st)
  · dsimp only
    split
    · exact trivial
    · exact trivial
  · exact trivial

theorem only_names (file : Nat) : Fallible.Only (Harmless dir) (names dir name file) :=
  only_idOf.bind fun _ ↦ ((only_sys (harmless_fstat file)).bind fun _ ↦ only_pure _).bind
    fun _ ↦ only_pure _

theorem only_unlink : Fallible.Only (Harmless dir) (unlink dir name) :=
  only_singleComponent.bind fun _ ↦ only_sys (harmless_unlinkat name)

theorem only_ofUnopenable : Fallible.Only (Harmless dir) (ofUnopenable dir name) := by
  refine only_kindOf.attempt.bind ?_
  rintro (err | - | kind)
  · exact trivial
  · exact trivial
  · cases kind <;> exact trivial

/-- An open that failed ends in an error. -/
theorem safe_failedOpen {Q : α → World → Prop} (err : Error) (h : Going dir anyone owner w) :
    Safe (among u me) (Going dir anyone owner) (fun _ _ ↦ True) Q
      (failedOpen dir name err : Io α) w := by
  refine ((safe_harmless only_ofUnopenable h).imp (fun _ _ _ _ ↦ trivial)
    fun _ _ _ hon ↦ hon).bind fun why w' h' _ ↦ ?_
  rcases why with - | why
  · exact ⟨h', trivial⟩
  · exact ⟨h', trivial⟩

theorem only_unlinkIfThere : Fallible.Only (Harmless dir) (unlinkIfThere dir name) := by
  refine only_unlink.attempt.bind fun r ↦ ?_
  rcases r with err | -
  · dsimp only
    split
    · exact trivial
    · exact trivial
  · exact trivial

/-! ### The lock open -/

/-- What an open of a name leaves: a new file of this process, or something that is there. -/
def OpensTo (me : Nat) (how : OpenFile) (file : Nat) (w : World) : Prop :=
  if how.flags.1.create then Created w.trace file ∧ Is file (.file, me) w else ∃ x, Is file x w

theorem mem_next {c : List Move × Bool} {v : Val o} (h : (w.met u c.1).answer me 0 o c.2 = .ok v) :
    (⟨w.met u c.1, o, .ok v, (w.met u c.1).after me 0 o c.2⟩ : Event) ∈
      ((among u me).next w o c).trace := by
  rw [← h]
  exact .head _

theorem safe_openFile (how : OpenFile) (hhow : how ≠ .read) (h : Going dir anyone owner w) :
    Safe (among u me) (Going dir anyone owner) (fun _ w' ↦ Onward anyone owner w w')
      (fun file w' ↦ Onward anyone owner w w' ∧ OpensTo me how file w')
      (openFile dir name how) w := by
  refine (safe_singleComponent h (fun hname ↦ ⟨rfl, hname⟩) (.refl w)).bind
    (R := fun _ w' ↦ w' = w ∧ ordinary name = true) ?_
  rintro - w' h' ⟨rfl, hname⟩
  refine Safe.bind (p := sys (.openat dir name how.flags.1 how.flags.2))
    (R := fun (file : Nat) w'' ↦ Onward anyone owner w' w'' ∧ OpensTo me how file w'')
    (safe_sys h (fun _ ↦ permitted_open how) (fun c (file : Nat) hanswer ↦ ⟨onward_next rfl c, ?_⟩)
      fun c _ _ ↦ onward_next rfl c) fun file w'' h'' hpost ↦ ?_
  · obtain ⟨hwf, hlt, hdir⟩ := h.met (u := u) c.1
    unfold OpensTo
    split
    · next hcreate =>
      obtain ⟨-, rfl, hafter⟩ := created_of_answer hcreate hanswer
      refine ⟨⟨_, _, _, _, _, _, hcreate, mem_next hanswer⟩, ?_⟩
      show _ < ((w'.met u c.1).after me 0 _ c.2).next ∧
        (((w'.met u c.1).after me 0 _ c.2).node _).identity = _
      rw [hafter]
      refine ⟨Nat.lt_succ_self _, ?_⟩
      rw [Fs.make, Fs.enter, node_modify_of_ne _ (Nat.ne_of_gt hlt)]
      simp [Node.identity, Node.fresh]
    · next hcreate =>
      obtain ⟨hlookup, -, hafter⟩ := opened_of_answer (Bool.eq_false_iff.2 hcreate) hanswer
      refine ⟨_, ?_, rfl⟩
      show file < ((w'.met u c.1).after me 0 _ c.2).next
      rw [hafter]
      exact hwf.lookup_ordinary hname hlookup
  · rw [if_neg hhow]
    exact ⟨h'', hpost⟩

/-- Whose file may be taken for one's own. -/
def Suits (anyone : Bool) (owner : Option (Nat × Nat)) (uid : Nat) : Prop :=
  owner.elim (anyone = true) fun o ↦ uid = o.1

/-- What the facts of an open inode say: with one name, a regular file of a suitable owner is the
program's. -/
def Sees (anyone : Bool) (owner : Option (Nat × Nat)) (x : Kind × Nat) (file : Nat) (facts : Facts)
    (w : World) : Prop :=
  facts.regular = decide (x.1 = .file) ∧ facts.uid = x.2 ∧
    (x.1 = .file → facts.links = 1 → Suits anyone owner x.2 → Own anyone owner w.trace file)

theorem safe_factsOf (h : Going dir anyone owner w) (hx : Is file x w) :
    Safe (among u me) (Going dir anyone owner) (fun _ w' ↦ Onward anyone owner w w')
      (fun facts w' ↦ Onward anyone owner w w' ∧ Sees anyone owner x file facts w')
      (factsOf file) w := by
  refine Safe.bind (p := sys (.fstat file))
    (R := fun (st : Meta) w' ↦ Onward anyone owner w w' ∧
      Sees anyone owner x file ⟨st.kind = .file, st.uid, st.links⟩ w')
    (safe_sys h (fun _ ↦ (harmless_fstat file).2 _ _) (fun c (st : Meta) hanswer ↦ ?_)
      fun c _ _ ↦ onward_next rfl c) fun st w' h' hpost ↦ ⟨h', hpost⟩
  obtain ⟨-, hid⟩ := hx.met (u := u) c.1
  obtain ⟨rfl, -⟩ := stat_of_answer hanswer
  obtain rfl := hid
  refine ⟨onward_next rfl c, rfl, rfl, fun hkind hlinks hsuits ↦ .inr ?_⟩
  exact ⟨_, _, _, mem_next hanswer, hkind, hlinks, hsuits⟩

/-- What is known of a file opened at the lock name. -/
def Ready (me : Nat) (opened : Opened) (w : World) : Prop :=
  (∃ x, Is opened.file x w) ∧
    (opened.created = true → Created w.trace opened.file ∧ Is opened.file (.file, me) w)

theorem ready_of_existing (h : OpensTo me .existing file w) :
    Ready me ⟨file, false⟩ w := ⟨h, nofun⟩

theorem ready_of_created {file mode : Nat} (h : OpensTo me (.createNew mode) file w) :
    Ready me ⟨file, true⟩ w := ⟨⟨_, h.2⟩, fun _ ↦ h⟩

theorem safe_openName (h : Going dir anyone owner w) :
    Safe (among u me) (Going dir anyone owner) (fun _ _ ↦ True)
      (fun r w' ↦ ∀ opened, r = some opened → Ready me opened w') (openName dir name) w := by
  -- how an open ended, and what is known if it succeeded
  have hattempt (how : OpenFile) (hhow : how ≠ .read) {w' : World}
      (h' : Going dir anyone owner w') :
      Safe (among u me) (Going dir anyone owner) (fun (_ : Error) _ ↦ True)
        (fun r w'' ↦ ∀ file, r = .ok file → OpensTo me how file w'')
        (Fallible.attempt (openFile dir name how)) w' := by
    refine safe_attempt ((safe_openFile how hhow h').imp ?_ ?_)
    · exact fun _ _ _ _ _ hr ↦ nomatch hr
    · rintro file w'' - ⟨-, hopens⟩ _ ⟨rfl⟩
      exact hopens
  refine (hattempt (.createNew 0o600) nofun h).bind ?_
  rintro (err | file) w' h' hopens
  · dsimp only
    split
    · refine (hattempt .existing nofun h').bind ?_
      rintro (err' | file) w'' h'' hopens'
      · dsimp only
        split
        · exact ⟨h'', nofun⟩
        · exact safe_failedOpen err' h''
      · refine ⟨h'', ?_⟩
        rintro _ ⟨rfl⟩
        exact ready_of_existing (hopens' file rfl)
    · exact safe_failedOpen err h'
  · refine ⟨h', ?_⟩
    rintro _ ⟨rfl⟩
    exact ready_of_created (hopens file rfl)

variable {opened : Opened}

theorem safe_lockable (h : Going dir anyone owner w) (hready : Ready me opened w) :
    Safe (among u me) (Going dir anyone owner) (fun _ _ ↦ True)
      (fun r w' ↦ Onward anyone owner w w' ∧ (r = true → ∃ uid, Is opened.file (.file, uid) w'))
      (lockable opened) w := by
  unfold lockable
  split
  · next hcreated => exact ⟨h, .refl w, fun _ ↦ ⟨me, (hready.2 hcreated).2⟩⟩
  · obtain ⟨⟨kind, uid⟩, hx⟩ := hready.1
    refine ((safe_factsOf h hx).imp (fun _ _ _ _ ↦ trivial) fun _ _ _ hpost ↦ hpost).bind ?_
    rintro facts w' h' ⟨hon, hregular, -⟩
    refine ⟨h', hon, fun hr ↦ ⟨uid, ?_⟩⟩
    have hkind : kind = .file := by simpa using hregular.symm.trans hr
    exact hkind ▸ hon.is hx

variable {block : Bool}

theorem safe_lock {file uid : Nat} (h : Going dir anyone owner w) (hfile : Is file (.file, uid) w) :
    Safe (among u me) (Going dir anyone owner) (fun _ _ ↦ True)
      (fun _ w' ↦ Onward anyone owner w w') (lock file block) w := by
  have hpermitted (moves : List Move) :
      Permitted dir (Own anyone owner w.trace) (w.met u moves) (.flock file block) := by
    refine ⟨nofun, nofun, fun i hi ↦ ?_, rfl⟩
    have hi : i = file := by
      cases block with
      | true =>
        simp only [Fs.waitsFor] at hi
        split at hi
        · exact (Option.some.inj hi).symm
        · cases hi
      | false => cases hi
    exact hi ▸ congrArg Prod.fst (hfile.met moves).2
  refine (safe_attempt (Q := fun _ w' ↦ Onward anyone owner w w') (safe_sys_of h hpermitted
    (fun c _ ↦ onward_next rfl c) fun c _ ↦ onward_next rfl c)).bind ?_
  rintro (err | -) w' h' hon
  · dsimp only
    split
    · exact ⟨h', hon⟩
    · exact ⟨h', trivial⟩
  · exact ⟨h', hon⟩

/-- A change of a file that is the program's. -/
theorem safe_own (htarget : o.target = some file) (hfolder : o.folder = none)
    (hwaits : ∀ s, Fs.waitsFor 0 s o = none) (hfollows : ∀ s, Fs.follows s o = false)
    (h : Going dir anyone owner w) (hown : Own anyone owner w.trace file) :
    Safe (among u me) (Going dir anyone owner)
      (fun _ w' ↦ Own anyone owner w'.trace file) (fun _ w' ↦ Own anyone owner w'.trace file)
      (sys o) w := by
  refine safe_sys_of h (fun moves ↦ ?_) (fun _ _ ↦ hown.cons _) fun _ _ ↦ hown.cons _
  exact ⟨fun i hi ↦ Option.mem_unique htarget hi ▸ hown,
    fun _ hd ↦ (nomatch hfolder.symm.trans hd), fun _ hi ↦ (nomatch (hwaits _).symm.trans hi),
    hfollows _⟩

variable {euid : Nat}

/-- A verdict to keep an existing file is about a file of the expected owner. -/
theorem suits_of_vet {facts : Facts} (h : vet facts euid owner = .ok .keep) :
    ∀ o, owner = some o → facts.uid = o.1 := by
  rintro ⟨uid, gid⟩ rfl
  simp only [vet] at h
  split at h
  · cases h
  · split at h
    · cases h
    · next hne => exact not_not.1 hne

theorem safe_verdictOf {uid euid : Nat} (h : Going dir anyone owner w)
    (hfile : Is opened.file (.file, uid) w) :
    Safe (among u me) (Going dir anyone owner) (fun _ _ ↦ True)
      (fun r w' ↦ Onward anyone owner w w' ∧
        (r = .keep → opened.created = true ∨ ∀ o, owner = some o → uid = o.1))
      (verdictOf owner euid opened) w := by
  unfold verdictOf
  split
  · next hcreated => exact ⟨h, .refl w, fun _ ↦ .inl hcreated⟩
  · refine ((safe_factsOf h hfile).imp (fun _ _ _ _ ↦ trivial) fun _ _ _ hpost ↦ hpost).bind ?_
    rintro facts w' h' ⟨hon, -, huid, -⟩
    rcases hvet : vet facts euid owner with why | verdict
    · exact ⟨h', trivial⟩
    · refine ⟨h', hon, fun hkeep ↦ .inr ?_⟩
      subst hkeep
      exact fun o ho ↦ huid.symm.trans (suits_of_vet hvet o ho)

theorem safe_judge {uid euid : Nat} (h : Going dir anyone owner w)
    (hfile : Is opened.file (.file, uid) w)
    (hcreated : opened.created = true → Created w.trace opened.file) :
    Safe (among u me) (Going dir anyone owner) (fun _ _ ↦ True)
      (fun r w' ↦ r = .locked true → Own anyone owner w'.trace opened.file)
      (judge dir name owner euid opened) w := by
  refine (safe_verdictOf h hfile).bind ?_
  rintro (- | -) w' h' ⟨hon, hkeep⟩
  · refine ((safe_factsOf h' (hon.is hfile)).imp (fun _ _ _ _ ↦ trivial)
      fun _ _ _ hpost ↦ hpost).bind ?_
    rintro facts w'' h'' ⟨hon', -, -, hjudged⟩
    dsimp only
    split
    · next hchanges =>
      -- the count and the owner were read from the open file
      have hown : Own anyone owner w''.trace opened.file := by
        simp only [changes, Bool.or_eq_true, Bool.and_eq_true, beq_iff_eq] at hchanges
        rcases hchanges with hmade | ⟨hsome, hlinks⟩
        · exact .inl (hon'.created (hon.created (hcreated hmade)))
        · obtain ⟨o, ho⟩ := Option.isSome_iff_exists.1 hsome
          rcases hkeep rfl with hmade | huid
          · exact .inl (hon'.created (hon.created (hcreated hmade)))
          · exact hjudged rfl hlinks (by rw [Suits, ho]; exact huid o ho)
      exact ((safe_own rfl rfl (fun _ ↦ rfl) (fun _ ↦ rfl) h'' hown).imp
        (fun _ _ _ _ ↦ trivial) fun _ _ _ hpost ↦ hpost).bind
        fun _ w₃ h₃ hown₃ ↦ ⟨h₃, fun _ ↦ hown₃⟩
    · next hchanges =>
      refine ⟨h'', fun hr ↦ ?_⟩
      exact absurd (Pass.locked.inj hr) (by simpa using hchanges)
  · refine (safe_attempt (Q := fun _ _ ↦ True) ((safe_harmless only_unlink h').imp
      (fun _ _ _ _ ↦ trivial) fun _ _ _ _ ↦ trivial)).bind ?_
    rintro (err | -) w'' h'' -
    · dsimp only
      split
      · exact ⟨h'', nofun⟩
      · exact ⟨h'', trivial⟩
    · exact ⟨h'', nofun⟩

theorem safe_pass (h : Going dir anyone owner w) (hready : Ready me opened w) :
    Safe (among u me) (Going dir anyone owner) (fun _ _ ↦ True)
      (fun r w' ↦ r = .locked true → Own anyone owner w'.trace opened.file)
      (pass dir name block owner euid opened) w := by
  refine (safe_lockable h hready).bind ?_
  rintro (- | -) w' h' ⟨hon, hregular⟩
  · exact ⟨h', trivial⟩
  · obtain ⟨uid, hfile⟩ := hregular rfl
    refine (safe_lock h' hfile).bind ?_
    rintro (- | -) w'' h'' hon'
    · exact ⟨h'', nofun⟩
    · refine ((safe_harmless (only_names opened.file) h'').imp (fun _ _ _ _ ↦ trivial)
        fun _ _ _ hpost ↦ hpost).bind ?_
      rintro (- | -) w₃ h₃ hon₃
      · exact ⟨h₃, nofun⟩
      · exact safe_judge h₃ (hon₃.is (hon'.is hfile)) fun hcreated ↦
          hon₃.created (hon'.created (hon.created (hready.2 hcreated).1))

theorem safe_closingOnError {p : Io α} {Q : α → World → Prop}
    (hp : Safe (among u me) (Going dir anyone owner) (fun _ _ ↦ True) Q p w) :
    Safe (among u me) (Going dir anyone owner) (fun _ _ ↦ True) Q
      (closingOnError file p) w :=
  safe_onError hp fun _ _ h' _ ↦ safe_close h' fun _ ↦ trivial

theorem safe_openLockedWith (passes : Nat) (h : Going dir anyone owner w) :
    Safe (among u me) (Going dir anyone owner) (fun _ _ ↦ True)
      (fun r w' ↦ ∀ l, r = some l → l.changeable = true → Own anyone owner w'.trace l.file)
      (openLockedWith dir name block owner euid passes) w := by
  induction passes generalizing w with
  | zero => exact ⟨h, trivial⟩
  | succ passes ih =>
    refine (safe_openName h).bind ?_
    rintro (- | opened) w' h' hready
    · exact ih h'
    · refine (safe_closingOnError (safe_pass h' (hready opened rfl))).bind ?_
      rintro (- | - | changeable) w'' h'' hown
      · exact (safe_lift (safe_close h'' fun _ ↦ trivial)).bind
          (R := fun _ _ ↦ True) fun _ _ h₃ _ ↦ ih h₃
      · exact (safe_lift (safe_close h'' fun _ ↦ trivial)).bind
          (R := fun _ _ ↦ True) fun _ _ h₃ _ ↦ ⟨h₃, nofun⟩
      · refine ⟨h'', ?_⟩
        rintro _ ⟨rfl⟩ hchangeable
        exact hown (congrArg Pass.locked hchangeable)

/-- **The lock open is careful.** -/
theorem safe_openLocked (passes : Nat) (h : Going dir anyone owner w) :
    Safe (among u me) (Going dir anyone owner) (fun _ _ ↦ True) (fun _ _ ↦ True)
      (openLocked (.ok dir) name block owner euid passes) w := by
  refine (safe_openLockedWith passes h).bind ?_
  rintro (- | ⟨file, changeable⟩) w' h' hown
  · exact ⟨h', trivial⟩
  · dsimp only
    split
    · next hchangeable =>
      have hown := hown _ rfl hchangeable
      refine (safe_closingOnError (Q := fun _ _ ↦ True) ?_).bind fun _ _ h'' _ ↦ ⟨h'', trivial⟩
      rcases owner with - | ⟨uid, gid⟩
      · exact ⟨h', trivial⟩
      · exact (safe_own rfl rfl (fun _ ↦ rfl) (fun _ ↦ rfl) h' hown).imp
          (fun _ _ _ _ ↦ trivial) fun _ _ _ _ ↦ trivial
    · exact ⟨h', trivial⟩

/-! ### The append -/

theorem safe_giveFile {to? : Option (Nat × Nat)} (h : Going dir anyone owner w)
    (hown : Own anyone owner w.trace file) :
    Safe (among u me) (Going dir anyone owner) E
      (fun _ w' ↦ Own anyone owner w'.trace file) (giveFile file to?) w := by
  rcases to? with - | ⟨uid, gid⟩
  · exact ⟨h, hown⟩
  · refine (safe_attempt (Q := fun _ w' ↦ Own anyone owner w'.trace file)
      (safe_own rfl rfl (fun _ ↦ rfl) (fun _ ↦ rfl) h hown)).bind ?_
    exact fun _ w' h' hown' ↦ ⟨h', hown'⟩

/-- A file that is appended to is the program's. -/
theorem own_of_trusted {facts : Facts} (hsees : Sees true owner x file facts w)
    (h : trustedAppender facts owner = true) : Own true owner w.trace file := by
  simp only [trustedAppender, Bool.and_eq_true, beq_iff_eq] at h
  obtain ⟨⟨hregular, hlinks⟩, howner⟩ := h
  obtain ⟨hkind, huid, hjudged⟩ := hsees
  refine hjudged (by simpa using hkind.symm.trans hregular) hlinks ?_
  rcases owner with - | o
  · exact rfl
  · exact huid.symm.trans (by simpa using howner)

theorem safe_appendExisting (h : Going dir true owner w) :
    Safe (among u me) (Going dir true owner) (fun _ _ ↦ True)
      (fun r w' ↦ ∀ file, r = .own file → Own true owner w'.trace file)
      (appendExisting dir name owner) w := by
  have hagain {w' : World} (h' : Going dir true owner w') :
      Safe (among u me) (Going dir true owner) (fun _ _ ↦ True)
        (fun r w' ↦ ∀ file, r = .own file → Own true owner w'.trace file)
        (do unlinkIfThere dir name; pure .again : Io Found) w' :=
    ((safe_harmless only_unlinkIfThere h').imp (fun _ _ _ _ ↦ trivial)
      fun _ _ _ hpost ↦ hpost).bind fun _ _ h'' _ ↦ ⟨h'', nofun⟩
  refine (safe_attempt (Q := fun r w' ↦ ∀ file, r = .ok file → ∃ x, Is file x w')
    ((safe_openFile .append nofun h).imp ?_ ?_)).bind ?_
  · exact fun _ _ _ _ _ hr ↦ nomatch hr
  · rintro file w' - ⟨-, hopens⟩ _ ⟨rfl⟩
    exact hopens
  rintro (err | file) w' h' hfile
  · dsimp only
    split
    · exact ⟨h', nofun⟩
    · refine (safe_attempt (Q := fun _ _ ↦ True) ((safe_harmless only_kindOf h').imp
        (fun _ _ _ _ ↦ trivial) fun _ _ _ _ ↦ trivial)).bind ?_
      rintro (err' | - | kind) w'' h'' -
      · exact ⟨h'', trivial⟩
      · exact ⟨h'', nofun⟩
      · cases kind with
        | symlink => exact hagain h''
        | other => exact hagain h''
        | file => exact ⟨h'', trivial⟩
        | directory => exact ⟨h'', trivial⟩
  · obtain ⟨x, hx⟩ := hfile file rfl
    refine (safe_closingOnError (Q := fun r w'' ↦ r = true → Own true owner w''.trace file)
      (((safe_factsOf h' hx).imp (fun _ _ _ _ ↦ trivial) fun _ _ _ hpost ↦ hpost).bind ?_)).bind ?_
    · exact fun facts w'' h'' hpost ↦ ⟨h'', own_of_trusted hpost.2⟩
    · rintro (- | -) w'' h'' hown
      · exact (safe_lift (safe_close h'' fun _ ↦ trivial)).bind (R := fun _ _ ↦ True)
          fun _ _ h₃ _ ↦ hagain h₃
      · refine ⟨h'', ?_⟩
        rintro _ ⟨rfl⟩
        exact hown rfl

/-- **The append is careful**, and what it returns is the program's. -/
theorem safe_appendOwnFile {mode : Nat} (passes : Nat) (h : Going dir true owner w) :
    Safe (among u me) (Going dir true owner) (fun _ _ ↦ True)
      (fun file w' ↦ Own true owner w'.trace file)
      (appendOwnFile dir name mode owner passes) w := by
  induction passes generalizing w with
  | zero => exact ⟨h, trivial⟩
  | succ passes ih =>
    refine (safe_attempt (Q := fun r w' ↦ ∀ file, r = .ok file → Created w'.trace file)
      ((safe_openFile (.createAppend mode) nofun h).imp ?_ ?_)).bind ?_
    · exact fun _ _ _ _ _ hr ↦ nomatch hr
    · rintro file w' - ⟨-, hopens⟩ _ ⟨rfl⟩
      exact hopens.1
    rintro (err | file) w' h' hcreated
    · dsimp only
      split
      · refine (safe_appendExisting h').bind ?_
        rintro (file | -) w'' h'' hown
        · exact ⟨h'', hown file rfl⟩
        · exact ih h''
      · exact ⟨h', trivial⟩
    · exact (safe_giveFile h' (.inl (hcreated file rfl))).bind fun _ _ h'' hown ↦ ⟨h'', hown⟩

/-! ### Staging -/

variable {draw : Nat → Nat}

theorem safe_createTemp {pid : Nat} (passes drawn : Nat) (h : Going dir anyone owner w) :
    Safe (among u me) (Going dir anyone owner) (fun _ _ ↦ True)
      (fun r w' ↦ Own anyone owner w'.trace r.2) (createTemp dir name pid draw passes drawn) w := by
  induction passes generalizing w drawn with
  | zero => exact ⟨h, trivial⟩
  | succ passes ih =>
    refine (safe_attempt (Q := fun r w' ↦ ∀ file, r = .ok file → Created w'.trace file)
      ((safe_openFile (.createNew 0o600) nofun h).imp ?_ ?_)).bind ?_
    · exact fun _ _ _ _ _ hr ↦ nomatch hr
    · rintro file w' - ⟨-, hopens⟩ _ ⟨rfl⟩
      exact hopens.1
    rintro (err | file) w' h' hcreated
    · dsimp only
      split
      · exact ih _ h'
      · exact ⟨h', trivial⟩
    · exact ⟨h', .inl (hcreated file rfl)⟩

theorem safe_dropStaged {temp : Name} (h : Going dir anyone owner w) :
    (dropStaged dir temp file).Safe (among u me) (Going dir anyone owner) (fun _ _ ↦ True) w :=
  ⟨h, fun c ↦
    have h' := h.next (fun _ ↦ (harmless_close file).2 _ _) c
    ⟨h', fun c' ↦ ⟨h'.next (fun _ ↦ (harmless_unlinkat temp).2 _ _) c', trivial⟩⟩⟩

theorem safe_stage {bytes : List UInt8} {protect : Option Nat} {pid : Nat} (passes : Nat)
    (h : Going dir anyone owner w) :
    Safe (among u me) (Going dir anyone owner) (fun _ _ ↦ True) (fun _ _ ↦ True)
      (stage dir name bytes owner protect pid draw passes) w := by
  refine (safe_singleComponent (Q := fun _ _ ↦ True) h (fun _ ↦ trivial) trivial).bind
    fun _ w₁ h₁ _ ↦ ?_
  refine (safe_createTemp passes 0 h₁).bind ?_
  rintro ⟨temp, file⟩ w₂ h₂ hown₂
  refine (safe_onError (F := fun _ _ ↦ True) (Q := fun _ _ ↦ True) ?_
    fun _ _ h' _ ↦ safe_dropStaged h').bind fun _ _ h' _ ↦ ⟨h', trivial⟩
  have hset {o : Call} {w' : World} (htarget : o.target = some file) (hfolder : o.folder = none)
      (hwaits : ∀ s, Fs.waitsFor 0 s o = none) (hfollows : ∀ s, Fs.follows s o = false)
      (h' : Going dir anyone owner w') (hown : Own anyone owner w'.trace file) :
      Safe (among u me) (Going dir anyone owner) (fun _ _ ↦ True)
        (fun _ w'' ↦ Own anyone owner w''.trace file) (sys o) w' :=
    (safe_own htarget hfolder hwaits hfollows h' hown).imp (fun _ _ _ _ ↦ trivial)
      fun _ _ _ hpost ↦ hpost
  refine (hset rfl rfl (fun _ ↦ rfl) (fun _ ↦ rfl) h₂ hown₂).bind fun _ w₃ h₃ hown₃ ↦ ?_
  refine (safe_sys_of (Q := fun _ w' ↦ Own anyone owner w'.trace file) h₃
    (fun _ ↦ permitted_of_look rfl rfl rfl rfl) (fun _ _ ↦ hown₃.cons _) fun _ _ ↦ trivial).bind
    fun _ w₄ h₄ hown₄ ↦ ?_
  refine Safe.bind ((safe_giveFile h₄ hown₄).bind fun _ w₅ h₅ hown₅ ↦
    hset rfl rfl (fun _ ↦ rfl) (fun _ ↦ rfl) h₅ hown₅) fun _ w₆ h₆ hown₆ ↦ ?_
  rcases protect with - | mode
  · exact ⟨h₆, trivial⟩
  · exact (hset rfl rfl (fun _ ↦ rfl) (fun _ ↦ rfl) h₆ hown₆).mono fun _ _ _ _ ↦ trivial

/-- **Staging is careful**, and so are the publication of what was staged and its drop. -/
theorem safe_stageThen {bytes : List UInt8} {protect : Option Nat} {pid : Nat} {publishing : Bool}
    (passes : Nat) (h : Going dir anyone owner w) :
    Safe (among u me) (Going dir anyone owner) (fun _ _ ↦ True) (fun _ _ ↦ True)
      (stageThen dir name bytes owner protect pid draw passes publishing) w := by
  refine (safe_stage passes h).bind ?_
  rintro ⟨temp, file⟩ w' h' -
  dsimp only
  split
  · refine (safe_onError (F := fun _ _ ↦ True) (Q := fun _ _ ↦ True)
      (safe_sys_of h' (fun _ ↦ ?_) (fun _ _ ↦ trivial) fun _ _ ↦ trivial)
      fun _ _ h'' _ ↦ safe_dropStaged h'').bind fun _ _ h'' _ ↦
        safe_lift (safe_close h'' fun _ ↦ trivial)
    exact ⟨nofun, fun _ hd ↦ (Option.some.inj hd).symm, nofun, rfl⟩
  · exact safe_lift (safe_dropStaged h')

end Rules

end Hole.Files
