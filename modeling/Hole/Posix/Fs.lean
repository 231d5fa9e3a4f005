import Mathlib.Logic.Function.Basic
import Mathlib.Data.List.Basic

/-!
# Files, folders and names

A file system as the system calls of a process see it: **inodes**, numbered and never renumbered,
and folders that name them. An open file is its inode, so a handle goes on denoting its file
whatever happens to the names; an inode number is not given out again while a handle or a name is
left, which is why comparing the numbers of an open file and of a name is comparing files.

`Fs.act` is the one definition of what each call answers and changes. A call that fails changes
nothing. An advisory lock belongs to an open file description: `Fs.lock` names its holder, and
`close` is what lets it go.
-/

namespace Posix

open Function (update update_of_ne update_self)

/-- A file name, in bytes. -/
abbrev Name : Type := List UInt8

/-- What an inode is. -/
inductive Kind
  | file
  | directory
  | symlink
  /-- A FIFO, a socket or a device. -/
  | other
  deriving DecidableEq

/-- An inode. -/
structure Node where
  kind : Kind
  uid : Nat
  gid : Nat
  mode : Nat
  links : Nat
  /-- The contents of a file, the target of a link. -/
  bytes : List UInt8
  entries : List (Name × Nat)
  parent : Nat

/-- A file system. -/
structure Fs where
  node : Nat → Node
  /-- The first number that is not an inode yet. -/
  next : Nat
  /-- Who holds the advisory lock of a file. -/
  lock : Nat → Option Nat
  root : Nat
  cwd : Nat

/-! ### Names in a folder -/

/-- Give a name to an inode. -/
def assign (es : List (Name × Nat)) (n : Name) (i : Nat) : List (Name × Nat) :=
  (n, i) :: es.filter fun e ↦ e.1 ≠ n

/-- Take a name away. -/
def unassign (es : List (Name × Nat)) (n : Name) : List (Name × Nat) := es.filter fun e ↦ e.1 ≠ n

theorem lookup_unassign (es : List (Name × Nat)) (n m : Name) :
    (unassign es n).lookup m = if m = n then none else es.lookup m := by
  induction es with
  | nil => simp [unassign]
  | cons e es ih =>
    obtain ⟨k, i⟩ := e
    by_cases hk : k = n
    · subst hk
      have hrest : unassign ((k, i) :: es) k = unassign es k := by simp [unassign]
      rw [hrest, ih]
      by_cases hm : m = k
      · simp [hm]
      · rw [if_neg hm, if_neg hm, List.lookup_cons, beq_false_of_ne hm]
    · have hrest : unassign ((k, i) :: es) n = (k, i) :: unassign es n := by simp [unassign, hk]
      rw [hrest, List.lookup_cons, List.lookup_cons, ih]
      by_cases hm : m = k
      · simp [hm, hk]
      · simp [beq_false_of_ne hm]

theorem lookup_assign (es : List (Name × Nat)) (n m : Name) (i : Nat) :
    (assign es n i).lookup m = if m = n then some i else es.lookup m := by
  have hassign : assign es n i = (n, i) :: unassign es n := rfl
  rw [hassign, List.lookup_cons, lookup_unassign]
  by_cases hm : m = n
  · simp [hm]
  · simp [hm, beq_false_of_ne hm]

/-- `.`, the folder itself. -/
def dot : Name := [46]

/-- `..`, the folder it is in. -/
def dotDot : Name := [46, 46]

/-- What a name denotes in a folder. -/
def Fs.lookup (s : Fs) (d : Nat) (n : Name) : Option Nat :=
  if n = dot then some d
  else if n = dotDot then some (s.node d).parent
  else (s.node d).entries.lookup n

/-! ### Changes -/

/-- Change an inode. -/
def Fs.modify (s : Fs) (i : Nat) (f : Node → Node) : Fs :=
  { s with node := update s.node i (f (s.node i)) }

/-- Give a name in a folder to an inode. -/
def Fs.enter (s : Fs) (d : Nat) (n : Name) (i : Nat) : Fs :=
  s.modify d fun x ↦ { x with entries := assign x.entries n i }

/-- Take a name in a folder away. -/
def Fs.leave (s : Fs) (d : Nat) (n : Name) : Fs :=
  s.modify d fun x ↦ { x with entries := unassign x.entries n }

/-- One name of an inode less. -/
def Fs.unlinked (s : Fs) (i : Nat) : Fs := s.modify i fun x ↦ { x with links := x.links - 1 }

/-- What a name denotes, if anything, loses that name. -/
def Fs.vacated (s : Fs) (d : Nat) (n : Name) : Fs :=
  match s.lookup d n with
  | some j => s.unlinked j
  | none => s

/-- A new inode, at a name. -/
def Fs.make (s : Fs) (d : Nat) (n : Name) (x : Node) : Fs :=
  Fs.enter { s with node := update s.node s.next x, next := s.next + 1 } d n s.next

/-- Names that can be given: not empty, not `.` or `..`, without a separator and without a zero
byte. -/
def ordinary (n : Name) : Bool := n ≠ [] && n ≠ dot && n ≠ dotDot && !n.contains 47 && !n.contains 0

variable {n : Name}

theorem ne_dot_of_ordinary (h : ordinary n = true) : n ≠ dot := by
  simp only [ordinary, Bool.and_eq_true, decide_eq_true_eq] at h
  exact h.1.1.1.2

theorem ne_dotDot_of_ordinary (h : ordinary n = true) : n ≠ dotDot := by
  simp only [ordinary, Bool.and_eq_true, decide_eq_true_eq] at h
  exact h.1.1.2

section Lookup

variable {s : Fs} {d e i : Nat} {n m : Name}

theorem lookup_of_ordinary (h : ordinary n = true) :
    s.lookup d n = (s.node d).entries.lookup n := by
  rw [Fs.lookup, if_neg (ne_dot_of_ordinary h), if_neg (ne_dotDot_of_ordinary h)]

@[simp] theorem node_modify_self (f : Node → Node) : (s.modify i f).node i = f (s.node i) := by
  simp [Fs.modify]

theorem node_modify_of_ne (f : Node → Node) (h : e ≠ i) : (s.modify i f).node e = s.node e := by
  simp [Fs.modify, h]

@[simp] theorem lock_modify (f : Node → Node) : (s.modify i f).lock = s.lock := rfl

@[simp] theorem next_modify (f : Node → Node) : (s.modify i f).next = s.next := rfl

/-- A change that leaves names and parent alone is not seen by a lookup. -/
theorem lookup_modify {f : Node → Node} (hentries : ∀ x, (f x).entries = x.entries)
    (hparent : ∀ x, (f x).parent = x.parent) : (s.modify i f).lookup d n = s.lookup d n := by
  rcases eq_or_ne d i with rfl | hne
  · simp [Fs.lookup, hentries, hparent]
  · simp [Fs.lookup, node_modify_of_ne f hne]

theorem lookup_enter (hn : ordinary n = true) (j : Nat) :
    (s.enter d n j).lookup e m = if e = d ∧ m = n then some j else s.lookup e m := by
  rcases eq_or_ne e d with rfl | hne
  · rcases eq_or_ne m n with rfl | hm
    · simp [lookup_of_ordinary hn, Fs.enter, lookup_assign]
    · simp [Fs.lookup, Fs.enter, lookup_assign, hm]
  · simp [Fs.lookup, Fs.enter, node_modify_of_ne _ hne, hne]

theorem lookup_leave (hn : ordinary n = true) :
    (s.leave d n).lookup e m = if e = d ∧ m = n then none else s.lookup e m := by
  rcases eq_or_ne e d with rfl | hne
  · rcases eq_or_ne m n with rfl | hm
    · simp [lookup_of_ordinary hn, Fs.leave, lookup_unassign]
    · simp [Fs.lookup, Fs.leave, lookup_unassign, hm]
  · simp [Fs.lookup, Fs.leave, node_modify_of_ne _ hne, hne]

@[simp] theorem lookup_unlinked (j : Nat) : (s.unlinked j).lookup d n = s.lookup d n :=
  lookup_modify (fun _ ↦ rfl) fun _ ↦ rfl

@[simp] theorem lookup_vacated {d' : Nat} {n' : Name} :
    (s.vacated d' n').lookup d n = s.lookup d n := by
  unfold Fs.vacated
  split
  · exact lookup_unlinked _
  · rfl

@[simp] theorem next_vacated : (s.vacated d n).next = s.next := by
  unfold Fs.vacated
  split <;> rfl

@[simp] theorem lock_make (x : Node) : (s.make d n x).lock = s.lock := rfl

@[simp] theorem next_make (x : Node) : (s.make d n x).next = s.next + 1 := rfl

theorem lookup_make_self (hn : ordinary n = true) (x : Node) :
    (s.make d n x).lookup d n = some s.next := by
  rw [Fs.make, lookup_enter hn, if_pos ⟨rfl, rfl⟩]

theorem lookup_make (hn : ordinary n = true) (x : Node) (he : e < s.next) :
    (s.make d n x).lookup e m = if e = d ∧ m = n then some s.next else s.lookup e m := by
  rw [Fs.make, lookup_enter hn]
  congr 1
  simp only [Fs.lookup, update_of_ne (Nat.ne_of_lt he)]

end Lookup

/-- A new file, link or device. -/
def Node.fresh (kind : Kind) (uid mode : Nat) (bytes : List UInt8) : Node :=
  ⟨kind, uid, 0, mode, 1, bytes, [], 0⟩

/-- A new folder. -/
def Node.folder (uid mode parent : Nat) : Node := ⟨.directory, uid, 0, mode, 2, [], [], parent⟩

/-- Rename within one folder or across two: what `rename` leaves of the names. -/
def Fs.move (s : Fs) (d : Nat) (n : Name) (d' : Nat) (n' : Name) (i : Nat) : Fs :=
  let s' := ((s.vacated d' n').leave d n).enter d' n' i
  if d = d' then s' else
    s'.modify i fun x ↦ if x.kind = .directory then { x with parent := d' } else x

variable {s : Fs}

theorem lookup_move {d d' e i : Nat} {n n' m : Name} (hn : ordinary n = true)
    (hn' : ordinary n' = true) (hm : ordinary m = true) :
    (s.move d n d' n' i).lookup e m =
      if e = d' ∧ m = n' then some i else if e = d ∧ m = n then none else s.lookup e m := by
  have hnames : (((s.vacated d' n').leave d n).enter d' n' i).lookup e m =
      if e = d' ∧ m = n' then some i else if e = d ∧ m = n then none else s.lookup e m := by
    rw [lookup_enter hn', lookup_leave hn, lookup_vacated]
  unfold Fs.move
  split
  · exact hnames
  · rw [← hnames, lookup_of_ordinary hm, lookup_of_ordinary hm]
    rcases eq_or_ne e i with rfl | hne
    · rw [node_modify_self]
      split <;> rfl
    · rw [node_modify_of_ne _ hne]

/-- Whether `rename` puts `i` in the place of `j`: a folder only in that of an empty one, and
nothing else in a folder's. -/
def Fs.replaceable (s : Fs) (i j : Nat) : Bool :=
  match (s.node i).kind, (s.node j).kind with
  | .directory, .directory => (s.node j).entries.isEmpty
  | .directory, _ => false
  | _, .directory => false
  | _, _ => true

/-! ### Calls -/

/-- How a file is opened: for lookup, to read, to read and write, to append. -/
inductive Access
  | search
  | read
  | readWrite
  | append
  deriving DecidableEq

/-- The flags of `openat`. `create` is `O_CREAT | O_EXCL`. -/
structure Flags where
  access : Access
  create : Bool := false
  directory : Bool := false
  nonblock : Bool := false
  noFollow : Bool := false

/-- The kinds of error the callers tell apart. -/
inductive ErrorKind
  | notFound
  | alreadyExists
  | wouldBlock
  | other
  deriving DecidableEq

/-- What `fstat` and `fstatat` say. -/
structure Meta where
  id : Nat
  kind : Kind
  uid : Nat
  mode : Nat
  links : Nat

/-- The system calls. A folder and an open file are given by their handles. -/
inductive Call
  /-- `open` of `/` or of `.`. -/
  | start (rooted : Bool)
  | openat (dir : Nat) (name : Name) (flags : Flags) (mode : Nat)
  | fstat (file : Nat)
  | fstatat (dir : Nat) (name : Name)
  | mkdirat (dir : Nat) (name : Name) (mode : Nat)
  | readlinkat (dir : Nat) (name : Name)
  | flock (file : Nat) (block : Bool)
  | fchmod (file : Nat) (mode : Nat)
  | fchown (file : Nat) (uid : Nat) (gid : Option Nat)
  | write (file : Nat) (bytes : List UInt8)
  | fsync (file : Nat)
  | unlinkat (dir : Nat) (name : Name)
  | renameat (dir : Nat) (name : Name) (newName : Name)
  | close (file : Nat)

/-- What a call returns. -/
def Val : Call → Type
  | .start .. | .openat .. => Nat
  | .fstat .. | .fstatat .. => Meta
  | .readlinkat .. => List UInt8
  | _ => Unit

/-- What a call answers. -/
abbrev Ans (o : Call) : Type := Except ErrorKind (Val o)

/-- How long a link's target may be. -/
def pathMax : Nat := 4096

/-- What `fstat` says of an inode. -/
def Fs.stat (s : Fs) (i : Nat) : Meta :=
  ⟨i, (s.node i).kind, (s.node i).uid, (s.node i).mode, (s.node i).links⟩

/-- Whether an inode can be opened so. A link is not: each open of a name is one that does not
follow it. -/
def Fs.opens (s : Fs) (flags : Flags) (i : Nat) : Bool :=
  match (s.node i).kind with
  | .symlink => false
  | .directory => flags.directory || flags.access = .read || flags.access = .search
  | .file | .other => !flags.directory

/-- What a call of the process of uid `me` answers and changes; `who` is its open file
description, as far as advisory locks go. -/
def Fs.act (me who : Nat) (s : Fs) : (o : Call) → Except ErrorKind (Val o × Fs)
  | .start rooted => .ok (if rooted then s.root else s.cwd, s)
  | .openat d n flags mode =>
    match s.lookup d n with
    | some i =>
      if flags.create then .error .alreadyExists
      else if s.opens flags i then .ok (i, s)
      else .error .other
    | none =>
      if flags.create then .ok (s.next, s.make d n (.fresh .file me mode []))
      else .error .notFound
  | .fstat f => .ok (s.stat f, s)
  | .fstatat d n =>
    match s.lookup d n with
    | some i => .ok (s.stat i, s)
    | none => .error .notFound
  | .mkdirat d n mode =>
    match s.lookup d n with
    | some _ => .error .alreadyExists
    | none => .ok ((), s.make d n (.folder me mode d))
  | .readlinkat d n =>
    match s.lookup d n with
    | some i =>
      if (s.node i).kind = .symlink then .ok ((s.node i).bytes.take pathMax, s) else .error .other
    | none => .error .notFound
  | .flock f block =>
    match s.lock f with
    | none => .ok ((), { s with lock := update s.lock f (some who) })
    | some w =>
      if w = who then .ok ((), s)
      -- a call that waits comes to an end under somebody else's lock only by a signal
      else .error (if block then .other else .wouldBlock)
  | .fchmod f mode => .ok ((), s.modify f fun x ↦ { x with mode := mode })
  | .fchown f uid gid =>
    .ok ((), s.modify f fun x ↦ { x with uid := uid, gid := gid.getD x.gid })
  | .write f bytes => .ok ((), s.modify f fun x ↦ { x with bytes := x.bytes ++ bytes })
  | .fsync _ => .ok ((), s)
  | .unlinkat d n =>
    match s.lookup d n with
    | some i =>
      if (s.node i).kind = .directory then .error .other
      else .ok ((), (s.leave d n).unlinked i)
    | none => .error .notFound
  | .renameat d n n' =>
    match s.lookup d n with
    | some i =>
      match s.lookup d n' with
      | some j =>
        if i = j then .ok ((), s)
        else if s.replaceable i j then .ok ((), s.move d n d n' i)
        else .error .other
      | none => .ok ((), s.move d n d n' i)
    | none => .error .notFound
  | .close f =>
    .ok ((), if s.lock f = some who then { s with lock := update s.lock f none } else s)

/-- Whether a call can fail for a reason of its own: a device error, a limit, a signal. A file is
closed all the same. -/
def Call.fallible : Call → Bool
  | .close _ => false
  | _ => true

/-- What a call answers; `fail` makes it fail for a reason of its own. -/
def Fs.answer (me who : Nat) (s : Fs) (o : Call) (fail : Bool) : Ans o :=
  if fail && o.fallible then .error .other else (s.act me who o).map Prod.fst

/-- What a call leaves. -/
def Fs.after (me who : Nat) (s : Fs) (o : Call) (fail : Bool) : Fs :=
  if fail && o.fallible then s else
    match s.act me who o with
    | .ok (_, s') => s'
    | .error _ => s

/-- What is left of the locks when a process dies: its files are closed. -/
def Fs.closeAll (who : Nat) (s : Fs) : Fs :=
  { s with lock := fun f ↦ if s.lock f = some who then none else s.lock f }

/-- The inode a call waits for: a FIFO that is opened to read or to write only, or a file whose
lock somebody else holds. -/
def Fs.waitsFor (who : Nat) (s : Fs) : Call → Option Nat
  | .openat d n flags _ =>
    match s.lookup d n with
    | some i =>
      if !flags.create && (s.node i).kind = .other && !flags.nonblock &&
          (flags.access = .read || flags.access = .append) then some i
      else none
    | none => none
  | .flock f true => if (s.lock f).any (· ≠ who) then some f else none
  | _ => none

/-- Whether a call follows a link. -/
def Fs.follows (s : Fs) : Call → Bool
  | .openat d n flags _ =>
    !flags.create && !flags.noFollow && (s.lookup d n).any fun i ↦ (s.node i).kind = .symlink
  | _ => false

/-! ### Calls that do not fail for a reason of their own -/

section Calls

variable (me who : Nat) (s : Fs) (d mode : Nat) (n : Name) (flags : Flags)

theorem act_openat : s.act me who (.openat d n flags mode) =
    match s.lookup d n with
    | some i =>
      if flags.create then .error .alreadyExists
      else if s.opens flags i then .ok (i, s)
      else .error .other
    | none =>
      if flags.create then .ok (s.next, s.make d n (.fresh .file me mode []))
      else .error .notFound := rfl

theorem act_fstatat : s.act me who (.fstatat d n) =
    match s.lookup d n with
    | some i => .ok (s.stat i, s)
    | none => .error .notFound := rfl

theorem act_unlinkat : s.act me who (.unlinkat d n) =
    match s.lookup d n with
    | some i =>
      if (s.node i).kind = .directory then .error .other
      else .ok ((), (s.leave d n).unlinked i)
    | none => .error .notFound := rfl

theorem answer_false (o : Call) : s.answer me who o false = (s.act me who o).map Prod.fst := rfl

theorem after_false (o : Call) : s.after me who o false =
    match s.act me who o with
    | .ok (_, s') => s'
    | .error _ => s := rfl

end Calls

/-! ### What an open tells -/

variable {fail : Bool}

variable {me who : Nat} {flags : Flags}

/-- A file that was created is new. -/
theorem created_of_answer {d i mode : Nat} (hcreate : flags.create = true)
    (h : s.answer me who (.openat d n flags mode) fail = .ok i) :
    s.lookup d n = none ∧ i = s.next ∧
      s.after me who (.openat d n flags mode) fail = s.make d n (.fresh .file me mode []) := by
  rcases fail with - | -
  · rcases hlookup : s.lookup d n with - | j
    · simp only [answer_false, act_openat, hlookup, hcreate, if_true, Except.map] at h
      exact ⟨rfl, (Except.ok.inj h).symm, by simp [after_false, act_openat, hlookup, hcreate]⟩
    · simp only [answer_false, act_openat, hlookup, hcreate, if_true, Except.map] at h
      cases h
  · cases h

/-- A file that was opened is what the name denotes. -/
theorem opened_of_answer {d i mode : Nat} (hcreate : flags.create = false)
    (h : s.answer me who (.openat d n flags mode) fail = .ok i) :
    s.lookup d n = some i ∧ s.opens flags i = true ∧
      s.after me who (.openat d n flags mode) fail = s := by
  rcases fail with - | -
  · rcases hlookup : s.lookup d n with - | j
    · simp only [answer_false, act_openat, hlookup, hcreate, Except.map] at h
      cases h
    · rcases hopens : s.opens flags j with - | -
      · simp only [answer_false, act_openat, hlookup, hcreate, hopens,
          Bool.false_eq_true, if_false, Except.map] at h
        cases h
      · simp only [answer_false, act_openat, hlookup, hcreate, hopens,
          Bool.false_eq_true, if_false, if_true, Except.map] at h
        obtain rfl : j = i := Except.ok.inj h
        exact ⟨rfl, hopens, by simp [after_false, act_openat, hlookup, hcreate, hopens]⟩
  · cases h

/-- A call that fails changes nothing. -/
theorem after_of_error {o : Call} {kind : ErrorKind} (h : s.answer me who o fail = .error kind) :
    s.after me who o fail = s := by
  unfold Fs.answer at h
  unfold Fs.after
  split at h
  · next hfail => rw [if_pos hfail]
  · next hfail =>
    rw [if_neg hfail]
    rcases hact : s.act me who o with err | ⟨v, s'⟩
    · rfl
    · rw [hact] at h
      cases h

/-- A name that cannot be created is there. -/
theorem lookup_of_exists {d mode : Nat}
    (h : s.answer me who (.openat d n flags mode) fail = .error .alreadyExists) :
    s.lookup d n ≠ none := by
  intro hlookup
  rcases fail with - | -
  · rcases hcreate : flags.create with - | -
    · simp [answer_false, act_openat, hlookup, hcreate, Except.map] at h
    · simp [answer_false, act_openat, hlookup, hcreate, Except.map] at h
  · cases h

/-- A name that is not found is not there. -/
theorem lookup_of_notFound {d mode : Nat}
    (h : s.answer me who (.openat d n flags mode) fail = .error .notFound) :
    s.lookup d n = none := by
  rcases fail with - | -
  · rcases hlookup : s.lookup d n with - | i
    · rfl
    · simp only [answer_false, act_openat, hlookup] at h
      split at h
      · cases h
      · split at h <;> cases h
  · cases h

/-- What `fstatat` says of a name. -/
theorem statat_of_answer {d : Nat} :
    (∀ st, s.answer me who (.fstatat d n) fail = .ok st →
      ∃ i, s.lookup d n = some i ∧ st = s.stat i) ∧
    (s.answer me who (.fstatat d n) fail = .error .notFound → s.lookup d n = none) := by
  rcases fail with - | -
  · rcases hlookup : s.lookup d n with - | i
    · refine ⟨fun st h ↦ ?_, fun _ ↦ rfl⟩
      simp [answer_false, act_fstatat, hlookup, Except.map] at h
    · refine ⟨fun st h ↦ ⟨i, rfl, ?_⟩, fun h ↦ ?_⟩
      · simp only [answer_false, act_fstatat, hlookup] at h
        exact (Except.ok.inj h).symm
      · simp [answer_false, act_fstatat, hlookup, Except.map] at h
  · exact ⟨nofun, nofun⟩

/-- A name that was unlinked is gone; one that is not found was not there. -/
theorem unlinked_of_answer {d : Nat} (hn : ordinary n = true) :
    (∀ v, s.answer me who (.unlinkat d n) fail = .ok v →
      (s.after me who (.unlinkat d n) fail).lookup d n = none) ∧
    (s.answer me who (.unlinkat d n) fail = .error .notFound → s.lookup d n = none) := by
  rcases fail with - | -
  · rcases hlookup : s.lookup d n with - | i
    · refine ⟨fun v h ↦ ?_, fun _ ↦ rfl⟩
      simp [answer_false, act_unlinkat, hlookup, Except.map] at h
    · by_cases hkind : (s.node i).kind = .directory
      · refine ⟨fun v h ↦ ?_, fun h ↦ ?_⟩
        · simp [answer_false, act_unlinkat, hlookup, hkind, Except.map] at h
        · simp [answer_false, act_unlinkat, hlookup, hkind, Except.map] at h
      · refine ⟨fun v _ ↦ ?_, fun h ↦ ?_⟩
        · simp [after_false, act_unlinkat, hlookup, hkind, lookup_leave hn]
        · simp [answer_false, act_unlinkat, hlookup, hkind, Except.map] at h
  · exact ⟨nofun, nofun⟩

/-- What `fstat` says is so. -/
theorem stat_of_answer {i : Nat} {st : Meta} (h : s.answer me who (.fstat i) fail = .ok st) :
    st = s.stat i ∧ s.after me who (.fstat i) fail = s := by
  rcases fail with - | -
  · exact ⟨(Except.ok.inj h).symm, rfl⟩
  · cases h

/-! ### What stays as it is -/

section Keeps

variable {β γ : Type} {π : Node → β} {s t v : Fs}

/-- Every inode is still there, and what `π` says of it is the same. -/
structure Fs.Keeps (π : Node → β) (s s' : Fs) : Prop where
  next : s.next ≤ s'.next
  node : ∀ {i}, i < s.next → π (s'.node i) = π (s.node i)

/-- What an inode is, whose it is, its permissions and its contents: all but its names. -/
def Node.data (x : Node) : Kind × Nat × Nat × Nat × List UInt8 :=
  (x.kind, x.uid, x.gid, x.mode, x.bytes)

/-- What an inode is, and whose. -/
def Node.identity (x : Node) : Kind × Nat := (x.kind, x.uid)

theorem Fs.Keeps.refl (π : Node → β) (s : Fs) : s.Keeps π s := ⟨Nat.le_refl _, fun _ ↦ rfl⟩

theorem Fs.Keeps.trans (h : s.Keeps π t) (h' : t.Keeps π v) : s.Keeps π v :=
  ⟨Nat.le_trans h.next h'.next, fun hi ↦ (h'.node (Nat.lt_of_lt_of_le hi h.next)).trans (h.node hi)⟩

theorem Fs.Keeps.comp (h : s.Keeps π t) (g : β → γ) : s.Keeps (fun x ↦ g (π x)) t :=
  ⟨h.next, fun hi ↦ congrArg g (h.node hi)⟩

theorem Fs.Keeps.identity (h : s.Keeps Node.data t) : s.Keeps Node.identity t :=
  h.comp fun x ↦ (x.1, x.2.1)

theorem Fs.Keeps.kind (h : s.Keeps Node.identity t) {i : Nat} (hi : i < s.next) :
    (t.node i).kind = (s.node i).kind := congrArg Prod.fst (h.node hi)

theorem Fs.Keeps.uid (h : s.Keeps Node.identity t) {i : Nat} (hi : i < s.next) :
    (t.node i).uid = (s.node i).uid := congrArg Prod.snd (h.node hi)

theorem keeps_modify {i : Nat} {f : Node → Node} (h : ∀ x, π (f x) = π x) :
    s.Keeps π (s.modify i f) := by
  refine ⟨Nat.le_refl _, fun {j} _ ↦ ?_⟩
  rcases eq_or_ne j i with rfl | hne
  · rw [node_modify_self, h]
  · rw [node_modify_of_ne f hne]

theorem keeps_enter (s : Fs) (d : Nat) (n : Name) (i : Nat) :
    s.Keeps Node.data (s.enter d n i) := keeps_modify fun _ ↦ rfl

theorem keeps_leave (s : Fs) (d : Nat) (n : Name) : s.Keeps Node.data (s.leave d n) :=
  keeps_modify fun _ ↦ rfl

theorem keeps_unlinked (s : Fs) (i : Nat) : s.Keeps Node.data (s.unlinked i) :=
  keeps_modify fun _ ↦ rfl

theorem keeps_vacated (s : Fs) (d : Nat) (n : Name) : s.Keeps Node.data (s.vacated d n) := by
  unfold Fs.vacated
  split
  · exact keeps_unlinked s _
  · exact .refl _ s

theorem keeps_make (s : Fs) (d : Nat) (n : Name) (x : Node) : s.Keeps Node.data (s.make d n x) := by
  have hadd : s.Keeps Node.data
      { s with node := update s.node s.next x, next := s.next + 1 } := by
    refine ⟨Nat.le_succ _, fun {i} hi ↦ ?_⟩
    show Node.data (update s.node s.next x i) = _
    rw [update_of_ne (Nat.ne_of_lt hi)]
  exact hadd.trans (keeps_enter _ d n s.next)

theorem keeps_move (s : Fs) (d : Nat) (n : Name) (d' : Nat) (n' : Name) (i : Nat) :
    s.Keeps Node.data (s.move d n d' n' i) := by
  have hnames := ((keeps_vacated s d' n').trans (keeps_leave _ d n)).trans (keeps_enter _ d' n' i)
  unfold Fs.move
  split
  · exact hnames
  · refine hnames.trans (keeps_modify fun x ↦ ?_)
    split <;> rfl

end Keeps

/-! ### What a call may change -/

/-- The inode whose contents, permissions or owner a call sets. -/
def Call.target : Call → Option Nat
  | .fchmod f _ | .fchown f _ _ | .write f _ => some f
  | _ => none

/-- The folder whose names a call changes. -/
def Call.folder : Call → Option Nat
  | .openat d _ flags _ => if flags.create then some d else none
  | .mkdirat d _ _ | .unlinkat d _ | .renameat d _ _ => some d
  | _ => none

/-- What a call may leave: the inodes as they were; a new inode at a name of its folder; its target
changed; a name of its folder unlinked, or renamed. -/
inductive Fs.Change (o : Call) (s : Fs) : Fs → Prop
  | inodes {s' : Fs} (hnode : s'.node = s.node) (hnext : s'.next = s.next)
      (hstart : s'.root = s.root ∧ s'.cwd = s.cwd) : Change o s s'
  | make (d : Nat) (n : Name) (x : Node) (hd : o.folder = some d) (hempty : x.entries = [])
      (hparent : x.kind = .directory → x.parent = d) : Change o s (s.make d n x)
  | modify (f : Nat) (g : Node → Node) (hf : o.target = some f)
      (hg : ∀ x, (g x).kind = x.kind ∧ (g x).entries = x.entries ∧ (g x).parent = x.parent) :
      Change o s (s.modify f g)
  | unlink (d : Nat) (n : Name) (i : Nat) (hd : o.folder = some d) :
      Change o s ((s.leave d n).unlinked i)
  | rename (d : Nat) (n n' : Name) (i : Nat) (hd : o.folder = some d)
      (hi : s.lookup d n = some i) : Change o s (s.move d n d n' i)

/-- **What a call that succeeds leaves.** -/
theorem change_act {s s' : Fs} {o : Call} {v : Val o} (h : s.act me who o = .ok (v, s')) :
    s.Change o s' := by
  cases o with
  | start rooted =>
    cases h
    exact .inodes rfl rfl ⟨rfl, rfl⟩
  | openat d n flags mode =>
    simp only [Fs.act] at h
    split at h
    · split at h
      · cases h
      · split at h
        · cases h
          exact .inodes rfl rfl ⟨rfl, rfl⟩
        · cases h
    · split at h
      · next hcreate =>
        cases h
        exact .make d n _ (by simp [Call.folder, hcreate]) rfl nofun
      · cases h
  | fstat f =>
    cases h
    exact .inodes rfl rfl ⟨rfl, rfl⟩
  | fstatat d n =>
    simp only [Fs.act] at h
    split at h
    · cases h
      exact .inodes rfl rfl ⟨rfl, rfl⟩
    · cases h
  | mkdirat d n mode =>
    simp only [Fs.act] at h
    split at h
    · cases h
    · cases h
      exact .make d n _ rfl rfl fun _ ↦ rfl
  | readlinkat d n =>
    simp only [Fs.act] at h
    split at h
    · split at h
      · cases h
        exact .inodes rfl rfl ⟨rfl, rfl⟩
      · cases h
    · cases h
  | flock f block =>
    simp only [Fs.act] at h
    split at h
    · cases h
      exact .inodes rfl rfl ⟨rfl, rfl⟩
    · split at h
      · cases h
        exact .inodes rfl rfl ⟨rfl, rfl⟩
      · cases h
  | fchmod f mode =>
    cases h
    exact .modify f _ rfl fun _ ↦ ⟨rfl, rfl, rfl⟩
  | fchown f uid gid =>
    cases h
    exact .modify f _ rfl fun _ ↦ ⟨rfl, rfl, rfl⟩
  | write f bytes =>
    cases h
    exact .modify f _ rfl fun _ ↦ ⟨rfl, rfl, rfl⟩
  | fsync f =>
    cases h
    exact .inodes rfl rfl ⟨rfl, rfl⟩
  | unlinkat d n =>
    simp only [Fs.act] at h
    split at h
    · split at h
      · cases h
      · cases h
        exact .unlink d n _ rfl
    · cases h
  | renameat d n n' =>
    simp only [Fs.act] at h
    split at h
    · next hi =>
      split at h
      · split at h
        · cases h
          exact .inodes rfl rfl ⟨rfl, rfl⟩
        · split at h
          · cases h
            exact .rename d n n' _ rfl hi
          · cases h
      · cases h
        exact .rename d n n' _ rfl hi
    · cases h
  | close f =>
    cases h
    split
    · exact .inodes rfl rfl ⟨rfl, rfl⟩
    · exact .inodes rfl rfl ⟨rfl, rfl⟩

theorem change_after (me who : Nat) (s : Fs) (o : Call) (fail : Bool) :
    s.Change o (s.after me who o fail) := by
  unfold Fs.after
  split
  · exact .inodes rfl rfl ⟨rfl, rfl⟩
  · split
    · next hact => exact change_act hact
    · exact .inodes rfl rfl ⟨rfl, rfl⟩

section After

variable {s t : Fs} {o : Call}

/-- A call leaves alone the data of every inode but its target. -/
theorem Fs.Change.data {i : Nat} (h : s.Change o t) (hi : i < s.next)
    (htarget : o.target ≠ some i) : (t.node i).data = (s.node i).data := by
  cases h with
  | inodes hnode hnext hstart => rw [hnode]
  | make d n x hd hempty hparent => exact (keeps_make s d n x).node hi
  | modify f g hf hg =>
    have hne : i ≠ f := by
      rintro rfl
      exact htarget hf
    rw [node_modify_of_ne g hne]
  | unlink d n j hd => exact ((keeps_leave s d n).trans (keeps_unlinked _ j)).node hi
  | rename d n n' j hd hj => exact (keeps_move s d n d n' j).node hi

/-- A call leaves every inode, and what kind of thing it is. -/
theorem Fs.Change.kind (h : s.Change o t) : s.Keeps Node.kind t := by
  cases h with
  | inodes hnode hnext hstart => exact ⟨Nat.le_of_eq hnext.symm, fun _ ↦ by rw [hnode]⟩
  | make d n x hd hempty hparent => exact (keeps_make s d n x).comp Prod.fst
  | modify f g hf hg => exact keeps_modify fun x ↦ (hg x).1
  | unlink d n j hd => exact ((keeps_leave s d n).trans (keeps_unlinked _ j)).comp Prod.fst
  | rename d n n' j hd hj => exact (keeps_move s d n d n' j).comp Prod.fst

/-- A call that is not about names leaves them all alone. -/
theorem Fs.Change.lookup_of_none {d : Nat} {n : Name} (h : s.Change o t)
    (hfolder : o.folder = none) : t.lookup d n = s.lookup d n := by
  cases h with
  | inodes hnode hnext hstart => simp only [Fs.lookup, hnode]
  | make e m x he hempty hparent => cases hfolder.symm.trans he
  | modify f g hf hg => exact lookup_modify (fun x ↦ (hg x).2.1) fun x ↦ (hg x).2.2
  | unlink e m j he => cases hfolder.symm.trans he
  | rename e m m' j he hj => cases hfolder.symm.trans he

/-- A call leaves alone the names of every folder but its own. -/
theorem Fs.Change.lookup {d : Nat} {n : Name} (h : s.Change o t) (hd : d < s.next)
    (hfolder : o.folder ≠ some d) : t.lookup d n = s.lookup d n := by
  have hne {e : Nat} (he : o.folder = some e) : d ≠ e := by
    rintro rfl
    exact hfolder he
  have hnode {t : Fs} (hentries : (t.node d).entries = (s.node d).entries)
      (hparent : (t.node d).parent = (s.node d).parent) : t.lookup d n = s.lookup d n := by
    simp only [Fs.lookup, hentries, hparent]
  cases h with
  | inodes heq hnext hstart => exact hnode (by rw [heq]) (by rw [heq])
  | make e m x he hempty hparent =>
    have hmade : (s.make e m x).node d = s.node d := by
      rw [Fs.make, Fs.enter, node_modify_of_ne _ (hne he)]
      exact update_of_ne (Nat.ne_of_lt hd) _ _
    exact hnode (by rw [hmade]) (by rw [hmade])
  | modify f g hf hg => exact lookup_modify (fun x ↦ (hg x).2.1) fun x ↦ (hg x).2.2
  | unlink e m j he =>
    rw [lookup_unlinked]
    exact hnode (by rw [Fs.leave, node_modify_of_ne _ (hne he)])
      (by rw [Fs.leave, node_modify_of_ne _ (hne he)])
  | rename e m m' j he hj =>
    have hgone (t : Fs) : ((t.leave e m).enter e m' j).lookup d n = t.lookup d n := by
      simp only [Fs.lookup, Fs.enter, Fs.leave, node_modify_of_ne _ (hne he)]
    simp only [Fs.move, if_true]
    rw [hgone]
    exact lookup_vacated

end After

/-! ### Well-formed file systems -/

/-- Every name denotes an inode, and every folder is in one. -/
structure Fs.Wf (s : Fs) : Prop where
  entries : ∀ {d n i}, (s.node d).entries.lookup n = some i → i < s.next
  parent : ∀ {d}, d < s.next → (s.node d).kind = .directory → (s.node d).parent < s.next
  root : s.root < s.next
  cwd : s.cwd < s.next

section Wf

variable {s t : Fs} {d i : Nat} {n : Name}

theorem Fs.Wf.lookup (h : s.Wf) (hd : d < s.next) (hdir : (s.node d).kind = .directory)
    (hi : s.lookup d n = some i) : i < s.next := by
  unfold Fs.lookup at hi
  split at hi
  · exact Option.some.inj hi ▸ hd
  · split at hi
    · exact Option.some.inj hi ▸ h.parent hd hdir
    · exact h.entries hi

theorem Fs.Wf.lookup_ordinary (h : s.Wf) (hn : ordinary n = true) (hi : s.lookup d n = some i) :
    i < s.next := h.entries (lookup_of_ordinary hn ▸ hi)

theorem Fs.Wf.modify {f : Node → Node} (h : s.Wf)
    (hentries : ∀ {m j}, (f (s.node i)).entries.lookup m = some j → j < s.next)
    (hparent : i < s.next → (f (s.node i)).kind = .directory →
      (f (s.node i)).parent < s.next) : (s.modify i f).Wf := by
  refine ⟨fun {d} m j hj ↦ ?_, fun {d} hd hkind ↦ ?_, h.root, h.cwd⟩
  · rcases eq_or_ne d i with rfl | hne
    · rw [node_modify_self] at hj
      exact hentries hj
    · rw [node_modify_of_ne f hne] at hj
      exact h.entries hj
  · rcases eq_or_ne d i with rfl | hne
    · rw [node_modify_self] at hkind ⊢
      exact hparent hd hkind
    · rw [node_modify_of_ne f hne] at hkind ⊢
      exact h.parent hd hkind

/-- A change that leaves kind, names and parent alone. -/
theorem Fs.Wf.modify_of_names {f : Node → Node} (h : s.Wf)
    (hf : ∀ x, (f x).kind = x.kind ∧ (f x).entries = x.entries ∧ (f x).parent = x.parent) :
    (s.modify i f).Wf := by
  refine h.modify (fun hj ↦ ?_) fun hi hkind ↦ ?_
  · rw [(hf _).2.1] at hj
    exact h.entries hj
  · rw [(hf _).1] at hkind
    rw [(hf _).2.2]
    exact h.parent hi hkind

theorem Fs.Wf.enter (h : s.Wf) (hi : i < s.next) : (s.enter d n i).Wf := by
  refine h.modify (fun {m j} hj ↦ ?_) fun hd hkind ↦ h.parent hd hkind
  rw [lookup_assign] at hj
  split at hj
  · exact Option.some.inj hj ▸ hi
  · exact h.entries hj

theorem Fs.Wf.leave (h : s.Wf) : (s.leave d n).Wf := by
  refine h.modify (fun {m j} hj ↦ ?_) fun hd hkind ↦ h.parent hd hkind
  rw [lookup_unassign] at hj
  split at hj
  · cases hj
  · exact h.entries hj

theorem Fs.Wf.unlinked (h : s.Wf) : (s.unlinked i).Wf := h.modify_of_names fun _ ↦ ⟨rfl, rfl, rfl⟩

theorem Fs.Wf.vacated (h : s.Wf) : (s.vacated d n).Wf := by
  unfold Fs.vacated
  split
  · exact h.unlinked
  · exact h

theorem Fs.Wf.make {x : Node} (h : s.Wf) (hd : d < s.next) (hempty : x.entries = [])
    (hparent : x.kind = .directory → x.parent = d) : (s.make d n x).Wf := by
  have hadd : Fs.Wf { s with node := update s.node s.next x, next := s.next + 1 } := by
    refine ⟨fun {e m j} hj ↦ ?_, fun {e} he hkind ↦ ?_, Nat.lt_succ_of_lt h.root,
      Nat.lt_succ_of_lt h.cwd⟩
    · show j < s.next + 1
      change (update s.node s.next x e).entries.lookup m = some j at hj
      rcases eq_or_ne e s.next with rfl | hne
      · rw [update_self, hempty] at hj
        cases hj
      · rw [update_of_ne hne] at hj
        exact Nat.lt_succ_of_lt (h.entries hj)
    · show (update s.node s.next x e).parent < s.next + 1
      change (update s.node s.next x e).kind = .directory at hkind
      rcases eq_or_ne e s.next with rfl | hne
      · rw [update_self] at hkind ⊢
        exact hparent hkind ▸ Nat.lt_succ_of_lt hd
      · rw [update_of_ne hne] at hkind ⊢
        have hlt : e < s.next := Nat.lt_of_le_of_ne (Nat.le_of_lt_succ he) hne
        exact Nat.lt_succ_of_lt (h.parent hlt hkind)
  exact hadd.enter (Nat.lt_succ_self _)

theorem Fs.Wf.move {d' : Nat} {n' : Name} (h : s.Wf) (hi : i < s.next) (hd' : d' < s.next) :
    (s.move d n d' n' i).Wf := by
  have hnames : (((s.vacated d' n').leave d n).enter d' n' i).Wf :=
    h.vacated.leave.enter (show i < (s.vacated d' n').next by rwa [next_vacated])
  unfold Fs.move
  split
  · exact hnames
  · refine hnames.modify (fun {m j} hj ↦ ?_) fun hlt hkind ↦ ?_
    · split at hj
      · exact hnames.entries hj
      · exact hnames.entries hj
    · split
      · show d' < (s.vacated d' n').next
        rwa [next_vacated]
      · next hne =>
        rw [if_neg hne] at hkind
        exact absurd hkind hne

/-- A call on existing folders keeps a file system well formed. -/
theorem Fs.Wf.change {o : Call} (h : s.Wf) (hchange : s.Change o t)
    (hfolder : ∀ d, o.folder = some d → d < s.next ∧ (s.node d).kind = .directory) : t.Wf := by
  cases hchange with
  | inodes hnode hnext hstart =>
    refine ⟨fun hi ↦ ?_, fun hd hkind ↦ ?_, ?_, ?_⟩
    · rw [hnode] at hi
      exact hnext ▸ h.entries hi
    · rw [hnode] at hkind ⊢
      exact hnext ▸ h.parent (hnext ▸ hd) hkind
    · rw [hstart.1, hnext]
      exact h.root
    · rw [hstart.2, hnext]
      exact h.cwd
  | make d n x hd hempty hparent => exact h.make (hfolder d hd).1 hempty hparent
  | modify f g hf hg => exact h.modify_of_names hg
  | unlink d n i hd => exact h.leave.unlinked
  | rename d n n' i hd hi =>
    obtain ⟨hlt, hdir⟩ := hfolder d hd
    exact h.move (h.lookup hlt hdir hi) hlt

end Wf

/-! ### Where a path begins -/

section Start

variable {s t : Fs}

/-- The folder that a path begins in. -/
def Fs.start (s : Fs) (rooted : Bool) : Nat := if rooted then s.root else s.cwd

theorem start_move (s : Fs) (d : Nat) (n : Name) (d' : Nat) (n' : Name) (i : Nat) (rooted : Bool) :
    (s.move d n d' n' i).start rooted = s.start rooted := by
  have hvacated : (s.vacated d' n').start rooted = s.start rooted := by
    unfold Fs.vacated
    split <;> rfl
  unfold Fs.move
  split <;> exact hvacated

theorem Fs.Change.start {o : Call} (h : s.Change o t) (rooted : Bool) :
    t.start rooted = s.start rooted := by
  cases h with
  | inodes hnode hnext hstart => simp only [Fs.start, hstart.1, hstart.2]
  | make d n x hd hempty hparent => rfl
  | modify f g hf hg => rfl
  | unlink d n i hd => rfl
  | rename d n n' i hd hi => exact start_move s d n d n' i rooted

end Start

end Posix
