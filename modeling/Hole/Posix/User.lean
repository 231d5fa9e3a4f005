import Hole.Posix.Fs
import Hole.Effect.Prog

/-!
# A user at work

A process makes system calls while an unprivileged user changes the same file system. Between any
two calls the user may make any `Move`: create, link, rename and remove entries, in the folders they
own and, in a sticky folder, the entries they own; and write, re-permission and lock what is theirs.
A move that is not permitted changes nothing. Whose an existing inode is, and what kind of thing it
is, no move changes (`keeps_moved`).

`World` is the file system with the number of moves the user will still make, so that "once the user
stops" is a bound and not an assumption about time, and with a record of every call made: what it
found, what it answered and what it left.
-/

namespace Posix

open Effect

/-- What a user does to a file system. -/
inductive Move
  /-- A new file, link or FIFO, or a new folder. -/
  | create (dir : Nat) (name : Name) (kind : Kind) (mode : Nat) (bytes : List UInt8)
  /-- A hard link to any file. -/
  | link (file dir : Nat) (name : Name)
  /-- `unlink`, or `rmdir` of an empty folder. -/
  | remove (dir : Nat) (name : Name)
  | rename (dir : Nat) (name : Name) (newDir : Nat) (newName : Name)
  | chmod (file mode : Nat)
  | write (file : Nat) (bytes : List UInt8)
  | flock (file : Nat)
  | funlock (file : Nat)

/-- The sticky bit. -/
def Node.sticky (x : Node) : Bool := x.mode / 0o1000 % 2 = 1

/-- Whether user `u` may change the name `n` of folder `d`: in a folder of theirs, and in a sticky
one where the name is free or theirs. -/
def Fs.mayChange (u : Nat) (s : Fs) (d : Nat) (n : Name) : Bool :=
  d < s.next && (s.node d).kind = .directory && ordinary n && ((s.node d).uid = u ||
      ((s.node d).sticky && (s.lookup d n).all fun i ↦ (s.node i).uid = u))

/-- The user as a holder of advisory locks. -/
def userLock : Nat := 1

/-- What a move of user `u` leaves. -/
def Fs.moved (u : Nat) (s : Fs) : Move → Fs
  | .create d n kind mode bytes =>
    if s.mayChange u d n && (s.lookup d n).isNone then
      s.make d n (if kind = .directory then .folder u mode d else .fresh kind u mode bytes)
    else s
  | .link i d n =>
    if s.mayChange u d n && (s.lookup d n).isNone && i < s.next && (s.node i).kind ≠ .directory then
      (s.enter d n i).modify i fun x ↦ { x with links := x.links + 1 }
    else s
  | .remove d n =>
    match s.lookup d n with
    | some i =>
      if s.mayChange u d n && ((s.node i).kind ≠ .directory || (s.node i).entries.isEmpty) then
        (s.leave d n).unlinked i
      else s
    | none => s
  | .rename d n d' n' =>
    match s.lookup d n with
    | some i =>
      -- a folder that changes its parent is written to itself
      if s.mayChange u d n && s.mayChange u d' n' &&
          ((s.node i).kind ≠ .directory || d = d' || (s.node i).uid = u) &&
          (s.lookup d' n').all (fun j ↦ i ≠ j && s.replaceable i j) then
        s.move d n d' n' i
      else s
    | none => s
  | .chmod i mode =>
    if i < s.next && (s.node i).uid = u then s.modify i fun x ↦ { x with mode := mode } else s
  | .write i bytes =>
    if i < s.next && (s.node i).uid = u && (s.node i).kind = .file then
      s.modify i fun x ↦ { x with bytes := bytes }
    else s
  | .flock i =>
    if i < s.next && s.lock i = none then
      { s with lock := Function.update s.lock i (some userLock) }
    else s
  | .funlock i =>
    if s.lock i = some userLock then { s with lock := Function.update s.lock i none } else s

/-- What a user's moves leave. -/
def Fs.movedAll (u : Nat) (s : Fs) (moves : List Move) : Fs := moves.foldl (Fs.moved u) s

/-! ### What no move changes -/

/-- **No move changes what an inode is, or whose.** -/
theorem keeps_moved (u : Nat) (s : Fs) (m : Move) : s.Keeps Node.identity (s.moved u m) := by
  cases m with
  | create d n kind mode bytes =>
    simp only [Fs.moved]
    split
    · exact (keeps_make s d n _).identity
    · exact .refl _ s
  | link i d n =>
    simp only [Fs.moved]
    split
    · exact (keeps_enter s d n i).identity.trans (keeps_modify fun _ ↦ rfl)
    · exact .refl _ s
  | remove d n =>
    simp only [Fs.moved]
    split
    · split
      · exact ((keeps_leave s d n).trans (keeps_unlinked _ _)).identity
      · exact .refl _ s
    · exact .refl _ s
  | rename d n d' n' =>
    simp only [Fs.moved]
    split
    · split
      · exact (keeps_move s d n d' n' _).identity
      · exact .refl _ s
    · exact .refl _ s
  | chmod i mode =>
    simp only [Fs.moved]
    split
    · exact keeps_modify fun _ ↦ rfl
    · exact .refl _ s
  | write i bytes =>
    simp only [Fs.moved]
    split
    · exact keeps_modify fun _ ↦ rfl
    · exact .refl _ s
  | flock i =>
    simp only [Fs.moved]
    split
    · exact ⟨Nat.le_refl _, fun _ ↦ rfl⟩
    · exact .refl _ s
  | funlock i =>
    simp only [Fs.moved]
    split
    · exact ⟨Nat.le_refl _, fun _ ↦ rfl⟩
    · exact .refl _ s

theorem keeps_movedAll (u : Nat) (s : Fs) (moves : List Move) :
    s.Keeps Node.identity (s.movedAll u moves) := by
  induction moves generalizing s with
  | nil => exact .refl _ s
  | cons m ms ih => exact (keeps_moved u s m).trans (ih _)

/-- What a permitted change is about. -/
theorem mayChange_cases {u : Nat} {s : Fs} {d : Nat} {n : Name} (h : s.mayChange u d n = true) :
    d < s.next ∧ (s.node d).kind = .directory ∧ ordinary n = true ∧
      ((s.node d).uid = u ∨ ∀ i, s.lookup d n = some i → (s.node i).uid = u) := by
  simp only [Fs.mayChange, Bool.and_eq_true, Bool.or_eq_true, decide_eq_true_eq] at h
  refine ⟨h.1.1.1, h.1.1.2, h.1.2, h.2.imp_right fun hsticky i hi ↦ ?_⟩
  simpa [hi] using hsticky.2

/-- Moves keep a file system well formed. -/
theorem Fs.Wf.moved {u : Nat} {s : Fs} (h : s.Wf) (m : Move) : (s.moved u m).Wf := by
  cases m with
  | create d n kind mode bytes =>
    simp only [Fs.moved]
    split
    · next hmay =>
      simp only [Bool.and_eq_true] at hmay
      refine h.make (mayChange_cases hmay.1).1 ?_ ?_
      · split <;> rfl
      · split
        · exact fun _ ↦ rfl
        · next hkind => exact fun hdir ↦ absurd hdir hkind
    · exact h
  | link i d n =>
    simp only [Fs.moved]
    split
    · next hmay =>
      simp only [Bool.and_eq_true, decide_eq_true_eq] at hmay
      exact (h.enter hmay.1.2).modify_of_names fun _ ↦ ⟨rfl, rfl, rfl⟩
    · exact h
  | remove d n =>
    simp only [Fs.moved]
    split
    · split
      · exact h.leave.unlinked
      · exact h
    · exact h
  | rename d n d' n' =>
    simp only [Fs.moved]
    split
    · next i hi =>
      split
      · next hmay =>
        simp only [Bool.and_eq_true] at hmay
        have hn := (mayChange_cases hmay.1.1.1).2.2.1
        exact h.move (h.lookup_ordinary hn hi) (mayChange_cases hmay.1.1.2).1
      · exact h
    · exact h
  | chmod i mode =>
    simp only [Fs.moved]
    split
    · exact h.modify_of_names fun _ ↦ ⟨rfl, rfl, rfl⟩
    · exact h
  | write i bytes =>
    simp only [Fs.moved]
    split
    · exact h.modify_of_names fun _ ↦ ⟨rfl, rfl, rfl⟩
    · exact h
  | flock i =>
    simp only [Fs.moved]
    split
    · exact ⟨h.entries, h.parent, h.root, h.cwd⟩
    · exact h
  | funlock i =>
    simp only [Fs.moved]
    split
    · exact ⟨h.entries, h.parent, h.root, h.cwd⟩
    · exact h

theorem Fs.Wf.movedAll {u : Nat} {s : Fs} (h : s.Wf) (moves : List Move) :
    (s.movedAll u moves).Wf := by
  induction moves generalizing s with
  | nil => exact h
  | cons m ms ih => exact ih (h.moved m)

/-- No move changes where a path begins. -/
theorem start_moved (u : Nat) (s : Fs) (m : Move) (rooted : Bool) :
    (s.moved u m).start rooted = s.start rooted := by
  cases m with
  | rename d n d' n' =>
    simp only [Fs.moved]
    split
    · split
      · exact start_move s d n d' n' _ rooted
      · rfl
    · rfl
  | remove d n =>
    simp only [Fs.moved]
    split
    · split <;> rfl
    · rfl
  | create d n kind mode bytes =>
    simp only [Fs.moved]
    split <;> rfl
  | link i d n =>
    simp only [Fs.moved]
    split <;> rfl
  | chmod i mode =>
    simp only [Fs.moved]
    split <;> rfl
  | write i bytes =>
    simp only [Fs.moved]
    split <;> rfl
  | flock i =>
    simp only [Fs.moved]
    split <;> rfl
  | funlock i =>
    simp only [Fs.moved]
    split <;> rfl

theorem start_movedAll (u : Nat) (s : Fs) (moves : List Move) (rooted : Bool) :
    (s.movedAll u moves).start rooted = s.start rooted := by
  induction moves generalizing s with
  | nil => rfl
  | cons m ms ih => exact (ih (s.moved u m)).trans (start_moved u s m rooted)

/-! ### What a move does to a name -/

section Names

variable {u d i : Nat} {n : Name} {s : Fs}

/-- **What a move does to a name.** Nothing; or the user may change the name, and if it denotes
something afterwards, then what a name of that folder denoted before, or no folder, or something of
the user's. -/
theorem lookup_moved_cases (hwf : s.Wf) (hd : d < s.next) (hn : ordinary n = true) (m : Move) :
    (s.moved u m).lookup d n = s.lookup d n ∨ s.mayChange u d n = true ∧
      ∀ i, (s.moved u m).lookup d n = some i → (∃ k, ordinary k = true ∧ s.lookup d k = some i) ∨
        ((s.moved u m).node i).kind ≠ .directory ∨ ((s.moved u m).node i).uid = u := by
  have hkeeps := keeps_moved u s m
  cases m with
  | create e k kind mode bytes =>
    simp only [Fs.moved] at hkeeps ⊢
    split
    · next hmay =>
      simp only [Bool.and_eq_true] at hmay
      rw [lookup_make (mayChange_cases hmay.1).2.2.1 _ hd]
      split
      · next hsame =>
        obtain ⟨rfl, rfl⟩ := hsame
        refine .inr ⟨hmay.1, fun i hi ↦ .inr (.inr ?_)⟩
        cases hi
        rw [Fs.make, Fs.enter, node_modify_of_ne _ (Nat.ne_of_gt hd)]
        simp only [Function.update_self]
        split <;> rfl
      · exact .inl rfl
    · exact .inl rfl
  | link j e k =>
    simp only [Fs.moved] at hkeeps ⊢
    split
    · next hmay =>
      rw [if_pos hmay] at hkeeps
      simp only [Bool.and_eq_true, decide_eq_true_eq] at hmay
      have hk := hmay.1.1.1
      have hlookup : ((s.enter e k j).modify j fun x ↦ { x with links := x.links + 1 }).lookup d n =
          if d = e ∧ n = k then some j else s.lookup d n := by
        rw [← lookup_enter (mayChange_cases hk).2.2.1 j]
        exact lookup_modify (fun _ ↦ rfl) fun _ ↦ rfl
      rw [hlookup]
      split
      · next hsame =>
        obtain ⟨rfl, rfl⟩ := hsame
        refine .inr ⟨hk, fun i hi ↦ .inr (.inl ?_)⟩
        cases hi
        rw [hkeeps.kind hmay.1.2]
        exact hmay.2
      · exact .inl rfl
    · exact .inl rfl
  | remove e k =>
    simp only [Fs.moved]
    split
    · split
      · next hmay =>
        simp only [Bool.and_eq_true] at hmay
        rw [lookup_unlinked, lookup_leave (mayChange_cases hmay.1).2.2.1]
        split
        · next hsame =>
          obtain ⟨rfl, rfl⟩ := hsame
          exact .inr ⟨hmay.1, fun _ h ↦ by cases h⟩
        · exact .inl rfl
      · exact .inl rfl
    · exact .inl rfl
  | rename e k e' k' =>
    simp only [Fs.moved] at hkeeps ⊢
    rcases hj : s.lookup e k with - | j
    · exact .inl rfl
    · simp only [hj] at hkeeps ⊢
      split
      · next hmay =>
        rw [if_pos hmay] at hkeeps
        simp only [Bool.and_eq_true, Bool.or_eq_true, decide_eq_true_eq] at hmay
        have hk := mayChange_cases hmay.1.1.1
        rw [lookup_move hk.2.2.1 (mayChange_cases hmay.1.1.2).2.2.1 hn]
        split
        · next hsame =>
          obtain ⟨rfl, rfl⟩ := hsame
          refine .inr ⟨hmay.1.1.2, fun i hi ↦ ?_⟩
          cases hi
          have hlt := hwf.lookup_ordinary hk.2.2.1 hj
          -- a folder that comes from elsewhere is the user's
          rcases hmay.1.2 with (hkind | rfl) | huid
          · exact .inr (.inl ((hkeeps.kind hlt).symm ▸ hkind))
          · exact .inl ⟨k, hk.2.2.1, hj⟩
          · exact .inr (.inr ((hkeeps.uid hlt).trans huid))
        · split
          · next hsame =>
            obtain ⟨rfl, rfl⟩ := hsame
            exact .inr ⟨hmay.1.1.1, fun _ h ↦ by cases h⟩
          · exact .inl rfl
      · exact .inl rfl
  | chmod j mode =>
    simp only [Fs.moved]
    split
    · exact .inl (lookup_modify (fun _ ↦ rfl) fun _ ↦ rfl)
    · exact .inl rfl
  | write j bytes =>
    simp only [Fs.moved]
    split
    · exact .inl (lookup_modify (fun _ ↦ rfl) fun _ ↦ rfl)
    · exact .inl rfl
  | flock j =>
    simp only [Fs.moved]
    split <;> exact .inl rfl
  | funlock j =>
    simp only [Fs.moved]
    split <;> exact .inl rfl

end Names

/-- How many names of a folder meet `q`. -/
def Fs.count (d : Nat) (q : Name → Bool) (s : Fs) : Nat := (s.node d).entries.countP fun e ↦ q e.1

section Count

variable {d : Nat} {q : Name → Bool} {s : Fs}

theorem countP_assign (es : List (Name × Nat)) (n : Name) (i : Nat) :
    (assign es n i).countP (fun e ↦ q e.1) ≤ es.countP (fun e ↦ q e.1) + 1 := by
  have hrest := List.Sublist.countP_le (p := fun e ↦ q e.1)
    (List.filter_sublist (p := fun e : Name × Nat ↦ decide (e.1 ≠ n)) (l := es))
  simp only [assign, List.countP_cons]
  split <;> omega

theorem countP_unassign (es : List (Name × Nat)) (n : Name) :
    (unassign es n).countP (fun e ↦ q e.1) ≤ es.countP (fun e ↦ q e.1) :=
  List.Sublist.countP_le List.filter_sublist

theorem count_modify {i k : Nat} {f : Node → Node}
    (h : ∀ x, (f x).entries.countP (fun e ↦ q e.1) ≤ x.entries.countP (fun e ↦ q e.1) + k) :
    (s.modify i f).count d q ≤ s.count d q + k := by
  unfold Fs.count
  rcases eq_or_ne d i with rfl | hne
  · rw [node_modify_self]
    exact h _
  · rw [node_modify_of_ne f hne]
    exact Nat.le_add_right _ _

theorem count_enter (e : Nat) (n : Name) (i : Nat) :
    (s.enter e n i).count d q ≤ s.count d q + 1 := count_modify fun x ↦ countP_assign x.entries n i

theorem count_leave (e : Nat) (n : Name) : (s.leave e n).count d q ≤ s.count d q :=
  count_modify (k := 0) fun x ↦ countP_unassign x.entries n

theorem count_unlinked (i : Nat) : (s.unlinked i).count d q ≤ s.count d q :=
  count_modify (k := 0) fun _ ↦ Nat.le_refl _

theorem count_make (hd : d < s.next) (e : Nat) (n : Name) (x : Node) :
    (s.make e n x).count d q ≤ s.count d q + 1 := by
  have hadd : Fs.count d q { s with node := Function.update s.node s.next x, next := s.next + 1 } =
      s.count d q := by
    simp only [Fs.count, Function.update_of_ne (Nat.ne_of_lt hd)]
  exact hadd ▸ count_enter e n s.next

theorem count_move (e : Nat) (n : Name) (e' : Nat) (n' : Name) (i : Nat) :
    (s.move e n e' n' i).count d q ≤ s.count d q + 1 := by
  have hgone : (s.vacated e' n').count d q ≤ s.count d q := by
    unfold Fs.vacated
    split
    · exact count_unlinked _
    · exact Nat.le_refl _
  have hnames : (((s.vacated e' n').leave e n).enter e' n' i).count d q ≤ s.count d q + 1 :=
    Nat.le_trans (count_enter e' n' i)
      (Nat.add_le_add_right (Nat.le_trans (count_leave e n) hgone) 1)
  unfold Fs.move
  split
  · exact hnames
  · refine Nat.le_trans (count_modify (k := 0) fun x ↦ ?_) hnames
    split <;> exact Nat.le_refl _

/-- A move adds at most one name to a folder. -/
theorem count_moved {u : Nat} (hd : d < s.next) (m : Move) :
    (s.moved u m).count d q ≤ s.count d q + 1 := by
  have hstay : s.count d q ≤ s.count d q + 1 := Nat.le_succ _
  cases m with
  | create e n kind mode bytes =>
    simp only [Fs.moved]
    split
    · exact count_make hd e n _
    · exact hstay
  | link i e n =>
    simp only [Fs.moved]
    split
    · exact Nat.le_trans (count_modify (k := 0) fun _ ↦ Nat.le_refl _) (count_enter e n i)
    · exact hstay
  | remove e n =>
    simp only [Fs.moved]
    split
    · split
      · exact Nat.le_trans (count_unlinked _) (Nat.le_succ_of_le (count_leave e n))
      · exact hstay
    · exact hstay
  | rename e n e' n' =>
    simp only [Fs.moved]
    split
    · split
      · exact count_move e n e' n' _
      · exact hstay
    · exact hstay
  | chmod i mode =>
    simp only [Fs.moved]
    split
    · exact Nat.le_succ_of_le (count_modify (k := 0) fun _ ↦ Nat.le_refl _)
    · exact hstay
  | write i bytes =>
    simp only [Fs.moved]
    split
    · exact Nat.le_succ_of_le (count_modify (k := 0) fun _ ↦ Nat.le_refl _)
    · exact hstay
  | flock i =>
    simp only [Fs.moved]
    split <;> exact hstay
  | funlock i =>
    simp only [Fs.moved]
    split <;> exact hstay

theorem count_movedAll {u : Nat} (hd : d < s.next) (moves : List Move) :
    (s.movedAll u moves).count d q ≤ s.count d q + moves.length := by
  unfold Fs.movedAll
  induction moves generalizing s with
  | nil => exact Nat.le_refl _
  | cons m ms ih =>
    have hm := count_moved (u := u) (q := q) hd m
    have hms := ih (s := s.moved u m) (Nat.lt_of_lt_of_le hd (keeps_moved u s m).next)
    simp only [List.foldl_cons, List.length_cons]
    omega

end Count

/-! ### Calls among moves -/

/-- A call that was made. -/
structure Event where
  before : Fs
  call : Call
  answer : Ans call
  after : Fs

/-- The file system, how many more moves the user makes, and the calls made so far, the last one
first. -/
structure World where
  fs : Fs
  acts : Nat
  trace : List Event

/-- The file system that a call finds: the user acted in front of it, as far as they still act. -/
def World.met (u : Nat) (w : World) (moves : List Move) : Fs := w.fs.movedAll u (moves.take w.acts)

/-- The world after a call of a process of uid `me` that found the file system `s`. -/
def World.called (w : World) (me : Nat) (s : Fs) (acts : Nat) (o : Call) (fail : Bool) : World :=
  ⟨s.after me 0 o fail, acts, ⟨s, o, s.answer me 0 o fail, s.after me 0 o fail⟩ :: w.trace⟩

/-- A process of uid `me` among the moves of user `u`. A choice is what the user does in front of a
call, and whether the call fails for a reason of its own. -/
def among (u me : Nat) : Env Call Ans World (List Move × Bool) where
  answer w o c := (w.met u c.1).answer me 0 o c.2
  next w o c := w.called me (w.met u c.1) (w.acts - c.1.length) o c.2

theorem keeps_met (u : Nat) (w : World) (moves : List Move) :
    w.fs.Keeps Node.identity (w.met u moves) := keeps_movedAll u _ _

/-- The names that a user adds in front of a call are paid for by moves. -/
theorem count_met {u d : Nat} {q : Name → Bool} {w : World} (hd : d < w.fs.next)
    (moves : List Move) :
    w.acts - moves.length + (w.met u moves).count d q ≤ w.acts + w.fs.count d q := by
  have hcount := count_movedAll (u := u) (q := q) hd (moves.take w.acts)
  have hlength : (moves.take w.acts).length = min w.acts moves.length := List.length_take
  unfold World.met
  omega

/-- In front of a call, the user makes a move less or leaves the file system alone. -/
theorem met_cases (u : Nat) (w : World) (moves : List Move) :
    w.acts - moves.length < w.acts ∨ w.acts - moves.length = w.acts ∧ w.met u moves = w.fs := by
  rcases Nat.eq_zero_or_pos w.acts with hacts | hacts
  · exact .inr ⟨by omega, by simp [World.met, hacts, Fs.movedAll]⟩
  · cases moves with
    | nil => exact .inr ⟨rfl, by simp [World.met, Fs.movedAll]⟩
    | cons m ms =>
      refine .inl ?_
      simp only [List.length_cons]
      omega

end Posix
