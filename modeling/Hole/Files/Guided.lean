import Hole.Files.Walk
import Hole.Posix.User

/-!
# A walk among a user's moves

What holds of the system calls of `open_dir`, whatever an unprivileged user does between them. The
walk judges a link by one call and reads it by another, and it knows the folder it made only by name
and owner; the user may act in between. What the walk can rely on is said once for each of the two:

* a name that the user may not change denotes the same inode at both calls (`Shows`), so a link that
  turns out to be the user's when it is read was judged the user's;
* no folder of somebody else's comes into a folder by the user's moves (`Sole`), so if the made
  folder was alone of its owner there, it is the one that is handed over.

`Guided` collects what every call of a walk meets, `Trailed` what the trail knows of the calls made.
-/

namespace Hole.Files

open Posix Effect
open Fallible (Safe)

/-! ### Links that were followed -/

/-- A call of the walk read a link that the user owns. -/
def Led (u : Nat) (calls : List Event) : Prop :=
  ∃ b a d n t i, (⟨b, .readlinkat d n, .ok t, a⟩ : Event) ∈ calls ∧ b.lookup d n = some i ∧
    (b.node i).uid = u

/-- Before it was read, a link `n` in `d` was judged: `st` was said of it, and `p` of its folder. -/
def JudgedAs (d : Nat) (n : Name) (p st : Meta) (older : List Event) : Prop :=
  ∃ b₁ a₁ b₂ a₂ rest, older = ⟨b₁, .fstat d, .ok p, a₁⟩ :: ⟨b₂, .fstatat d n, .ok st, a₂⟩ :: rest

/-- A link was followed of which `st` was said, in a folder of which `p` was said. -/
def Followed (p st : Meta) (calls : List Event) : Prop :=
  ∃ newer b d n t a older,
    calls = newer ++ (⟨b, .readlinkat d n, t, a⟩ : Event) :: older ∧ JudgedAs d n p st older

/-- Whether a call reads a link. -/
def readsLink (e : Event) : Bool :=
  match e.call with
  | .readlinkat .. => true
  | _ => false

/-- How many links were followed. -/
def links (calls : List Event) : Nat := calls.countP readsLink

/-- **What the calls of a walk meet.** Once a link of the user's was read, folders are made only in
the user's folders; a link is read only after it was judged, in a user's folder only if it was
judged that user's; the links that were judged a user's were all judged one user's; and they are not
too many. -/
structure Guided (u limit : Nat) (calls : List Event) : Prop where
  create : ∀ newer b d n mode v a older,
    calls = newer ++ (⟨b, .mkdirat d n mode, v, a⟩ : Event) :: older → Led u older →
      (b.node d).uid = u
  follow : ∀ newer b d n t a older, calls = newer ++ (⟨b, .readlinkat d n, t, a⟩ : Event) :: older →
      ∃ p st, JudgedAs d n p st older ∧ (b.node d).uid = p.uid ∧ (p.uid ≠ 0 → st.uid = p.uid)
  one : ∃ x, ∀ p st, Followed p st calls → st.uid = 0 ∨ st.uid = x
  bound : links calls ≤ limit

/-- The folder holds no folder of `me`'s. -/
def Alone (me d : Nat) (s : Fs) : Prop :=
  ∀ n i, ordinary n = true → s.lookup d n = some i → (s.node i).kind = .directory →
    (s.node i).uid ≠ me

/-- The last folder that was made was made in `d`, where the file system was `b`. -/
def LastMade (d : Nat) (b : Fs) (calls : List Event) : Prop :=
  ∃ mid n mode v a rest, calls = mid ++ (⟨b, .mkdirat d n mode, .ok v, a⟩ : Event) :: rest ∧
    ∀ e ∈ mid, ∀ d' n' mode', e.call ≠ .mkdirat d' n' mode'

/-- **Which folder is handed over**: if the last folder that was made was made where its maker had
no other folder, then that one. -/
def Handed (me : Nat) (calls : List Event) : Prop :=
  ∀ newer b f uid gid v a older, calls = newer ++ (⟨b, .fchown f uid gid, v, a⟩ : Event) :: older →
    ∃ d b', LastMade d b' older ∧ (Alone me d b' → f = b'.next)

section Calls

variable {u limit me : Nat} {calls : List Event} {e : Event}

theorem split_cons {e e' : Event} {calls newer older : List Event}
    (h : e :: calls = newer ++ e' :: older) :
    (newer = [] ∧ e = e' ∧ calls = older) ∨ ∃ newer', calls = newer' ++ e' :: older := by
  cases newer with
  | nil =>
    obtain ⟨rfl, rfl⟩ := List.cons.inj h
    exact .inl ⟨rfl, rfl, rfl⟩
  | cons e'' newer' => exact .inr ⟨newer', (List.cons.inj h).2⟩

theorem Led.of_cons (h : Led u (e :: calls)) (he : readsLink e = false) : Led u calls := by
  obtain ⟨b, a, d, n, t, i, hmem, hlink⟩ := h
  rcases List.mem_cons.1 hmem with rfl | hmem
  · cases he
  · exact ⟨b, a, d, n, t, i, hmem, hlink⟩

theorem Followed.of_cons {p st : Meta} (h : Followed p st (e :: calls)) (he : readsLink e = false) :
    Followed p st calls := by
  obtain ⟨newer, b, d, n, t, a, older, heq, hjudged⟩ := h
  rcases split_cons heq with ⟨-, rfl, -⟩ | ⟨newer', heq⟩
  · cases he
  · exact ⟨newer', b, d, n, t, a, older, heq, hjudged⟩

/-- A call that makes no folder and reads no link. -/
theorem Guided.cons (h : Guided u limit calls) (he : readsLink e = false)
    (hmake : ∀ d n mode, e.call = .mkdirat d n mode → Led u calls → (e.before.node d).uid = u) :
    Guided u limit (e :: calls) where
  create newer b d n mode v a older heq hled := by
    rcases split_cons heq with ⟨-, rfl, rfl⟩ | ⟨newer', heq⟩
    · exact hmake d n mode rfl hled
    · exact h.create newer' b d n mode v a older heq hled
  follow newer b d n t a older heq := by
    rcases split_cons heq with ⟨-, rfl, rfl⟩ | ⟨newer', heq⟩
    · cases he
    · exact h.follow newer' b d n t a older heq
  one := by
    obtain ⟨x, hx⟩ := h.one
    exact ⟨x, fun p st hf ↦ hx p st (hf.of_cons he)⟩
  bound := by
    rw [links, List.countP_cons, he]
    exact h.bound

theorem Handed.cons (h : Handed me calls) (he : ∀ f uid gid, e.call ≠ .fchown f uid gid) :
    Handed me (e :: calls) := by
  intro newer b f uid gid v a older heq
  rcases split_cons heq with ⟨-, rfl, -⟩ | ⟨newer', heq⟩
  · exact absurd rfl (he f uid gid)
  · exact h newer' b f uid gid v a older heq

theorem LastMade.cons {d : Nat} {b : Fs} (h : LastMade d b calls)
    (he : ∀ d' n' mode', e.call ≠ .mkdirat d' n' mode') : LastMade d b (e :: calls) := by
  obtain ⟨mid, n, mode, v, a, rest, rfl, hmid⟩ := h
  exact ⟨e :: mid, n, mode, v, a, rest, rfl, List.forall_mem_cons.2 ⟨he, hmid⟩⟩

theorem guided_nil : Guided u limit [] where
  create newer _ _ _ _ _ _ _ heq := by simp at heq
  follow newer _ _ _ _ _ _ heq := by simp at heq
  one := ⟨0, fun p st h ↦ by
    obtain ⟨newer, b, d, n, t, a, older, heq, -⟩ := h
    simp at heq⟩
  bound := Nat.zero_le _

theorem handed_nil : Handed me [] := by
  intro newer b f uid gid v a older heq
  simp at heq

end Calls

/-! ### What the user cannot do -/

section User

variable {u me d m : Nat} {n : Name} {s : Fs}

/-- The name of a folder that is not the user's denotes something of `x`'s, who is not the user. -/
def Shows (u d : Nat) (n : Name) (x : Nat) (s : Fs) : Prop :=
  (s.node d).uid ≠ u → x ≠ u → ∃ i, s.lookup d n = some i ∧ (s.node i).uid = x

/-- **The user does not change what such a name denotes.** -/
theorem Shows.moved {x : Nat} (h : Shows u d n x s) (hwf : s.Wf) (hd : d < s.next)
    (hn : ordinary n = true) (move : Move) : Shows u d n x (s.moved u move) := by
  have hkeeps := keeps_moved u s move
  intro hfolder hx
  rw [hkeeps.uid hd] at hfolder
  obtain ⟨i, hi, huid⟩ := h hfolder hx
  rcases lookup_moved_cases hwf hd hn move with hsame | ⟨hmay, -⟩
  · exact ⟨i, hsame.trans hi, (hkeeps.uid (hwf.lookup_ordinary hn hi)).trans huid⟩
  · rcases (mayChange_cases hmay).2.2.2 with hown | hown
    · exact absurd hown hfolder
    · exact absurd (huid.symm.trans (hown i hi)) hx

theorem Shows.movedAll {x : Nat} (h : Shows u d n x s) (hwf : s.Wf) (hd : d < s.next)
    (hn : ordinary n = true) (moves : List Move) : Shows u d n x (s.movedAll u moves) := by
  induction moves generalizing s with
  | nil => exact h
  | cons move moves ih =>
    exact ih (h.moved hwf hd hn move) (hwf.moved move)
      (Nat.lt_of_lt_of_le hd (keeps_moved u s move).next)

/-- No folder of `me`'s in the folder, but `m`. -/
def Sole (me d m : Nat) (s : Fs) : Prop :=
  ∀ n i, ordinary n = true → s.lookup d n = some i → (s.node i).kind = .directory →
    (s.node i).uid = me → i = m

/-- **The user brings no other into it.** -/
theorem Sole.moved (h : Sole me d m s) (hu : u ≠ me) (hwf : s.Wf) (hd : d < s.next) (move : Move) :
    Sole me d m (s.moved u move) := by
  have hkeeps := keeps_moved u s move
  intro n i hn hi hkind huid
  have hold {k : Name} (hk : ordinary k = true) (hlookup : s.lookup d k = some i) : i = m := by
    have hlt := hwf.lookup_ordinary hk hlookup
    exact h k i hk hlookup ((hkeeps.kind hlt).symm.trans hkind) ((hkeeps.uid hlt).symm.trans huid)
  rcases lookup_moved_cases hwf hd hn move with hsame | ⟨-, hcases⟩
  · exact hold hn (hsame.symm.trans hi)
  · rcases hcases i hi with ⟨k, hk, hlookup⟩ | hother | howner
    · exact hold hk hlookup
    · exact absurd hkind hother
    · exact absurd (howner.symm.trans huid) hu

theorem Sole.movedAll (h : Sole me d m s) (hu : u ≠ me) (hwf : s.Wf) (hd : d < s.next)
    (moves : List Move) : Sole me d m (s.movedAll u moves) := by
  induction moves generalizing s with
  | nil => exact h
  | cons move moves ih =>
    exact ih (h.moved hu hwf hd move) (hwf.moved move)
      (Nat.lt_of_lt_of_le hd (keeps_moved u s move).next)

/-- A folder that was made alone is the only one. -/
theorem Alone.make {mode : Nat} (h : Alone me d s) (hn : ordinary n = true) (hwf : s.Wf)
    (hd : d < s.next) : Sole me d s.next (s.make d n (.folder me mode d)) := by
  have hkeeps := (keeps_make s d n (.folder me mode d)).identity
  intro k i hk hi hkind huid
  rw [lookup_make hn _ hd] at hi
  split at hi
  · exact (Option.some.inj hi).symm
  · have hlt := hwf.lookup_ordinary hk hi
    refine absurd ((hkeeps.uid hlt).symm.trans huid) (h k i hk hi ?_)
    exact (hkeeps.kind hlt).symm.trans hkind

end User

/-! ### Rules -/

section Rules

variable {u me limit d : Nat} {name : Name} {trail : Trail Nat} {w : World} {α : Type}

/-- What holds at every point of a walk. -/
structure Sound (u me limit : Nat) (w : World) : Prop where
  guided : Guided u limit w.trace
  handed : u ≠ me → Handed me w.trace
  wf : w.fs.Wf
  /-- Every path begins in a folder. -/
  start : ∀ rooted, w.fs.start rooted < w.fs.next ∧
    (w.fs.node (w.fs.start rooted)).kind = .directory

/-- A folder of the file system. -/
def Folder (d : Nat) (w : World) : Prop := d < w.fs.next ∧ (w.fs.node d).kind = .directory

/-- What the trail knows of the calls made. -/
structure Trailed (u limit : Nat) (trail : Trail Nat) (w : World) : Prop where
  led : Led u w.trace → trail.ledBy = some u
  judged : ∀ p st, Followed p st w.trace → st.uid = 0 ∨ trail.ledBy = some st.uid
  count : links w.trace ≤ trail.followed
  bound : trail.followed ≤ limit
  limit : trail.limit = limit

/-- Folders stay folders, and the trail goes on knowing what it knew. -/
structure Kept (u limit : Nat) (w w' : World) : Prop where
  folder : ∀ {d}, Folder d w → Folder d w'
  trailed : ∀ {trail}, Trailed u limit trail w → Trailed u limit trail w'

theorem Kept.refl (w : World) : Kept u limit w w := ⟨id, id⟩

theorem Kept.trans {w' w'' : World} (h : Kept u limit w w') (h' : Kept u limit w' w'') :
    Kept u limit w w'' := ⟨fun hd ↦ h'.folder (h.folder hd), fun ht ↦ h'.trailed (h.trailed ht)⟩

theorem Folder.met (h : Folder d w) (moves : List Move) :
    d < (w.met u moves).next ∧ ((w.met u moves).node d).kind = .directory :=
  ⟨Nat.lt_of_lt_of_le h.1 (keeps_met u w moves).next, ((keeps_met u w moves).kind h.1).trans h.2⟩

variable {o : Call}

theorem Folder.next (h : Folder d w) (c : List Move × Bool) :
    Folder d ((among u me).next w o c) := by
  obtain ⟨hlt, hkind⟩ := h.met (u := u) c.1
  have hchange := change_after me 0 (w.met u c.1) o c.2
  exact ⟨Nat.lt_of_lt_of_le hlt hchange.kind.next, (hchange.kind.node hlt).trans hkind⟩

theorem start_next (h : ∀ rooted, Folder (w.fs.start rooted) w) (c : List Move × Bool)
    (rooted : Bool) :
    Folder (((among u me).next w o c).fs.start rooted) ((among u me).next w o c) := by
  have hstart : ((among u me).next w o c).fs.start rooted = w.fs.start rooted :=
    ((change_after me 0 (w.met u c.1) o c.2).start rooted).trans (start_movedAll u _ _ rooted)
  rw [hstart]
  exact (h rooted).next c

/-- Calls that do not read a link. -/
def Blind (o : Call) : Prop := ∀ d n, o ≠ .readlinkat d n

theorem readsLink_of_blind (ho : Blind o) {b a : Fs} {v : Ans o} :
    readsLink ⟨b, o, v, a⟩ = false := by
  unfold readsLink
  split
  · next heq => exact absurd heq (ho _ _)
  · rfl

theorem kept_next (ho : Blind o) (c : List Move × Bool) :
    Kept u limit w ((among u me).next w o c) := by
  refine ⟨fun hd ↦ hd.next c, fun {trail} ht ↦ ?_⟩
  have hreads {b a : Fs} {v : Ans o} : readsLink ⟨b, o, v, a⟩ = false := readsLink_of_blind ho
  refine ⟨fun h ↦ ht.led (h.of_cons hreads), fun p st h ↦ ht.judged p st (h.of_cons hreads), ?_,
    ht.bound, ht.limit⟩
  show links (_ :: w.trace) ≤ _
  rw [links, List.countP_cons, hreads]
  exact ht.count

/-- Calls that only look, at names and at folders. -/
structure Looks (o : Call) : Prop where
  blind : Blind o
  folder : o.folder = none
  target : o.target = none

theorem Sound.next (h : Sound u me limit w) (hblind : Blind o)
    (hchown : ∀ f uid gid, o ≠ .fchown f uid gid) (c : List Move × Bool)
    (hfolder : ∀ d, o.folder = some d → Folder d w)
    (hmake : ∀ d n mode, o = .mkdirat d n mode → Led u w.trace → ((w.met u c.1).node d).uid = u) :
    Sound u me limit ((among u me).next w o c) where
  guided := h.guided.cons (readsLink_of_blind hblind) fun d n mode heq hled ↦
    hmake d n mode heq hled
  handed hu := (h.handed hu).cons hchown
  wf := (h.wf.movedAll _).change (change_after me 0 (w.met u c.1) o c.2) fun d hd ↦
    (hfolder d hd).met c.1
  start := start_next h.start c

theorem Looks.ne_fchown (ho : Looks o) (f uid : Nat) (gid : Option Nat) :
    o ≠ .fchown f uid gid := by
  rintro rfl
  cases ho.target

theorem Sound.look (h : Sound u me limit w) (ho : Looks o) (c : List Move × Bool) :
    Sound u me limit ((among u me).next w o c) := by
  refine h.next ho.blind ho.ne_fchown c (fun d hd ↦ nomatch ho.folder.symm.trans hd) ?_
  rintro d n mode rfl
  cases ho.folder

/-- **Calls that only look.** -/
theorem safe_look {E : Error → World → Prop} {Q : Val o → World → Prop} (ho : Looks o)
    (h : Sound u me limit w)
    (hok : ∀ c v, (w.met u c.1).answer me 0 o c.2 = .ok v → Q v ((among u me).next w o c))
    (herror : ∀ c kind, (w.met u c.1).answer me 0 o c.2 = .error kind →
      E (.io kind) ((among u me).next w o c)) :
    Safe (among u me) (Sound u me limit) E Q (sys o) w := by
  refine ⟨h, fun c ↦ ⟨h.look ho c, ?_⟩⟩
  show Fallible.post E Q (((w.met u c.1).answer me 0 o c.2).mapError Error.io) _
  rcases hanswer : (w.met u c.1).answer me 0 o c.2 with kind | v
  · exact herror c kind hanswer
  · exact hok c v hanswer

theorem looks_fstat (f : Nat) : Looks (.fstat f) := ⟨nofun, rfl, rfl⟩

theorem looks_fstatat (d : Nat) (n : Name) : Looks (.fstatat d n) := ⟨nofun, rfl, rfl⟩

theorem looks_start (rooted : Bool) : Looks (.start rooted) := ⟨nofun, rfl, rfl⟩

theorem blind_openat (d : Nat) (n : Name) (flags : Flags) (mode : Nat) :
    Blind (.openat d n flags mode) := nofun

theorem blind_fchown (f uid : Nat) (gid : Option Nat) : Blind (.fchown f uid gid) := nofun

theorem blind_mkdirat (d : Nat) (n : Name) (mode : Nat) : Blind (.mkdirat d n mode) := nofun

theorem looks_openat (d : Nat) (n : Name) {flags : Flags} (mode : Nat)
    (hcreate : flags.create = false) : Looks (.openat d n flags mode) :=
  ⟨blind_openat d n flags mode, by simp [Call.folder, hcreate], rfl⟩

/-- A folder that is opened is one. -/
theorem safe_openDirAt (h : Sound u me limit w) (hd : Folder d w) :
    Safe (among u me) (Sound u me limit) (fun _ w' ↦ Kept u limit w w')
      (fun next w' ↦ Folder next w' ∧ Kept u limit w w') (openDirAt d name) w := by
  refine safe_look (looks_openat d name 0 rfl) h
    (fun c (next : Nat) hnext ↦ ⟨?_, kept_next (blind_openat _ _ _ _) c⟩) fun c _ _ ↦
      kept_next (blind_openat _ _ _ _) c
  obtain ⟨hlookup, hopens, hafter⟩ := opened_of_answer rfl hnext
  obtain ⟨hlt, hkind⟩ := hd.met (u := u) c.1
  show next < ((w.met u c.1).after me 0 _ c.2).next ∧
    (((w.met u c.1).after me 0 _ c.2).node next).kind = .directory
  rw [hafter]
  refine ⟨(h.wf.movedAll _).lookup hlt hkind hlookup, ?_⟩
  simp only [Fs.opens] at hopens
  split at hopens
  · cases hopens
  · next hdir => exact hdir
  · cases hopens
  · cases hopens

theorem ownerOfUid_eq_user {uid id : Nat} : ownerOfUid uid = .user id ↔ uid = id ∧ id ≠ 0 := by
  unfold ownerOfUid
  split
  · next h => simp [h, eq_comm]
  · next h =>
    rw [Owner.user.injEq]
    exact ⟨fun heq ↦ ⟨heq, heq ▸ h⟩, fun heq ↦ heq.1⟩

/-- A walk that is bound to a user stands in a folder of theirs. -/
def Bound (trail : Trail Nat) (d : Nat) (w : World) : Prop :=
  ∀ id, trail.ledBy = some id → (w.fs.node d).uid = id

theorem Bound.met (h : Bound trail d w) (hd : Folder d w) (moves : List Move) :
    ∀ id, trail.ledBy = some id → ((w.met u moves).node d).uid = id :=
  fun id hid ↦ ((keeps_met u w moves).uid hd.1).trans (h id hid)

/-- A call leaves the owner of every inode but its target alone. -/
theorem uid_next {i : Nat} (hi : i < w.fs.next) (ho : o.target = none) (c : List Move × Bool) :
    (((among u me).next w o c).fs.node i).uid = (w.fs.node i).uid := by
  have hkeeps := keeps_met u w c.1
  have hchange := change_after me 0 (w.met u c.1) o c.2
  have hdata := hchange.data (Nat.lt_of_lt_of_le hi hkeeps.next) (by rw [ho]; exact nofun)
  exact (congrArg (fun x ↦ x.2.1) hdata).trans (hkeeps.uid hi)

theorem safe_staysWithTheLinkOwner (h : Sound u me limit w) :
    Safe (among u me) (Sound u me limit) (fun _ _ ↦ True)
      (fun _ w' ↦ Bound trail d w' ∧ Kept u limit w w')
      (trail.staysWithTheLinkOwner (standingOwner d)) w := by
  unfold Trail.staysWithTheLinkOwner
  rcases hled : trail.ledBy with - | id
  · refine ⟨h, ?_, .refl w⟩
    intro id hid
    cases hled.symm.trans hid
  · refine Safe.bind (R := fun owner w' ↦
      owner = ownerOfUid (w'.fs.node d).uid ∧ Kept u limit w w') ?_ ?_
    · refine (safe_look (o := .fstat d) (looks_fstat d) h (Q := fun st w' ↦
        Meta.uid st = (w'.fs.node d).uid ∧ Kept u limit w w') ?_ fun _ _ _ ↦ trivial).bind ?_
      · intro c st hst
        obtain ⟨rfl, hafter⟩ := stat_of_answer hst
        refine ⟨?_, kept_next (looks_fstat d).blind c⟩
        show _ = (((w.met u c.1).after me 0 _ c.2).node d).uid
        rw [hafter]
        rfl
      · rintro st w' h' ⟨hst, hkept⟩
        exact ⟨h', congrArg ownerOfUid hst, hkept⟩
    · rintro (- | owner) w' h' ⟨howner, hkept⟩
      · exact ⟨h', trivial⟩
      · dsimp only
        split
        · next heq =>
          refine ⟨h', ?_, hkept⟩
          intro id' hid'
          obtain rfl := Option.mem_unique hled hid'
          exact (ownerOfUid_eq_user.1 howner.symm).1.trans heq
        · exact ⟨h', trivial⟩

/-! ### Making a folder and handing it over -/

/-- A folder was made, and no other call since then made one; and if its maker had no other folder
there, nobody has brought one in. -/
structure Made (u me d : Nat) (b : Fs) (w : World) : Prop where
  last : LastMade d b w.trace
  sole : u ≠ me → Alone me d b → Sole me d b.next w.fs

/-- The folder that was opened is the made one, if it is its maker's. -/
structure Reopened (u me d made : Nat) (b : Fs) (w : World) : Prop where
  last : LastMade d b w.trace
  lt : made < w.fs.next
  sole : u ≠ me → Alone me d b → (w.fs.node made).uid = me → made = b.next

theorem safe_openMade {b : Fs} {flags : Flags} {mode : Nat} (hcreate : flags.create = false)
    (hdirectory : flags.directory = true) (h : Sound u me limit w) (hd : Folder d w)
    (hn : ordinary name = true) (hmade : Made u me d b w) :
    Safe (among u me) (Sound u me limit) (fun _ w' ↦ Kept u limit w w')
      (fun made w' ↦ Reopened u me d made b w' ∧ Kept u limit w w')
      (sys (.openat d name flags mode)) w := by
  refine safe_look (looks_openat d name mode hcreate) h
    (fun c (made : Nat) hopen ↦ ⟨?_, kept_next (blind_openat _ _ _ _) c⟩) fun c _ _ ↦
      kept_next (blind_openat _ _ _ _) c
  obtain ⟨hlookup, hopens, hafter⟩ := opened_of_answer hcreate hopen
  have hlt : made < (w.met u c.1).next := (h.wf.movedAll _).lookup_ordinary hn hlookup
  have hkind : ((w.met u c.1).node made).kind = .directory := by
    simp only [Fs.opens, hdirectory] at hopens
    split at hopens
    · cases hopens
    · next hdir => exact hdir
    · cases hopens
    · cases hopens
  refine ⟨hmade.last.cons (by rintro _ _ _ ⟨⟩), ?_, fun hu halone ↦ ?_⟩
  · show made < ((w.met u c.1).after me 0 _ c.2).next
    rw [hafter]
    exact hlt
  · show (((w.met u c.1).after me 0 _ c.2).node made).uid = me → _
    rw [hafter]
    exact (hmade.sole hu halone).movedAll hu h.wf hd.1 _ name made hn hlookup hkind

theorem Sound.chown {made uid : Nat} {gid : Option Nat} {b : Fs} (h : Sound u me limit w)
    (hreopened : Reopened u me d made b w) (huid : (w.fs.node made).uid = me)
    (c : List Move × Bool) : Sound u me limit ((among u me).next w (.fchown made uid gid) c) where
  guided := h.guided.cons rfl nofun
  handed hu := by
    intro newer b' f uid' gid' v a older heq
    rcases split_cons heq with ⟨-, he, rfl⟩ | ⟨newer', heq⟩
    · obtain ⟨rfl, -⟩ : made = f ∧ _ := by
        have hcall := congrArg Event.call he
        exact Call.fchown.inj hcall
      exact ⟨d, b, hreopened.last, fun halone ↦ hreopened.sole hu halone huid⟩
    · exact h.handed hu newer' b' f uid' gid' v a older heq
  wf := (h.wf.movedAll _).change (change_after me 0 (w.met u c.1) _ c.2) nofun
  start := start_next h.start c

theorem safe_unopenableMade {err : Error} {Q : Unit → World → Prop} (h : Sound u me limit w) :
    Safe (among u me) (Sound u me limit) (fun _ _ ↦ True) Q
      (unopenableMade d name err) w := by
  refine (Fallible.safe_attempt (Q := fun _ _ ↦ True)
    (safe_look (looks_fstatat d name) h (fun _ _ _ ↦ trivial) fun _ _ _ ↦ trivial)).bind ?_
  rintro (- | entry) w' h' -
  · exact ⟨h', trivial⟩
  · dsimp only
    split <;> exact ⟨h', trivial⟩

theorem safe_handOver {made uid : Nat} {b : Fs} {st : Meta} (h : Sound u me limit w)
    (hre : Reopened u me d made b w) (hst : st.uid = (w.fs.node made).uid) :
    Safe (among u me) (Sound u me limit) (fun _ _ ↦ True)
      (fun _ w' ↦ Kept u limit w w') (handOver made me uid st) w := by
  unfold handOver
  split
  · next hown =>
    refine ⟨h, fun c ↦ ?_⟩
    have h' : Sound u me limit ((among u me).next w (.fchown made uid none) c) :=
      h.chown hre (hst.symm.trans hown) c
    refine ⟨h', ?_⟩
    rcases (among u me).answer w (.fchown made uid none) c with kind | v
    · exact trivial
    · exact kept_next (blind_fchown _ _ _) c
  · exact ⟨h, trivial⟩

theorem safe_giveMadeFolder {uid : Nat} {b : Fs} (h : Sound u me limit w) (hd : Folder d w)
    (hn : ordinary name = true) (hmade : Made u me d b w) :
    Safe (among u me) (Sound u me limit) (fun _ _ ↦ True)
      (fun _ w' ↦ Kept u limit w w') (giveMadeFolder d name me uid) w := by
  unfold giveMadeFolder
  split
  · exact ⟨h, .refl w⟩
  · refine (Fallible.safe_attempt (Q := fun r w' ↦ Kept u limit w w' ∧
      ∀ made, r = .ok made → Reopened u me d made b w')
      ((safe_openMade rfl rfl h hd hn hmade).imp (fun _ _ _ hk ↦ ⟨hk, nofun⟩) ?_)).bind ?_
    · rintro made w' - ⟨hre, hk⟩
      refine ⟨hk, ?_⟩
      rintro _ ⟨rfl⟩
      exact hre
    · rintro (err | made) w' h' ⟨hk, hre⟩
      · exact safe_unopenableMade h'
      · have hre := hre made rfl
        refine (safe_look (o := .fstat made) (looks_fstat made) h' (Q := fun st w'' ↦
          Kept u limit w w'' ∧ Reopened u me d made b w'' ∧
            Meta.uid st = (w''.fs.node made).uid) ?_ fun _ _ _ ↦ trivial).bind ?_
        · intro c st hst
          obtain ⟨rfl, hafter⟩ := stat_of_answer hst
          have huid : (((among u me).next w' (.fstat made) c).fs.node made).uid =
              (w'.fs.node made).uid := uid_next hre.lt rfl c
          refine ⟨hk.trans (kept_next (looks_fstat made).blind c),
            ⟨hre.last.cons nofun, ?_, ?_⟩, ?_⟩
          · exact Nat.lt_of_lt_of_le hre.lt (Nat.le_trans (keeps_met u w' c.1).next
              (change_after me 0 (w'.met u c.1) _ c.2).kind.next)
          · intro hu halone hown
            exact hre.sole hu halone (huid.symm.trans hown)
          · show _ = (((w'.met u c.1).after me 0 _ c.2).node made).uid
            rw [hafter]
            rfl
        · rintro st w'' h'' ⟨hk', hre', huid⟩
          exact (safe_handOver h'' hre' huid).mono fun _ _ _ hk'' ↦ hk'.trans hk''

variable {n : Name}

/-- A folder that was made is new. -/
theorem made_of_answer {who mode : Nat} {s : Fs} {fail : Bool} {v : Unit}
    (h : s.answer me who (.mkdirat d n mode) fail = .ok v) :
    s.lookup d n = none ∧
      s.after me who (.mkdirat d n mode) fail = s.make d n (.folder me mode d) := by
  rcases fail with - | -
  · rcases hlookup : s.lookup d n with - | i
    · exact ⟨rfl, by simp [Fs.after, Fs.act, hlookup]⟩
    · simp [Fs.answer, Fs.act, hlookup, Except.map] at h
  · cases h

theorem safe_mkdirat {mode : Nat} (h : Sound u me limit w) (hd : Folder d w)
    (hn : ordinary name = true) (hbound : Bound trail d w)
    (htrailed : Trailed u limit trail w) :
    Safe (among u me) (Sound u me limit) (fun _ w' ↦ Kept u limit w w')
      (fun _ w' ↦ (∃ b, Made u me d b w') ∧ Kept u limit w w') (sys (.mkdirat d name mode)) w := by
  refine ⟨h, fun c ↦ ⟨?_, ?_⟩⟩
  · refine h.next (blind_mkdirat _ _ _) nofun c ?_ ?_
    · rintro _ ⟨rfl⟩
      exact hd
    · rintro _ _ _ ⟨rfl⟩ hled
      exact hbound.met hd c.1 u (htrailed.led hled)
  · show Fallible.post _ _ (((w.met u c.1).answer me 0 (.mkdirat d name mode) c.2).mapError _) _
    rcases hanswer : (w.met u c.1).answer me 0 (.mkdirat d name mode) c.2 with kind | v
    · exact kept_next (blind_mkdirat _ _ _) c
    · refine ⟨⟨w.met u c.1, ?_, fun _ halone ↦ ?_⟩, kept_next (blind_mkdirat _ _ _) c⟩
      · refine ⟨[], name, mode, v, (w.met u c.1).after me 0 (.mkdirat d name mode) c.2, w.trace, ?_,
          nofun⟩
        show (⟨_, _, (w.met u c.1).answer me 0 (.mkdirat d name mode) c.2,
          _⟩ : Event) :: w.trace = _
        rw [hanswer]
        rfl
      · obtain ⟨-, hafter⟩ := made_of_answer hanswer
        show Sole me d _ ((w.met u c.1).after me 0 (.mkdirat d name mode) c.2)
        rw [hafter]
        exact halone.make hn (h.wf.movedAll _) (hd.met c.1).1

theorem safe_makeFolder (h : Sound u me limit w) (hd : Folder d w) (hn : ordinary name = true)
    (htrailed : Trailed u limit trail w) :
    Safe (among u me) (Sound u me limit) (fun _ _ ↦ True)
      (fun _ w' ↦ Kept u limit w w') (makeFolder d name me trail) w := by
  refine (safe_staysWithTheLinkOwner h).bind ?_
  rintro - w₁ h₁ ⟨hbound, hk₁⟩
  refine (Fallible.safe_attempt (Q := fun r w' ↦ Kept u limit w w' ∧
    ∀ v, r = .ok v → ∃ b, Made u me d b w')
    ((safe_mkdirat h₁ (hk₁.folder hd) hn hbound (hk₁.trailed htrailed)).imp
      (fun _ _ _ hk ↦ ⟨hk₁.trans hk, nofun⟩) fun _ _ _ hm ↦
        ⟨hk₁.trans hm.2, fun _ _ ↦ hm.1⟩)).bind ?_
  rintro (err | v) w₂ h₂ ⟨hk₂, hmade⟩
  · dsimp only
    split
    · exact ⟨h₂, hk₂⟩
    · exact ⟨h₂, trivial⟩
  · obtain ⟨b, hmade⟩ := hmade v rfl
    dsimp only
    split
    · exact (safe_giveMadeFolder h₂ (hk₂.folder hd) hn hmade).mono fun _ _ _ hk₃ ↦ hk₂.trans hk₃
    · exact ⟨h₂, hk₂⟩

/-! ### Following a link -/

variable {trail' : Trail Nat}

/-- **What a trail that admits a link says.** -/
theorem follow_ok {dir link : Owner Nat} (h : trail.follow dir link = .ok trail') :
    trail.followed < trail.limit ∧ dir.mayEnter link = true ∧
      trail'.followed = trail.followed + 1 ∧ trail'.limit = trail.limit ∧
      (∀ id, link = .user id → trail'.ledBy = some id) ∧
      ∀ id, trail.ledBy = some id → trail'.ledBy = some id := by
  simp only [Trail.follow] at h
  split at h
  · cases h
  · next hmayOpen =>
    simp only [Bool.or_eq_true, decide_eq_true_eq, not_or, Nat.not_le, Bool.not_eq_true,
      Bool.not_eq_false'] at hmayOpen
    refine ⟨hmayOpen.1, hmayOpen.2, ?_⟩
    split at h
    · cases h
      exact ⟨rfl, rfl, nofun, fun _ hid ↦ hid⟩
    · split at h
      · next hled =>
        cases h
        refine ⟨rfl, rfl, ?_, fun _ hid ↦ nomatch hled.symm.trans hid⟩
        rintro _ ⟨rfl⟩
        rfl
      · next hled =>
        split at h
        · next heq =>
          cases h
          refine ⟨rfl, rfl, ?_, fun _ hid ↦ hid⟩
          rintro _ ⟨rfl⟩
          exact heq ▸ hled
        · cases h

/-- What was said of a name, and that the user has not changed since whose it is unless it is
theirs. -/
structure Said (u d : Nat) (name : Name) (entry : Meta) (w : World) : Prop where
  last : ∃ b a rest, w.trace = ⟨b, .fstatat d name, .ok entry, a⟩ :: rest
  shows : Shows u d name entry.uid w.fs

/-- What was said of a name and then of its folder. -/
structure Weighed (u d : Nat) (name : Name) (p st : Meta) (w : World) : Prop where
  judged : JudgedAs d name p st w.trace
  shows : Shows u d name st.uid w.fs
  owner : p.uid = (w.fs.node d).uid

variable {calls : List Event}

theorem JudgedAs.inj {p st p' st' : Meta} (h : JudgedAs d n p st calls)
    (h' : JudgedAs d n p' st' calls) : p = p' ∧ st = st' := by
  obtain ⟨b₁, a₁, b₂, a₂, rest, rfl⟩ := h
  obtain ⟨b₁', a₁', b₂', a₂', rest', heq⟩ := h'
  simp only [List.cons.injEq, Event.mk.injEq] at heq
  obtain ⟨⟨-, -, hp, -⟩, ⟨-, -, hst, -⟩, -⟩ := heq
  exact ⟨Except.ok.inj (eq_of_heq hp), Except.ok.inj (eq_of_heq hst)⟩

theorem safe_weigh {entry : Meta} (h : Sound u me limit w) (hd : Folder d w)
    (hn : ordinary name = true) (hsaid : Said u d name entry w) :
    Safe (among u me) (Sound u me limit) (fun _ _ ↦ True)
      (fun p w' ↦ Weighed u d name p entry w' ∧ Kept u limit w w') (sys (.fstat d)) w := by
  refine safe_look (o := .fstat d) (looks_fstat d) h (fun c p hp ↦ ?_) fun _ _ _ ↦ trivial
  obtain ⟨rfl, hafter⟩ := stat_of_answer hp
  obtain ⟨b, a, rest, htrace⟩ := hsaid.last
  refine ⟨⟨⟨w.met u c.1, (w.met u c.1).after me 0 (.fstat d) c.2, b, a, rest, ?_⟩, ?_, ?_⟩,
    kept_next (looks_fstat d).blind c⟩
  · show (⟨_, _, (w.met u c.1).answer me 0 (.fstat d) c.2, _⟩ : Event) :: w.trace = _
    rw [hp, htrace]
  · show Shows u d name entry.uid ((w.met u c.1).after me 0 (.fstat d) c.2)
    rw [hafter]
    exact hsaid.shows.movedAll h.wf hd.1 hn _
  · show _ = (((w.met u c.1).after me 0 (.fstat d) c.2).node d).uid
    rw [hafter]
    rfl

/-- A link that was followed is the last one, or one before it. -/
theorem Followed.of_read {b a : Fs} {t : Ans (.readlinkat d n)} {p st p' st' : Meta}
    (hjudged : JudgedAs d n p st calls)
    (h : Followed p' st' (⟨b, .readlinkat d n, t, a⟩ :: calls)) :
    st' = st ∨ Followed p' st' calls := by
  obtain ⟨newer, b', d', n', t', a', older, heq, hjudged'⟩ := h
  rcases split_cons heq with ⟨-, he, rfl⟩ | ⟨newer', heq⟩
  · obtain ⟨rfl, rfl⟩ := Call.readlinkat.inj (congrArg Event.call he)
    exact .inl (hjudged.inj hjudged').2.symm
  · exact .inr ⟨newer', b', d', n', t', a', older, heq, hjudged'⟩

variable {p st : Meta}

/-- A link is read that was judged before. -/
theorem Guided.read {b a : Fs} {t : Ans (.readlinkat d n)} {x : Nat} (h : Guided u limit calls)
    (hjudged : JudgedAs d n p st calls) (howner : (b.node d).uid = p.uid)
    (hmayOpen : p.uid ≠ 0 → st.uid = p.uid)
    (hone : ∀ p' st', Followed p' st' calls → st'.uid = 0 ∨ st'.uid = x)
    (hst : st.uid = 0 ∨ st.uid = x) (hbound : links calls < limit) :
    Guided u limit (⟨b, .readlinkat d n, t, a⟩ :: calls) where
  create newer b' d' n' mode v a' older heq hled := by
    rcases split_cons heq with ⟨-, he, -⟩ | ⟨newer', heq⟩
    · cases congrArg Event.call he
    · exact h.create newer' b' d' n' mode v a' older heq hled
  follow newer b' d' n' t' a' older heq := by
    rcases split_cons heq with ⟨-, he, rfl⟩ | ⟨newer', heq⟩
    · obtain ⟨rfl, rfl⟩ := Call.readlinkat.inj (congrArg Event.call he)
      obtain rfl : b = b' := congrArg Event.before he
      exact ⟨p, st, hjudged, howner, hmayOpen⟩
    · exact h.follow newer' b' d' n' t' a' older heq
  one := by
    refine ⟨x, fun p' st' hf ↦ ?_⟩
    rcases hf.of_read hjudged with rfl | hf
    · exact hst
    · exact hone p' st' hf
  bound := by
    rw [links, List.countP_cons]
    exact hbound

/-- Owners that are let in are the same, unless the folder is the system's. -/
theorem uid_of_mayEnter (h : (metaOwner p).mayEnter (metaOwner st) = true) (hp : p.uid ≠ 0) :
    st.uid = p.uid := by
  simp only [metaOwner, ownerOfUid, hp, if_false, Owner.mayEnter] at h
  split at h
  · cases h
  · exact Owner.user.inj (of_decide_eq_true h)

/-- **A link that is read and is the user's was judged the user's.** -/
theorem led_of_read {i : Nat} (hu : u ≠ 0)
    (hfollow : trail.follow (metaOwner p) (metaOwner st) = .ok trail') {s : Fs}
    (hshows : Shows u d name st.uid s) (howner : p.uid = (s.node d).uid)
    (hi : s.lookup d name = some i) (huid : (s.node i).uid = u) : trail'.ledBy = some u := by
  obtain ⟨-, henter, -, -, hled, -⟩ := follow_ok hfollow
  have hst : st.uid = u := by
    by_contra hne
    by_cases hfolder : (s.node d).uid = u
    · exact hne ((uid_of_mayEnter henter (howner.trans hfolder ▸ hu)).trans (howner.trans hfolder))
    · obtain ⟨j, hj, hjuid⟩ := hshows hfolder hne
      obtain rfl := Option.mem_unique hi hj
      exact hne (hjuid.symm.trans huid)
  refine hled u ?_
  rw [metaOwner, hst]
  exact ownerOfUid_eq_user.2 ⟨rfl, hu⟩

theorem safe_readLink (hu : u ≠ 0) (h : Sound u me limit w) (hd : Folder d w)
    (hn : ordinary name = true) (htrailed : Trailed u limit trail w)
    (hweighed : Weighed u d name p st w)
    (hfollow : trail.follow (metaOwner p) (metaOwner st) = .ok trail') :
    Safe (among u me) (Sound u me limit) (fun _ _ ↦ True)
      (fun _ w' ↦ Trailed u limit trail' w' ∧ ∀ d', Folder d' w → Folder d' w')
      (sys (.readlinkat d name)) w := by
  obtain ⟨hlimit, henter, hfollowed, hlimit', hled, hstay⟩ := follow_ok hfollow
  have hst : st.uid = 0 ∨ trail'.ledBy = some st.uid := by
    rcases Nat.eq_zero_or_pos st.uid with hzero | hpos
    · exact .inl hzero
    · exact .inr (hled _ (ownerOfUid_eq_user.2 ⟨rfl, Nat.ne_of_gt hpos⟩))
  have hfollowedBy (p' st' : Meta) (hf : Followed p' st' w.trace) :
      st'.uid = 0 ∨ trail'.ledBy = some st'.uid :=
    (htrailed.judged p' st' hf).imp_right (hstay _)
  have hlinks : links w.trace < limit := by
    have hcount := htrailed.count
    have heq := htrailed.limit
    omega
  refine ⟨h, fun c ↦ ?_⟩
  have hkeeps := keeps_met u w c.1
  have howner : p.uid = ((w.met u c.1).node d).uid := hweighed.owner.trans (hkeeps.uid hd.1).symm
  have hshows := hweighed.shows.movedAll h.wf hd.1 hn (c.1.take w.acts)
  have hget {x : Nat} (hx : x = 0 ∨ trail'.ledBy = some x) : x = 0 ∨ x = trail'.ledBy.getD 0 := by
    refine hx.imp_right fun hsome ↦ ?_
    rw [hsome]
    rfl
  have hguided (t : Ans (.readlinkat d name)) (a : Fs) :
      Guided u limit (⟨w.met u c.1, .readlinkat d name, t, a⟩ :: w.trace) :=
    h.guided.read hweighed.judged howner.symm (uid_of_mayEnter henter)
      (fun p' st' hf ↦ hget (hfollowedBy p' st' hf)) (hget hst) hlinks
  have hsound : Sound u me limit ((among u me).next w (.readlinkat d name) c) :=
    ⟨hguided _ _, fun hne ↦ (h.handed hne).cons nofun,
      (h.wf.movedAll _).change (change_after me 0 (w.met u c.1) _ c.2) nofun,
      start_next h.start c⟩
  refine ⟨hsound, ?_⟩
  rcases (among u me).answer w (.readlinkat d name) c with kind | t
  · exact trivial
  · refine ⟨⟨?_, ?_, ?_, ?_, ?_⟩, fun _ hd' ↦ hd'.next c⟩
    · rintro ⟨b, a, d', n', t', i, hmem, hi, huid⟩
      rcases List.mem_cons.1 hmem with he | hmem
      · obtain ⟨rfl, rfl⟩ := Call.readlinkat.inj (congrArg Event.call he)
        obtain rfl : b = w.met u c.1 := congrArg Event.before he
        exact led_of_read hu hfollow hshows howner hi huid
      · exact hstay _ (htrailed.led ⟨b, a, d', n', t', i, hmem, hi, huid⟩)
    · intro p' st' hf
      rcases hf.of_read hweighed.judged with rfl | hf
      · exact hst
      · exact hfollowedBy p' st' hf
    · show links (_ :: w.trace) ≤ _
      rw [links, List.countP_cons, hfollowed]
      exact Nat.succ_le_succ htrailed.count
    · rw [hfollowed]
      have heq := htrailed.limit
      omega
    · exact hlimit'.trans htrailed.limit

theorem safe_followLink {entry : Meta} {walk : Walk} (hu : u ≠ 0) (h : Sound u me limit w)
    (hd : Folder d w) (hn : ordinary name = true) (htrailed : Trailed u limit walk.trail w)
    (hsaid : Said u d name entry w) :
    Safe (among u me) (Sound u me limit) (fun _ _ ↦ True)
      (fun walk' w' ↦ Folder d w' ∧ Trailed u limit walk'.trail w')
      (followLink d name entry walk) w := by
  refine (safe_weigh h hd hn hsaid).bind ?_
  rintro p w₁ h₁ ⟨hweighed, hk₁⟩
  rcases hfollow : walk.trail.follow (metaOwner p) (metaOwner entry) with why | trail'
  · simp only
    exact ⟨h₁, trivial⟩
  · simp only
    refine (safe_readLink hu h₁ (hk₁.folder hd) hn (hk₁.trailed htrailed) hweighed hfollow).bind ?_
    rintro target w₂ h₂ ⟨htrailed₂, hfolder₂⟩
    exact ⟨h₂, hfolder₂ d (hk₁.folder hd), htrailed₂⟩

/-! ### The walk -/

/-- What `fstatat` says of a name. -/
theorem safe_say (h : Sound u me limit w) :
    Safe (among u me) (Sound u me limit) (fun _ w' ↦ Kept u limit w w')
      (fun entry w' ↦ Said u d name entry w' ∧ Kept u limit w w') (sys (.fstatat d name)) w := by
  refine safe_look (o := .fstatat d name) (looks_fstatat d name) h (fun c entry hentry ↦ ?_)
    fun c _ _ ↦ kept_next (looks_fstatat d name).blind c
  obtain ⟨i, hi, rfl⟩ := statat_of_answer.1 _ hentry
  have hafter : (w.met u c.1).after me 0 (.fstatat d name) c.2 = w.met u c.1 := by
    rcases c.2 with - | -
    · simp [Fs.after, Fs.act, hi]
    · rfl
  refine ⟨⟨⟨w.met u c.1, (w.met u c.1).after me 0 (.fstatat d name) c.2, w.trace, ?_⟩, ?_⟩,
    kept_next (looks_fstatat d name).blind c⟩
  · show (⟨_, _, (w.met u c.1).answer me 0 (.fstatat d name) c.2, _⟩ : Event) :: w.trace = _
    rw [hentry]
  · show Shows u d name _ ((w.met u c.1).after me 0 (.fstatat d name) c.2)
    rw [hafter]
    exact fun _ _ ↦ ⟨i, hi, rfl⟩

variable {create : Bool} {walk : Walk}

theorem safe_descendLoop (hu : u ≠ 0) (passes : Nat) (h : Sound u me limit w) (hd : Folder d w)
    (hn : ordinary name = true) (htrailed : Trailed u limit walk.trail w) :
    Safe (among u me) (Sound u me limit) (fun _ _ ↦ True)
      (fun r w' ↦ Folder (r.1.getD d) w' ∧ Trailed u limit r.2.trail w')
      (descendLoop d name create me walk passes) w := by
  induction passes generalizing w with
  | zero => exact ⟨h, trivial⟩
  | succ passes ih =>
    refine (Fallible.safe_attempt (Q := fun r w' ↦ Kept u limit w w' ∧
      ∀ next, r = .ok next → Folder next w') ((safe_openDirAt h hd).imp
        (fun _ _ _ hk ↦ ⟨hk, nofun⟩) ?_)).bind ?_
    · rintro next w' - ⟨hnext, hk⟩
      refine ⟨hk, ?_⟩
      rintro _ ⟨rfl⟩
      exact hnext
    rintro (openErr | next) w₁ h₁ ⟨hk₁, hnext⟩
    · refine (Fallible.safe_attempt (Q := fun r w' ↦ Kept u limit w w' ∧
        ∀ entry, r = .ok entry → Said u d name entry w') ((safe_say h₁).imp
          (fun _ _ _ hk ↦ ⟨hk₁.trans hk, nofun⟩) ?_)).bind ?_
      · rintro entry w' - ⟨hsaid, hk⟩
        refine ⟨hk₁.trans hk, ?_⟩
        rintro _ ⟨rfl⟩
        exact hsaid
      rintro (err | entry) w₂ h₂ ⟨hk₂, hsaid⟩
      · dsimp only
        split
        · split
          · exact (safe_makeFolder h₂ (hk₂.folder hd) hn (hk₂.trailed htrailed)).bind
              fun _ w₃ h₃ hk₃ ↦ ih h₃ (hk₃.folder (hk₂.folder hd))
                (hk₃.trailed (hk₂.trailed htrailed))
          · exact ⟨h₂, trivial⟩
        · exact ⟨h₂, trivial⟩
      · dsimp only
        split
        · exact (safe_followLink hu h₂ (hk₂.folder hd) hn (hk₂.trailed htrailed)
            (hsaid entry rfl)).bind fun _ _ h₃ hpost ↦ ⟨h₃, hpost⟩
        · exact ⟨h₂, trivial⟩
        · exact ⟨h₂, trivial⟩
        · exact ⟨h₂, trivial⟩
    · exact ⟨h₁, hnext next rfl, hk₁.trailed htrailed⟩

/-- A component without a zero byte is an ordinary name. -/
theorem ordinary_of_component {n : Component} (h : n.1.contains 0 = false) :
    ordinary n.1 = true := by
  obtain ⟨n, hempty, hdot, hdotDot, hslash⟩ := n
  have hslash : n.contains 47 = false := by
    rw [Bool.eq_false_iff]
    exact fun hc ↦ hslash (List.contains_iff_mem.1 hc)
  simp only [ordinary, Bool.and_eq_true, decide_eq_true_eq, Bool.not_eq_true']
  exact ⟨⟨⟨⟨hempty, hdot⟩, hdotDot⟩, hslash⟩, h⟩

theorem safe_descend {n : Component} (hu : u ≠ 0) (passes : Nat) (h : Sound u me limit w)
    (hd : Folder d w) (htrailed : Trailed u limit walk.trail w) :
    Safe (among u me) (Sound u me limit) (fun _ _ ↦ True)
      (fun r w' ↦ Folder (r.1.getD d) w' ∧ Trailed u limit r.2.trail w')
      (descend d n create me walk passes) w := by
  unfold descend cstr
  split
  · exact ⟨h, trivial⟩
  · next hzero =>
    exact safe_descendLoop hu passes h hd (ordinary_of_component (Bool.eq_false_iff.2 hzero))
      htrailed

theorem safe_openStart (rooted : Bool) (h : Sound u me limit w) :
    Safe (among u me) (Sound u me limit) (fun _ _ ↦ True)
      (fun d w' ↦ Folder d w' ∧ Kept u limit w w') (openStart rooted) w := by
  refine safe_look (o := .start rooted) (looks_start rooted) h (fun c (d : Nat) hd ↦ ?_)
    fun _ _ _ ↦ trivial
  refine ⟨?_, kept_next (looks_start rooted).blind c⟩
  have hstart : d = (w.met u c.1).start rooted := by
    rcases hfail : c.2 with - | -
    · rw [hfail] at hd
      exact (Except.ok.inj hd).symm
    · rw [hfail] at hd
      cases hd
  rw [hstart.trans (start_movedAll u w.fs _ rooted)]
  exact Folder.next (h.start rooted) c

theorem safe_walkOn {passes : Nat} (hu : u ≠ 0) (rounds : Nat) (h : Sound u me limit w)
    (hd : Folder d w) (htrailed : Trailed u limit walk.trail w) :
    Safe (among u me) (Sound u me limit) (fun _ _ ↦ True)
      (fun r w' ↦ Folder r.1 w' ∧ Trailed u limit r.2 w')
      (walkOn create me passes d walk rounds) w := by
  induction rounds generalizing w d walk with
  | zero => exact ⟨h, trivial⟩
  | succ rounds ih =>
    obtain ⟨steps, trail⟩ := walk
    rcases steps with - | ⟨- | - | n, steps⟩
    · exact ⟨h, hd, htrailed⟩
    · exact (safe_openStart true h).bind fun next w' h' hpost ↦
        ih h' hpost.1 (hpost.2.trailed htrailed)
    · exact ((safe_openDirAt h hd).imp (fun _ _ _ _ ↦ trivial) fun _ _ _ hpost ↦ hpost).bind
        fun next w' h' hpost ↦ ih h' hpost.1 (hpost.2.trailed htrailed)
    · have hdescend : Safe (among u me) (Sound u me limit) _ _
          (descend d n create me ⟨steps, trail⟩ passes) w := safe_descend hu passes h hd htrailed
      refine hdescend.bind ?_
      rintro ⟨- | next, walk'⟩ w' h' ⟨hfolder, htrailed'⟩
      · exact ih h' hfolder htrailed'
      · exact ih h' hfolder htrailed'

/-- The folder a walk ends in is the link owner's, if a link of the user's was read, and it is the
expected owner's or the caller's. -/
structure Ending (u caller : Nat) (owner : Option (Nat × Nat)) (dir : Nat) (w : World) : Prop where
  led : Led u w.trace → (w.fs.node dir).uid = u
  owner : ∀ o, owner = some o → (w.fs.node dir).uid = o.1 ∨ (w.fs.node dir).uid = caller

variable {owner : Option (Nat × Nat)}

theorem Ending.next {caller : Nat} (h : Ending u caller owner d w) (hd : Folder d w) (ho : Looks o)
    (c : List Move × Bool) : Ending u caller owner d ((among u me).next w o c) := by
  have huid : (((among u me).next w o c).fs.node d).uid = (w.fs.node d).uid :=
    uid_next hd.1 ho.target c
  exact ⟨fun hled ↦ huid.trans (h.led (hled.of_cons (readsLink_of_blind ho.blind))),
    fun x hx ↦ huid ▸ h.owner x hx⟩

theorem safe_checkOwner {caller : Nat} (h : Sound u me limit w) (hd : Folder d w)
    (hled : Led u w.trace → (w.fs.node d).uid = u) :
    Safe (among u me) (Sound u me limit) (fun _ _ ↦ True)
      (fun _ w' ↦ Folder d w' ∧ Ending u caller owner d w') (checkOwner d caller owner) w := by
  rcases owner with - | ⟨uid, gid⟩
  · exact ⟨h, hd, hled, nofun⟩
  · refine (safe_look (o := .fstat d) (looks_fstat d) h (Q := fun st w' ↦ Folder d w' ∧
      (Led u w'.trace → (w'.fs.node d).uid = u) ∧ Meta.uid st = (w'.fs.node d).uid) ?_
      fun _ _ _ ↦ trivial).bind ?_
    · intro c st hst
      obtain ⟨rfl, hafter⟩ := stat_of_answer hst
      have huid : (((among u me).next w (.fstat d) c).fs.node d).uid = (w.fs.node d).uid :=
        uid_next hd.1 rfl c
      refine ⟨hd.next c, fun hled' ↦ huid.trans (hled (hled'.of_cons rfl)), ?_⟩
      show _ = (((w.met u c.1).after me 0 (.fstat d) c.2).node d).uid
      rw [hafter]
      rfl
    · rintro st w' h' ⟨hd', hled', hst⟩
      unfold expectOwner
      split
      · exact ⟨h', trivial⟩
      · next hmatch =>
        refine ⟨h', hd', hled', ?_⟩
        rintro _ ⟨rfl⟩
        rw [← hst]
        exact Decidable.or_iff_not_not_and_not.2 hmatch

/-- **The walk is guided**, and it ends where it should. -/
theorem safe_openDir {path : List UInt8} {caller rounds passes : Nat} (hu : u ≠ 0)
    (h : Sound u me limit w) (htrace : w.trace = []) :
    Safe (among u me) (Sound u me limit) (fun _ _ ↦ True)
      (fun dir w' ↦ Ending u caller owner dir w')
      (openDir path create owner caller me limit rounds passes) w := by
  have htrailed : Trailed u limit (.new limit) w := by
    refine ⟨?_, ?_, ?_, Nat.zero_le _, rfl⟩
    · rintro ⟨b, a, d, n, t, i, hmem, -⟩
      rw [htrace] at hmem
      cases hmem
    · rintro p st ⟨newer, b, d, n, t, a, older, heq, -⟩
      rw [htrace] at heq
      simp at heq
    · rw [htrace]
      exact Nat.zero_le _
  refine (safe_openStart _ h).bind fun start w₁ h₁ hpost₁ ↦ ?_
  refine (safe_walkOn hu rounds h₁ hpost₁.1 (hpost₁.2.trailed htrailed)).bind ?_
  rintro ⟨cur, trail⟩ w₂ h₂ ⟨hcur, htrailed₂⟩
  refine (safe_staysWithTheLinkOwner h₂).bind fun _ w₃ h₃ hpost₃ ↦ ?_
  refine (safe_checkOwner h₃ (hpost₃.2.folder hcur)
    fun hled ↦ hpost₃.1 u ((hpost₃.2.trailed htrailed₂).led hled)).bind fun _ w₄ h₄ hpost₄ ↦ ?_
  refine safe_look (looks_openat cur dot 0 rfl) h₄ (fun c (dir : Nat) hdir ↦ ?_) fun _ _ _ ↦ trivial
  obtain ⟨hlookup, -, -⟩ := opened_of_answer rfl hdir
  obtain rfl : cur = dir := Option.some.inj hlookup
  exact hpost₄.2.next hpost₄.1 (looks_openat cur dot 0 rfl) c

end Rules

/-! ### Runs -/

/-- A file system that a walk can start on: well formed, with every path beginning in a folder. -/
structure Walkable (s : Fs) : Prop where
  wf : s.Wf
  start : ∀ rooted, s.start rooted < s.next ∧ (s.node (s.start rooted)).kind = .directory

theorem sound_of_walkable {u me limit : Nat} {w : World} (h : Walkable w.fs)
    (htrace : w.trace = []) :
    Sound u me limit w where
  guided := htrace ▸ guided_nil
  handed _ := htrace ▸ handed_nil
  wf := h.wf
  start := h.start

/-- **The folder that is handed over is the one that was made**, whatever the user does, if the
folder it was made in held no other folder of the maker's at that moment. -/
theorem hands_over_made (path : List UInt8) (create : Bool) (owner : Option (Nat × Nat))
    (u me caller limit rounds passes : Nat) (w : World) (schedule : List (List Move × Bool))
    (hu : u ≠ 0) (hme : u ≠ me) (hwalk : Walkable w.fs) (htrace : w.trace = []) :
    let ended := (openDir path create owner caller me limit rounds passes).run.run (among u me) w
      schedule
    ∀ newer b f uid gid v a older,
      ended.2.1.trace = newer ++ (⟨b, .fchown f uid gid, v, a⟩ : Event) :: older →
        ∃ d b', LastMade d b' older ∧ (Alone me d b' → f = b'.next) := by
  intro ended
  have hsafe : Safe (among u me) _ _ _
      (openDir path create owner caller me limit rounds passes) w :=
    safe_openDir hu (sound_of_walkable hwalk htrace) htrace
  exact (hsafe.sound schedule).1.handed hme

/-- The folder that a call made. -/
def madeBy (e : Event) : Option Nat :=
  match e with
  | ⟨b, .mkdirat .., .ok _, _⟩ => some b.next
  | _ => none

theorem findSome?_of_lastMade {d : Nat} {b : Fs} {calls : List Event} (h : LastMade d b calls) :
    calls.findSome? madeBy = some b.next := by
  obtain ⟨mid, n, mode, v, a, rest, rfl, hmid⟩ := h
  have hnone : mid.findSome? madeBy = none := by
    refine List.findSome?_eq_none_iff.2 fun e he ↦ ?_
    unfold madeBy
    split
    · exact absurd rfl (hmid _ he _ _ _)
    · rfl
  rw [List.findSome?_append, hnone]
  rfl

/-- A folder of user 1000 with the given names: a link to the folder itself is one to give, and a
folder of root's another. -/
def linkedFolder (names : List (Name × Nat)) : Fs where
  node i :=
    match i with
    | 0 => { Node.folder 0 0o755 0 with entries := [([117], 1)] }
    | 1 => { Node.folder 1000 0o755 0 with entries := names }
    | 2 => .fresh .symlink 1000 0o777 [46]
    | _ => .folder 0 0o755 1
  next := 4
  lock _ := none
  root := 0
  cwd := 0

theorem linkedFolder_walkable {names : List (Name × Nat)}
    (hnames : ∀ {n i}, names.lookup n = some i → i < 4) : Walkable (linkedFolder names) := by
  have hroot : 0 < 4 := by decide
  refine ⟨⟨fun {d n i} h ↦ ?_, fun {d} hd _ ↦ ?_, hroot, hroot⟩, ?_⟩
  · match d with
    | 0 =>
      obtain ⟨front, back, hentries, -⟩ := List.lookup_eq_some_iff.1 h
      have hmem : (n, i) ∈ [(([117] : Name), 1)] := by
        show (n, i) ∈ ((linkedFolder names).node 0).entries
        simp [hentries]
      obtain ⟨-, rfl⟩ := Prod.mk.inj (List.mem_singleton.1 hmem)
      exact (by decide : 1 < 4)
    | 1 => exact hnames h
    | 2 => cases h
    | _ + 3 => cases h
  · match d with
    | 0 => exact hroot
    | 1 => exact hroot
    | 2 => exact hroot
    | _ + 3 => exact (by decide : 1 < 4)
  · rintro (- | -)
    · exact ⟨hroot, rfl⟩
    · exact ⟨hroot, rfl⟩

theorem oneLink_walkable : Walkable (linkedFolder [([108], 2)]) := by
  refine linkedFolder_walkable fun {n i} h ↦ ?_
  obtain ⟨front, back, hentries, -⟩ := List.lookup_eq_some_iff.1 h
  have hmem : (n, i) ∈ [(([108] : Name), 2)] := by simp [hentries]
  obtain ⟨-, rfl⟩ := Prod.mk.inj (List.mem_singleton.1 hmem)
  decide

/-- The walk of root to `/u/l/n` in such a folder, with the moves of the user that come after the
folder was made. -/
def walkBelowLink (names : List (Name × Nat)) (moves : List Move) :
    Option (Except Error Nat) × World × List (List Move × Bool) :=
  (openDir [47, 117, 47, 108, 47, 110] true none 0 0 40 9 9).run.run (among 1000 0)
    ⟨linkedFolder names, 1, []⟩
    (List.replicate 10 ([], false) ++ [(moves, false), ([], false), ([], false)])

theorem hands_over_made_alone :
    ∃ b gid v a older, (walkBelowLink [([108], 2)] []).2.1.trace =
        (⟨b, .fchown 4 1000 gid, v, a⟩ : Event) :: older ∧
      ∃ d b', LastMade d b' older ∧ (Alone 0 d b' → 4 = b'.next) := by
  have h := hands_over_made [47, 117, 47, 108, 47, 110] true none 1000 0 0 40 9 9
    ⟨linkedFolder [([108], 2)], 1, []⟩
    (List.replicate 10 ([], false) ++ [([], false), ([], false), ([], false)]) (by decide)
    (by decide) oneLink_walkable rfl
  exact ⟨_, _, _, _, _, rfl, h [] _ 4 1000 _ _ _ _ rfl⟩

/-- A folder that root left there is renamed to the made one's name, and handed over in its
place. -/
theorem leftover_handed_over :
    ∃ b gid v a older, (walkBelowLink [([108], 2),
    ([111], 3)] [.rename 1 [111] 1 [110]]).2.1.trace =
        (⟨b, .fchown 3 1000 gid, v, a⟩ : Event) :: older ∧
      ∀ d b', LastMade d b' older → 3 ≠ b'.next := by
  refine ⟨_, _, _, _, _, rfl, fun d b' h ↦ ?_⟩
  have hmade := findSome?_of_lastMade h
  rintro heq
  rw [← heq] at hmade
  cases hmade

end Hole.Files
