import Mathlib.Data.Set.Function
import Mathlib.Order.Interval.Set.Defs
import Hole.Files.OwnOnly

/-!
# The loops end

The loops of the lock open, of `append_own_file` and of `create_temp` go round again only where the
name they look at was taken, or is not what it was. In a pass in which the user makes no move this
happens at most once, after which the name is free; so the passes are bounded by the moves the user
makes, whatever they are and whenever they come.

`Still` is how a program is followed through a pass: either the user has moved since, or the file
system is as the program's own calls left it.
-/

namespace Hole.Files

open Posix Effect
open Fallible (safe_attempt safe_onError safe_lift Safe)

/-- Since `A` moves were left, the user has moved, or the file system is as `P` says. -/
def Since (A : Nat) (P : Fs → Prop) (w : World) : Prop := w.acts < A ∨ w.acts = A ∧ P w.fs

theorem Since.mono {A : Nat} {P P' : Fs → Prop} {w : World} (h : Since A P w)
    (hP : ∀ s, P s → P' s) : Since A P' w := h.imp_right fun h' ↦ ⟨h'.1, hP _ h'.2⟩

/-- From a file system that meets `P`, left alone by the user, `p` ends as `T` says; and it never
runs out of passes. -/
def Still {α : Type} (u me A : Nat) (P : Fs → Prop) (T : Except Error α → Fs → Prop) (p : Io α) :
    Prop :=
  ∀ w, Since A P w → Safe (among u me) (fun _ ↦ True)
    (fun e w' ↦ e ≠ .exhausted ∧ Since A (T (.error e)) w') (fun a ↦ Since A (T (.ok a))) p w

section Still

variable {α β : Type} {u me A : Nat} {P : Fs → Prop} {T : Except Error α → Fs → Prop}

theorem still_pure {a : α} (h : ∀ s, P s → T (.ok a) s) :
    Still u me A P T (pure a : Io α) := fun _ hw ↦ ⟨trivial, hw.mono h⟩

theorem still_throw {e : Error} (he : e ≠ .exhausted) (h : ∀ s, P s → T (.error e) s) :
    Still u me A P T (throw e : Io α) := fun _ hw ↦ ⟨trivial, he, hw.mono h⟩

variable {p : Io α}

theorem still_bind {f : α → Io β} {T' : Except Error β → Fs → Prop} (hp : Still u me A P T p)
    (hf : ∀ a, Still u me A (T (.ok a)) T' (f a))
    (herror : ∀ e s, T (.error e) s → T' (.error e) s) :
    Still u me A P T' (p >>= f) :=
  fun w hw ↦ ((hp w hw).imp (fun e _ _ h ↦ ⟨h.1, h.2.mono (herror e)⟩)
    fun _ _ _ h ↦ h).bind fun a w' _ hw' ↦ hf a w' hw'

theorem Still.mono {T' : Except Error α → Fs → Prop} (hp : Still u me A P T p)
    (h : ∀ r s, T r s → T' r s) : Still u me A P T' p :=
  fun w hw ↦ (hp w hw).imp (fun _ _ _ h' ↦ ⟨h'.1, h'.2.mono (h _)⟩) fun _ _ _ h' ↦ h'.mono (h _)

/-- A stronger precondition. -/
theorem Still.comp {P' : Fs → Prop} (hp : Still u me A P T p) (h : ∀ s, P' s → P s) :
    Still u me A P' T p := fun w hw ↦ hp w (hw.mono h)

/-- How a part ended decides what comes after it. -/
theorem still_attempt {f : Except Error α → Io β} {T' : Except Error β → Fs → Prop}
    (hp : Still u me A P T p) (hok : ∀ a, Still u me A (T (.ok a)) T' (f (.ok a)))
    (herror : ∀ e, e ≠ .exhausted → Still u me A (T (.error e)) T' (f (.error e))) :
    Still u me A P T' (Fallible.attempt p >>= f) := by
  refine fun w hw ↦ (safe_attempt (Q := fun r w' ↦
    (∀ e, r = .error e → e ≠ .exhausted) ∧ Since A (T r) w') ((hp w hw).imp ?_ ?_)).bind ?_
  · rintro e w' - ⟨he, hw'⟩
    refine ⟨?_, hw'⟩
    rintro _ ⟨rfl⟩
    exact he
  · exact fun a w' _ hw' ↦ ⟨nofun, hw'⟩
  · rintro (e | a) w' - ⟨he, hw'⟩
    · exact herror e (he e rfl) w' hw'
    · exact hok a w' hw'

/-- A call: the user moves in front of it, or it finds what was there. -/
theorem since_next {o : Call} {w : World} (P' : Ans o → Fs → Prop) (hw : Since A P w)
    (hstep : ∀ s fail, P s → P' (s.answer me 0 o fail) (s.after me 0 o fail))
    (c : List Move × Bool) :
    Since A (P' ((among u me).answer w o c)) ((among u me).next w o c) := by
  rcases hw with hlt | ⟨rfl, hP⟩
  · exact .inl (Nat.lt_of_le_of_lt (Nat.sub_le _ _) hlt)
  · rcases met_cases u w c.1 with hlt | ⟨hacts, hmet⟩
    · exact .inl hlt
    · refine .inr ⟨hacts, ?_⟩
      show P' ((w.met u c.1).answer me 0 o c.2) ((w.met u c.1).after me 0 o c.2)
      rw [hmet]
      exact hstep w.fs c.2 hP

theorem still_sys {o : Call} {T : Except Error (Val o) → Fs → Prop}
    (hstep : ∀ s fail, P s → T ((s.answer me 0 o fail).mapError .io) (s.after me 0 o fail)) :
    Still u me A P T (sys o) := by
  refine fun w hw ↦ ⟨trivial, fun c ↦ ⟨trivial, ?_⟩⟩
  have hnext := since_next (u := u) (fun a ↦ T (a.mapError .io)) hw hstep c
  rcases hanswer : (among u me).answer w o c with kind | v
  · rw [hanswer] at hnext
    exact ⟨nofun, hnext⟩
  · rw [hanswer] at hnext
    exact hnext

/-- The user has no more moves left at the end of a program than at its beginning. -/
theorem acts_le (p : Prog Call Ans α) (w : World) :
    p.Safe (among u me) (fun _ ↦ True) (fun _ w' ↦ w'.acts ≤ w.acts) w := by
  induction p generalizing w with
  | pure a => exact ⟨trivial, Nat.le_refl _⟩
  | call o k ih =>
    refine ⟨trivial, fun c ↦ (ih _ _).mono fun _ _ _ h ↦ Nat.le_trans h (Nat.sub_le _ _)⟩

/-- A fact that is not about the file system is kept. -/
theorem still_frame (hp : Still u me A P T p) (c : Prop) :
    Still u me A (fun s ↦ P s ∧ c) (fun r s ↦ T r s ∧ c) p := by
  intro w hw
  have hkeep {P' : Fs → Prop} {w' : World} (h : Since A P' w') (hle : w'.acts ≤ w.acts) :
      Since A (fun s ↦ P' s ∧ c) w' := by
    rcases h with hlt | ⟨heq, hP'⟩
    · exact .inl hlt
    · rcases hw with hlt | ⟨-, -, hc⟩
      · exact absurd hlt (Nat.not_lt.2 (heq ▸ hle))
      · exact .inr ⟨heq, hP', hc⟩
  refine ((hp w (hw.mono fun _ h ↦ h.1)).and (acts_le p.run w)).mono fun r w' _ h ↦ ?_
  rcases r with e | a
  · exact ⟨h.1.1, hkeep h.1.2 h.2⟩
  · exact hkeep h.1 h.2

theorem still_close {file : Nat} {Q : Fs → Prop}
    (h : ∀ s fail, P s → Q (s.after me 0 (.close file) fail)) (w : World) (hw : Since A P w) :
    (close file).Safe (among u me) (fun _ ↦ True) (fun _ ↦ Since A Q) w :=
  ⟨trivial, fun c ↦ ⟨trivial, since_next (fun _ ↦ Q) hw h c⟩⟩

end Still

/-! ### Names in a still folder -/

section Names

variable {α : Type} {u me A dir : Nat} {name : Name} {l : Option Nat}

/-- The name denotes `l`. -/
def Denotes (dir : Nat) (name : Name) (l : Option Nat) (s : Fs) : Prop := s.lookup dir name = l

/-- A call that is not about names. -/
theorem still_look {o : Call} (hfolder : o.folder = none) :
    Still u me A (Denotes dir name l) (fun _ ↦ Denotes dir name l) (sys o) :=
  still_sys fun s fail hs ↦ ((change_after me 0 s o fail).lookup_of_none hfolder).trans hs

variable {file : Nat}

theorem still_close_look (w : World) (hw : Since A (Denotes dir name l) w) :
    (close file).Safe (among u me) (fun _ ↦ True) (fun _ ↦ Since A (Denotes dir name l)) w :=
  still_close (fun s fail hs ↦ ((change_after me 0 s _ fail).lookup_of_none rfl).trans hs) w hw

theorem still_closingOnError {P : Fs → Prop} {T : α → Fs → Prop} {p : Io α}
    (hp : Still u me A P (fun r s ↦ match r with | .ok a => T a s | .error _ => True) p) :
    Still u me A P (fun r s ↦ match r with | .ok a => T a s | .error _ => True)
      (closingOnError file p) :=
  fun w hw ↦ safe_onError (hp w hw) fun _ w' _ h ↦
    (still_close (fun _ _ _ ↦ trivial) w' h.2).mono fun _ _ _ h' ↦ ⟨h.1, h'⟩

theorem still_lift_close {T : Except Error Unit → Fs → Prop}
    (h : ∀ s, Denotes dir name l s → T (.ok ()) s) :
    Still u me A (Denotes dir name l) T (ExceptT.lift (close file)) :=
  fun w hw ↦ safe_lift ((still_close_look w hw).mono fun _ _ _ h' ↦ h'.mono h)

/-- A name is looked at only if it is an ordinary one. -/
theorem still_checked {p : Io α} {T : Except Error α → Fs → Prop}
    (hp : ordinary name = true → Still u me A (Denotes dir name l) T p)
    (herror : ∀ s, Denotes dir name l s → T (.error .invalidInput) s) :
    Still u me A (Denotes dir name l) T (do singleComponent name; p) := by
  unfold singleComponent
  split
  · next hname => exact fun w hw ↦ (hp hname w hw)
  · exact still_throw nofun herror

/-- The name is created, or was there. -/
theorem still_create (how : OpenFile) (hhow : how ≠ .read) (hcreate : how.flags.1.create = true) :
    Still u me A (Denotes dir name l) (fun r s ↦ match r with
        | .ok file => Denotes dir name (some file) s
        | .error e => Denotes dir name l s ∧ (e = .io .alreadyExists → l ≠ none))
      (openFile dir name how) := by
  refine still_checked (fun hname ↦ ?_) fun s hs ↦ ⟨hs, nofun⟩
  refine still_bind (still_sys (o := .openat dir name how.flags.1 how.flags.2)
    (T := fun r s ↦ match r with
      | .ok (file : Nat) => Denotes dir name (some file) s
      | .error e => Denotes dir name l s ∧ (e = .io .alreadyExists → l ≠ none)) ?_)
    (fun file ↦ ?_) fun _ _ h ↦ h
  · intro s fail hs
    rcases hanswer : s.answer me 0 (.openat dir name how.flags.1 how.flags.2) fail with kind | file
    · rw [after_of_error hanswer]
      refine ⟨hs, fun he ↦ ?_⟩
      cases he
      exact hs ▸ lookup_of_exists hanswer
    · obtain ⟨-, rfl, hafter⟩ := created_of_answer hcreate hanswer
      rw [hafter]
      exact lookup_make_self hname _
  · rw [if_neg hhow]
    exact still_pure fun _ h ↦ h

/-- What is there is opened. -/
theorem still_open (how : OpenFile) (hhow : how ≠ .read) (hcreate : how.flags.1.create = false) :
    Still u me A (Denotes dir name l) (fun r s ↦ Denotes dir name l s ∧ match r with
        | .ok file => l = some file
        | .error e => e = .io .notFound → l = none)
      (openFile dir name how) := by
  refine still_checked (fun hname ↦ ?_) fun s hs ↦ ⟨hs, nofun⟩
  refine still_bind (still_sys (o := .openat dir name how.flags.1 how.flags.2)
    (T := fun r s ↦ Denotes dir name l s ∧ match r with
      | .ok (file : Nat) => l = some file
      | .error e => e = .io .notFound → l = none) ?_) (fun file ↦ ?_) fun _ _ h ↦ h
  · intro s fail hs
    rcases hanswer : s.answer me 0 (.openat dir name how.flags.1 how.flags.2) fail with kind | file
    · rw [after_of_error hanswer]
      refine ⟨hs, fun he ↦ ?_⟩
      cases he
      exact hs ▸ lookup_of_notFound hanswer
    · obtain ⟨hlookup, -, hafter⟩ := opened_of_answer hcreate hanswer
      rw [hafter]
      exact ⟨hs, hs.symm.trans hlookup⟩
  · rw [if_neg hhow]
    exact still_pure fun _ h ↦ h

/-- What the name denotes is looked up. -/
theorem still_fstatat : Still u me A (Denotes dir name l)
      (fun r s ↦ Denotes dir name l s ∧ match r with
        | .ok (st : Meta) => l = some st.id
        | .error e => e = .io .notFound → l = none)
      (sys (.fstatat dir name)) := by
  refine still_sys (o := .fstatat dir name) fun s fail hs ↦ ?_
  refine ⟨((change_after me 0 s _ fail).lookup_of_none rfl).trans hs, ?_⟩
  rcases hanswer : s.answer me 0 (.fstatat dir name) fail with kind | st
  · intro he
    cases he
    exact hs.symm.trans (statat_of_answer.2 hanswer)
  · obtain ⟨i, hi, rfl⟩ := statat_of_answer.1 st hanswer
    exact hs.symm.trans hi

theorem still_kindOf : Still u me A (Denotes dir name l)
      (fun r s ↦ Denotes dir name l s ∧ (r = .ok none → l = none)) (kindOf dir name) := by
  refine still_checked (fun _ ↦ ?_) fun s hs ↦ ⟨hs, nofun⟩
  refine still_attempt still_fstatat (fun st ↦ still_pure fun s h ↦ ⟨h.1, nofun⟩) fun e he ↦ ?_
  dsimp only
  split
  · next hkind => exact still_pure fun s h ↦ ⟨h.1, fun _ ↦ h.2 (of_decide_eq_true hkind)⟩
  · exact still_throw he fun s h ↦ ⟨h.1, nofun⟩

theorem still_idOf : Still u me A (Denotes dir name l)
      (fun r s ↦ Denotes dir name l s ∧ ∀ named, r = .ok named → named = l) (idOf dir name) := by
  refine still_checked (fun _ ↦ ?_) fun s hs ↦ ⟨hs, nofun⟩
  refine still_attempt still_fstatat (fun st ↦ still_pure fun s h ↦ ⟨h.1, ?_⟩) fun e he ↦ ?_
  · rintro _ ⟨rfl⟩
    exact h.2.symm
  · dsimp only
    split
    · next hkind =>
      refine still_pure fun s h ↦ ⟨h.1, ?_⟩
      rintro _ ⟨rfl⟩
      exact (h.2 (of_decide_eq_true hkind)).symm
    · exact still_throw he fun s h ↦ ⟨h.1, nofun⟩

theorem still_unlink : Still u me A (Denotes dir name l) (fun r s ↦ match r with
        | .ok _ => Denotes dir name none s
        | .error e => e = .io .notFound → l = none)
      (unlink dir name) := by
  refine still_checked (fun hname ↦ ?_) fun s hs ↦ nofun
  refine still_sys (o := .unlinkat dir name) fun s fail hs ↦ ?_
  rcases hanswer : s.answer me 0 (.unlinkat dir name) fail with kind | v
  · intro he
    cases he
    exact hs.symm.trans ((unlinked_of_answer hname).2 hanswer)
  · exact (unlinked_of_answer hname).1 v hanswer

/-- A name that is there is gone afterwards. -/
theorem still_unlinkIfThere {i : Nat} : Still u me A (Denotes dir name (some i))
      (fun r s ↦ match r with
        | .ok _ => Denotes dir name none s
        | .error _ => True)
      (unlinkIfThere dir name) := by
  refine still_attempt still_unlink (fun _ ↦ still_pure fun s h ↦ h) fun e he ↦ ?_
  dsimp only
  split
  · next hkind => exact still_pure fun s h ↦ nomatch h (of_decide_eq_true hkind)
  · exact still_throw he fun _ _ ↦ trivial

theorem still_factsOf :
    Still u me A (Denotes dir name l) (fun _ ↦ Denotes dir name l) (factsOf file) :=
  still_bind (still_look rfl) (fun _ ↦ still_pure fun _ h ↦ h) fun _ _ h ↦ h

/-! ### The lock open -/

variable {owner : Option (Nat × Nat)} {block : Bool} {euid : Nat}

theorem still_failedOpen {β : Type} {T : Except Error β → Fs → Prop} {e : Error}
    (he : e ≠ .exhausted) (hT : ∀ e s, T (.error e) s) :
    Still u me A (Denotes dir name l) T (failedOpen dir name e : Io β) := by
  refine still_bind (T := fun _ ↦ Denotes dir name l) ?_ (fun why ↦ ?_) fun e s _ ↦ hT e s
  · refine still_attempt still_kindOf (fun kind ↦ ?_) fun _ _ ↦ still_pure fun _ h ↦ h.1
    rcases kind with - | kind
    · exact still_pure fun _ h ↦ h.1
    · cases kind <;> exact still_pure fun _ h ↦ h.1
  · rcases why with - | why
    · exact still_throw he fun s _ ↦ hT e s
    · exact still_throw nofun fun s _ ↦ hT _ s

/-- The name opens, unless the user moves: and if it was not created, it was there. -/
theorem still_openName : Still u me A (Denotes dir name l) (fun r s ↦ match r with
        | .ok none => False
        | .ok (some opened) =>
          Denotes dir name (some opened.file) s ∧ (opened.created = false → l ≠ none)
        | .error _ => True)
      (openName dir name) := by
  refine still_attempt (still_create (.createNew 0o600) nofun rfl)
    (fun file ↦ still_pure fun s h ↦ ⟨h, nofun⟩)
    fun e he ↦ ?_
  dsimp only
  split
  · next hexists =>
    have hexists : e = .io .alreadyExists := of_decide_eq_true hexists
    -- the create found the name there, so the open does too
    refine still_attempt (still_frame (still_open .existing nofun rfl) (l ≠ none) |>.comp
      fun s h ↦ ⟨h.1, h.2 hexists⟩) (fun file ↦ ?_) fun e' he' ↦ ?_
    · refine still_pure fun s h ↦ ?_
      obtain ⟨⟨hs, rfl⟩, hsome⟩ := h
      exact ⟨hs, fun _ ↦ hsome⟩
    · dsimp only
      split
      · next hnone =>
        exact still_pure fun s h ↦ h.2 (h.1.2 (of_decide_eq_true hnone))
      · exact (still_failedOpen he' fun _ _ ↦ trivial).comp fun s h ↦ h.1.1
  · exact (still_failedOpen he fun _ _ ↦ trivial).comp fun s h ↦ h.1

theorem still_names : Still u me A (Denotes dir name (some file))
      (fun r s ↦ Denotes dir name (some file) s ∧ r ≠ .ok false) (names dir name file) := by
  refine still_bind still_idOf (fun named ↦ ?_) fun e s h ↦ ⟨h.1, nofun⟩
  have hfile : Still u me A (fun s ↦ Denotes dir name (some file) s ∧ named = some file)
      (fun r s ↦ (Denotes dir name (some file) s ∧ ∀ own, r = .ok own → own = file) ∧
        named = some file) (fileId file) := by
    refine still_frame ?_ _
    refine still_bind (still_sys (o := .fstat file) (T := fun r s ↦
      Denotes dir name (some file) s ∧ ∀ st, r = .ok st → Meta.id st = file) ?_)
      (fun st ↦ still_pure fun s h ↦ ⟨h.1, ?_⟩) fun e s h ↦ ⟨h.1, nofun⟩
    · intro s fail hs
      refine ⟨((change_after me 0 s _ fail).lookup_of_none rfl).trans hs, fun st hst ↦ ?_⟩
      rcases hanswer : s.answer me 0 (.fstat file) fail with kind | st'
      · rw [hanswer] at hst
        cases hst
      · rw [hanswer] at hst
        cases hst
        obtain ⟨rfl, -⟩ := stat_of_answer hanswer
        rfl
    · rintro _ ⟨rfl⟩
      exact h.2 st rfl
  refine still_bind (hfile.comp fun s h ↦ ⟨h.1, h.2 named rfl⟩) (fun own ↦ ?_)
    fun e s h ↦ ⟨h.1.1, nofun⟩
  refine still_pure fun s h ↦ ⟨h.1.1, ?_⟩
  simp [h.2, h.1.2 own rfl]

variable {opened : Opened}

/-- Under the lock, a pass goes round again only if it unlinked a leftover. -/
theorem still_judge : Still u me A (Denotes dir name (some opened.file))
      (fun r s ↦ r = .ok .again → Denotes dir name none s ∧ opened.created = false)
      (judge dir name owner euid opened) := by
  have hverdict : Still u me A (Denotes dir name (some opened.file))
      (fun r s ↦ Denotes dir name (some opened.file) s ∧
        (r = .ok .replace → opened.created = false)) (verdictOf owner euid opened) := by
    unfold verdictOf
    split
    · exact still_pure fun s h ↦ ⟨h, nofun⟩
    · next hcreated =>
      refine still_bind still_factsOf (fun facts ↦ ?_) fun e s h ↦ ⟨h, nofun⟩
      rcases vet facts euid owner with why | verdict
      · exact still_throw nofun fun s h ↦ ⟨h, nofun⟩
      · exact still_pure fun s h ↦ ⟨h, fun _ ↦ Bool.eq_false_iff.2 hcreated⟩
  refine still_bind hverdict (fun verdict ↦ ?_) fun _ _ _ ↦ nofun
  cases verdict with
  | keep =>
    refine still_bind (still_factsOf.comp fun s h ↦ h.1) (fun facts ↦ ?_) fun _ _ _ ↦ nofun
    dsimp only
    split
    · exact still_bind (still_look (o := .fchmod opened.file 0o600) rfl)
        (fun _ ↦ still_pure fun _ _ ↦ nofun) fun _ _ _ ↦ nofun
    · exact still_pure fun _ _ ↦ nofun
  | replace =>
    refine still_attempt ((still_frame still_unlink (opened.created = false)).comp
      fun s h ↦ ⟨h.1, h.2 rfl⟩) (fun _ ↦ still_pure fun s h _ ↦ h) fun e he ↦ ?_
    dsimp only
    split
    · next hnone => exact still_pure fun s h ↦ nomatch h.1 (of_decide_eq_true hnone)
    · exact still_throw he fun _ _ ↦ nofun

theorem still_pass : Still u me A (Denotes dir name (some opened.file))
      (fun r s ↦ r = .ok .again → Denotes dir name none s ∧ opened.created = false)
      (pass dir name block owner euid opened) := by
  have hlockable : Still u me A (Denotes dir name (some opened.file))
      (fun _ ↦ Denotes dir name (some opened.file)) (lockable opened) := by
    unfold lockable
    split
    · exact still_pure fun _ h ↦ h
    · exact still_bind still_factsOf (fun _ ↦ still_pure fun _ h ↦ h) fun _ _ h ↦ h
  have hlock : Still u me A (Denotes dir name (some opened.file))
      (fun _ ↦ Denotes dir name (some opened.file)) (lock opened.file block) := by
    refine still_attempt (still_look rfl) (fun _ ↦ still_pure fun _ h ↦ h) fun e he ↦ ?_
    dsimp only
    split
    · exact still_pure fun _ h ↦ h
    · exact still_throw he fun _ h ↦ h
  refine still_bind hlockable (fun regular ↦ ?_) fun _ _ _ ↦ nofun
  cases regular with
  | false => exact still_throw nofun fun _ _ ↦ nofun
  | true =>
    refine still_bind hlock (fun locked ↦ ?_) fun _ _ _ ↦ nofun
    cases locked with
    | false => exact still_pure fun _ _ ↦ nofun
    | true =>
      refine still_bind still_names (fun same ↦ ?_) fun _ _ _ ↦ nofun
      cases same with
      | false => exact still_pure fun s h ↦ absurd rfl h.2
      | true => exact still_judge.comp fun s h ↦ h.1

/-- A pass, with its file closed if it failed: a pass that goes round again has freed the name, and
did not create it. -/
theorem still_closedPass {c : Prop} :
    Still u me A (fun s ↦ Denotes dir name (some opened.file) s ∧ (opened.created = false → c))
      (fun r s ↦ match r with
        | .ok a => a = .again → Denotes dir name none s ∧ c
        | .error _ => True)
      (closingOnError opened.file (pass dir name block owner euid opened)) := by
  refine still_closingOnError ((still_frame still_pass _).mono fun r s h ↦ ?_)
  rcases r with e | a
  · exact trivial
  · rintro rfl
    obtain ⟨hnone, hcreated⟩ := h.1 rfl
    exact ⟨hnone, h.2 hcreated⟩

/-- The passes that are enough: two for each move, and two more. -/
def Enough (dir : Nat) (name : Name) (passes : Nat) (w : World) : Prop :=
  2 * w.acts + (if (w.fs.lookup dir name).isSome then 1 else 0) < passes

/-- A pass that goes round again has used up a move, or freed a name that was taken. -/
theorem enough_of_again {passes : Nat} {w w' : World} (h : Enough dir name (passes + 1) w)
    (hw' : Since w.acts (fun s ↦ Denotes dir name none s ∧ w.fs.lookup dir name ≠ none) w') :
    Enough dir name passes w' := by
  unfold Enough at h ⊢
  rcases hw' with hlt | ⟨heq, hnone, hsome⟩
  · have hbit : (if (w'.fs.lookup dir name).isSome then 1 else 0) ≤ 1 := by
      split <;> omega
    omega
  · rw [heq, hnone]
    have hbit : (if (w.fs.lookup dir name).isSome then 1 else 0) = 1 := by
      rw [if_pos (Option.isSome_iff_ne_none.2 hsome)]
    simp only [Option.isSome_none, Bool.false_eq_true, if_false]
    omega

/-- **The lock open ends.** -/
theorem ends_openLockedWith (passes : Nat) {w : World} (h : Enough dir name passes w) :
    Safe (among u me) (fun _ ↦ True) (fun e _ ↦ e ≠ .exhausted) (fun _ _ ↦ True)
      (openLockedWith dir name block owner euid passes) w := by
  induction passes generalizing w with
  | zero => exact absurd h (Nat.not_lt_zero _)
  | succ passes ih =>
    have hstart : Since w.acts (Denotes dir name (w.fs.lookup dir name)) w := .inr ⟨rfl, rfl⟩
    refine ((still_openName w hstart).imp (fun _ _ _ h' ↦ h'.1) fun _ _ _ h' ↦ h').bind ?_
    rintro (- | opened) w' - hw'
    · exact ih (enough_of_again h (hw'.mono fun _ h' ↦ h'.elim))
    · refine ((still_closedPass w' hw').imp (fun _ _ _ h' ↦ h'.1) fun _ _ _ h' ↦ h').bind ?_
      rintro (- | - | changeable) w'' - hw''
      · refine (safe_lift (still_close (fun s fail hs ↦ ?_) w'' hw'')).bind
          fun _ w₃ _ hw₃ ↦ ih (enough_of_again h hw₃)
        obtain ⟨hnone, hsome⟩ := hs rfl
        exact ⟨((change_after me 0 s _ fail).lookup_of_none rfl).trans hnone, hsome⟩
      · exact (safe_lift (acts_le _ w'')).bind fun _ _ _ _ ↦ ⟨trivial, trivial⟩
      · exact ⟨trivial, trivial⟩

/-- A call never runs out of passes. -/
theorem ends_sys {o : Call} (w : World) :
    Safe (among u me) (fun _ ↦ True) (fun e _ ↦ e ≠ .exhausted) (fun _ _ ↦ True)
      (sys o) w := by
  have hsys : Still u me w.acts (fun _ ↦ True) (fun _ _ ↦ True) (sys o) :=
    still_sys fun _ _ _ ↦ trivial
  exact (hsys w (.inr ⟨rfl, trivial⟩)).imp (fun _ _ _ h ↦ h.1) fun _ _ _ _ ↦ trivial

theorem ends_giveFile (w : World) :
    Safe (among u me) (fun _ ↦ True) (fun e _ ↦ e ≠ .exhausted) (fun _ _ ↦ True)
      (giveFile file owner) w := by
  rcases owner with - | ⟨uid, gid⟩
  · exact ⟨trivial, trivial⟩
  · refine (safe_attempt (Q := fun _ _ ↦ True) ((ends_sys w).imp
      (fun _ _ _ _ ↦ trivial) fun _ _ _ _ ↦ trivial)).bind ?_
    exact fun _ _ _ _ ↦ ⟨trivial, trivial⟩

theorem ends_openLocked {passes : Nat} {w : World} (h : Enough dir name passes w) :
    Safe (among u me) (fun _ ↦ True) (fun e _ ↦ e ≠ .exhausted) (fun _ _ ↦ True)
      (openLocked (.ok dir) name block owner euid passes) w := by
  refine (ends_openLockedWith passes h).bind ?_
  rintro (- | ⟨file, changeable⟩) w' - -
  · exact ⟨trivial, trivial⟩
  · dsimp only
    split
    · refine Safe.bind (R := fun _ _ ↦ True) (safe_onError
        (F := fun e _ ↦ e ≠ .exhausted) ?_ fun e w'' _ he ↦
          (acts_le (close file) w'').mono fun _ _ _ _ ↦ he) fun _ _ _ _ ↦ ⟨trivial, trivial⟩
      rcases owner with - | ⟨uid, gid⟩
      · exact ⟨trivial, trivial⟩
      · exact ends_sys w'
    · exact ⟨trivial, trivial⟩

/-! ### The append -/

/-- A name that is there is freed, if the pass goes round again. -/
theorem still_appendExisting {i : Nat} : Still u me A (Denotes dir name (some i))
      (fun r s ↦ r = .ok .again → Denotes dir name none s) (appendExisting dir name owner) := by
  have hagain : Still u me A (Denotes dir name (some i))
      (fun r s ↦ r = .ok .again → Denotes dir name none s)
      (do unlinkIfThere dir name; pure .again : Io Found) :=
    still_bind still_unlinkIfThere (fun _ ↦ still_pure fun s h _ ↦ h) fun _ _ _ ↦ nofun
  refine still_attempt (still_open .append nofun rfl) (fun file ↦ ?_) fun e he ↦ ?_
  · refine still_bind (T := fun r s ↦ match r with
        | .ok _ => Denotes dir name (some i) s
        | .error _ => True) ?_ (fun own ↦ ?_) fun _ _ _ ↦ nofun
    · refine still_closingOnError ((still_bind still_factsOf (fun facts ↦ ?_)
        fun e s _ ↦ trivial).comp fun s h ↦ h.1)
      exact still_pure fun s h ↦ h
    · cases own with
      | true => exact still_pure fun _ _ ↦ nofun
      | false =>
        exact still_bind (still_lift_close (T := fun _ ↦ Denotes dir name (some i)) fun _ h ↦ h)
          (fun _ ↦ hagain) fun _ _ _ ↦ nofun
  · dsimp only
    split
    · next hnone => exact still_pure fun s h ↦ nomatch h.2 (of_decide_eq_true hnone)
    · refine still_attempt (still_kindOf.comp fun s h ↦ h.1) (fun kind ↦ ?_) fun e' _ ↦
        still_throw he fun _ _ ↦ nofun
      rcases kind with - | kind
      · exact still_pure fun s h ↦ nomatch h.2 rfl
      · cases kind with
        | symlink => exact hagain.comp fun s h ↦ h.1
        | other => exact hagain.comp fun s h ↦ h.1
        | file => exact still_throw he fun _ _ ↦ nofun
        | directory => exact still_throw he fun _ _ ↦ nofun

/-- **The append ends.** -/
theorem ends_appendOwnFile {mode : Nat} (passes : Nat) {w : World} (h : Enough dir name passes w) :
    Safe (among u me) (fun _ ↦ True) (fun e _ ↦ e ≠ .exhausted) (fun _ _ ↦ True)
      (appendOwnFile dir name mode owner passes) w := by
  induction passes generalizing w with
  | zero => exact absurd h (Nat.not_lt_zero _)
  | succ passes ih =>
    have hstart : Since w.acts (Denotes dir name (w.fs.lookup dir name)) w := .inr ⟨rfl, rfl⟩
    have hexisting {l : Option Nat} : Still u me w.acts (fun s ↦ Denotes dir name l s ∧ l ≠ none)
        (fun r s ↦ (r = .ok .again → Denotes dir name none s) ∧ l ≠ none)
        (appendExisting dir name owner) := by
      rcases l with - | i
      · exact (still_frame (still_appendExisting (i := 0)) _).comp fun s h ↦ absurd rfl h.2
      · exact still_frame still_appendExisting _
    refine Safe.bind (safe_attempt (Q := fun r w' ↦ match r with
      | .ok _ => True
      | .error e => e ≠ .exhausted ∧ Since w.acts (fun s ↦
        Denotes dir name (w.fs.lookup dir name) s ∧
          (e = .io .alreadyExists → w.fs.lookup dir name ≠ none)) w')
      ((still_create (.createAppend mode) nofun rfl w hstart).imp (fun _ _ _ h' ↦ h')
        fun _ _ _ _ ↦ trivial)) ?_
    rintro (e | file) w' - hw'
    · dsimp only
      split
      · next hexists =>
        have hexists : e = .io .alreadyExists := of_decide_eq_true hexists
        refine ((hexisting w' (hw'.2.mono fun s hs ↦ ⟨hs.1, hs.2 hexists⟩)).imp
          (fun _ _ _ h' ↦ h'.1) fun _ _ _ h' ↦ h').bind ?_
        rintro (file | -) w'' - hw''
        · exact ⟨trivial, trivial⟩
        · exact ih (enough_of_again h (hw''.mono fun s hs ↦ ⟨hs.1 rfl, hs.2⟩))
      · exact ⟨trivial, hw'.1⟩
    · exact (ends_giveFile w').bind fun _ _ _ _ ↦ ⟨trivial, trivial⟩

end Names

/-! ### Staging -/

section Staging

variable {u me dir pid : Nat} {name : Name} {draw : Nat → Nat} {owner : Option (Nat × Nat)}

/-- The bytes of a decimal text read back. -/
theorem decimal_injective : Function.Injective decimal := by
  have hread (n : Nat) : Text.readNat 10 ((decimal n).map fun b ↦ Char.ofNat b.toNat) = some n := by
    have hback : (decimal n).map (fun b ↦ Char.ofNat b.toNat) = Nat.toDigits 10 n := by
      unfold decimal
      rw [List.map_map]
      refine (List.map_congr_left fun c hc ↦ ?_).trans (List.map_id _)
      have hdigit := Nat.isDigit_of_mem_toDigits (by decide) (by decide) hc
      have hlt : c.toNat < 2 ^ 8 := by
        simp only [Char.isDigit, Bool.and_eq_true, decide_eq_true_eq] at hdigit
        exact Nat.lt_of_le_of_lt (UInt32.le_iff_toNat_le.1 hdigit.2) (by decide)
      simp only [Function.comp_apply, UInt8.toNat_ofNat', Nat.mod_eq_of_lt hlt, Char.ofNat_toNat,
        id_eq]
    rw [hback]
    exact Text.readNat_toDigits (by decide) (by decide) n
  intro m n h
  exact Option.some.inj ((hread m).symm.trans (h ▸ hread n))

theorem tempName_injective : Function.Injective (tempName name pid) := by
  intro m n h
  simp only [tempName, List.append_left_inj, List.append_right_inj] at h
  exact decimal_injective h

open Classical in
/-- The temporary names still to be drawn, of the first `limit` draws. -/
noncomputable def Undrawn (name : Name) (pid : Nat) (draw : Nat → Nat) (limit drawn : Nat)
    (n : Name) : Bool :=
  decide (∃ j, drawn ≤ j ∧ j < limit ∧ n = tempName name pid (draw j))

theorem undrawn_iff {limit drawn : Nat} {n : Name} :
    Undrawn name pid draw limit drawn n = true ↔
      ∃ j, drawn ≤ j ∧ j < limit ∧ n = tempName name pid (draw j) := by
  simp [Undrawn]

/-- A name that is drawn and found taken is one less of the taken names still to be drawn. -/
theorem count_undrawn {limit drawn : Nat} {s : Fs} (hdraw : Set.InjOn draw (Set.Iio limit))
    (hdrawn : drawn < limit) (htemp : ordinary (tempName name pid (draw drawn)) = true)
    (htaken : s.lookup dir (tempName name pid (draw drawn)) ≠ none) :
    s.count dir (Undrawn name pid draw limit (drawn + 1)) <
      s.count dir (Undrawn name pid draw limit drawn) := by
  obtain ⟨i, hi⟩ := Option.ne_none_iff_exists'.1 htaken
  rw [lookup_of_ordinary htemp] at hi
  obtain ⟨front, back, hsplit, -⟩ := List.lookup_eq_some_iff.1 hi
  have hmono (es : List (Name × Nat)) :
      es.countP (fun e ↦ Undrawn name pid draw limit (drawn + 1) e.1) ≤
        es.countP fun e ↦ Undrawn name pid draw limit drawn e.1 := by
    refine List.countP_mono_left fun e _ he ↦ ?_
    obtain ⟨j, hj, hlimit, heq⟩ := undrawn_iff.1 he
    exact undrawn_iff.2 ⟨j, Nat.le_of_succ_le hj, hlimit, heq⟩
  have hin : Undrawn name pid draw limit drawn (tempName name pid (draw drawn)) = true :=
    undrawn_iff.2 ⟨drawn, Nat.le_refl _, hdrawn, rfl⟩
  have hout : Undrawn name pid draw limit (drawn + 1) (tempName name pid (draw drawn)) = false := by
    refine Bool.eq_false_iff.2 fun hlater ↦ ?_
    obtain ⟨j, hj, hlimit, heq⟩ := undrawn_iff.1 hlater
    exact absurd (hdraw hdrawn hlimit (tempName_injective heq)) (Nat.ne_of_lt hj)
  have hfront := hmono front
  have hback := hmono back
  simp only [Fs.count, hsplit, List.countP_append, List.countP_cons, hin, hout]
  simp only [if_true, Bool.false_eq_true, if_false]
  omega

/-- A draw that goes on has used up a name that was taken, or that the user made a move for. -/
theorem ends_createTemp {limit : Nat} (hdraw : Set.InjOn draw (Set.Iio limit)) (passes drawn : Nat)
    {w : World} (hlimit : drawn + passes ≤ limit) (hdir : dir < w.fs.next)
    (h : w.acts + w.fs.count dir (Undrawn name pid draw limit drawn) < passes) :
    Safe (among u me) (fun _ ↦ True) (fun e _ ↦ e ≠ .exhausted) (fun _ _ ↦ True)
      (createTemp dir name pid draw passes drawn) w := by
  induction passes generalizing w drawn with
  | zero => exact absurd h (Nat.not_lt_zero _)
  | succ passes ih =>
    refine Safe.bind (safe_attempt (Q := fun r w' ↦ match r with
      | .ok _ => True
      | .error e => e ≠ .exhausted ∧ (e = .io .alreadyExists → dir < w'.fs.next ∧
        w'.acts + w'.fs.count dir (Undrawn name pid draw limit (drawn + 1)) < passes)) ?_) ?_
    · unfold openFile singleComponent
      split
      · next htemp =>
        refine ⟨trivial, fun c ↦ ?_⟩
        rcases hanswer : (among u me).answer w
          (.openat dir (tempName name pid (draw drawn)) (OpenFile.createNew 0o600).flags.1
            (OpenFile.createNew 0o600).flags.2) c with kind | file
        · refine ⟨trivial, nofun, fun he ↦ ?_⟩
          cases he
          have hstay := after_of_error (show (w.met u c.1).answer me 0 _ c.2 = _ from hanswer)
          have htaken := count_undrawn hdraw (by omega) htemp
            (lookup_of_exists (show (w.met u c.1).answer me 0 _ c.2 = _ from hanswer))
          have hpaid := count_met (u := u) (q := Undrawn name pid draw limit drawn) hdir c.1
          have hlt := Nat.lt_of_lt_of_le hdir (keeps_met u w c.1).next
          refine ⟨?_, ?_⟩
          · show dir < ((w.met u c.1).after me 0 _ c.2).next
            rw [hstay]
            exact hlt
          · show w.acts - c.1.length + ((w.met u c.1).after me 0 _ c.2).count dir _ < passes
            rw [hstay]
            omega
        · exact ⟨trivial, trivial⟩
      · exact ⟨trivial, nofun, nofun⟩
    · rintro (e | file) w' - hw'
      · dsimp only
        split
        · next hexists =>
          obtain ⟨hlt, hpotential⟩ := hw'.2 (of_decide_eq_true hexists)
          exact ih _ (by omega) hlt hpotential
        · exact ⟨trivial, hw'.1⟩
      · exact ⟨trivial, trivial⟩

/-- **Staging ends**, and so do the publication of what was staged and its drop. -/
theorem ends_stageThen {bytes : List UInt8} {protect : Option Nat} {publishing : Bool}
    (passes : Nat) (hdraw : Set.InjOn draw (Set.Iio passes)) {w : World} (hdir : dir < w.fs.next)
    (h : w.acts + (w.fs.node dir).entries.length < passes) :
    Safe (among u me) (fun _ ↦ True) (fun e _ ↦ e ≠ .exhausted) (fun _ _ ↦ True)
      (stageThen dir name bytes owner protect pid draw passes publishing) w := by
  have hset {o : Call} (w' : World) : Safe (among u me) (fun _ ↦ True)
      (fun e _ ↦ e ≠ .exhausted) (fun _ _ ↦ True) (sys o) w' := ends_sys w'
  have hdrop {temp : Name} {file : Nat} {e : Error} (he : e ≠ .exhausted) (w' : World) :
      (dropStaged dir temp file).Safe (among u me) (fun _ ↦ True)
        (fun _ _ ↦ e ≠ .exhausted) w' := (acts_le _ w').mono fun _ _ _ _ ↦ he
  have hstage : Safe (among u me) (fun _ ↦ True) (fun e _ ↦ e ≠ .exhausted)
      (fun _ _ ↦ True) (stage dir name bytes owner protect pid draw passes) w := by
    unfold stage singleComponent
    split
    · refine Safe.bind (R := fun _ w' ↦ w' = w) ⟨trivial, rfl⟩ ?_
      rintro _ _ - rfl
      refine (ends_createTemp hdraw passes 0 (by omega) hdir
        (Nat.lt_of_le_of_lt (Nat.add_le_add_left List.countP_le_length _) h)).bind ?_
      rintro ⟨temp, file⟩ w₁ - -
      refine (safe_onError (F := fun e _ ↦ e ≠ .exhausted) (Q := fun _ _ ↦ True) ?_
        fun e w' _ he ↦ hdrop he w').bind fun _ _ _ _ ↦ ⟨trivial, trivial⟩
      refine (hset w₁).bind fun _ w₂ _ _ ↦ (hset w₂).bind fun _ w₃ _ _ ↦ ?_
      refine Safe.bind ((ends_giveFile w₃).bind fun _ w₄ _ _ ↦ hset w₄) fun _ w₅ _ _ ↦ ?_
      rcases protect with - | mode
      · exact ⟨trivial, trivial⟩
      · exact hset w₅
    · exact ⟨trivial, nofun⟩
  refine hstage.bind ?_
  rintro ⟨temp, file⟩ w' - -
  dsimp only
  split
  · refine (safe_onError (F := fun e _ ↦ e ≠ .exhausted) (Q := fun _ _ ↦ True) (hset w')
      fun e w'' _ he ↦ hdrop he w'').bind fun _ w'' _ _ ↦ ?_
    exact safe_lift ((acts_le _ w'').mono fun _ _ _ _ ↦ trivial)
  · exact safe_lift ((acts_le _ w').mono fun _ _ _ _ ↦ trivial)

end Staging

/-! ### The three operations -/

/-- What a privileged process does in a folder that a user may own. -/
inductive Operation
  /-- The lock open, waiting for the lock or not. -/
  | openLocked (block : Bool)
  | append (mode : Nat)
  /-- Staging, followed by publication or by the drop of what was staged. -/
  | stage (bytes : List UInt8) (protect : Option Nat) (pid : Nat) (draw : Nat → Nat)
      (publishing : Bool)

/-- An operation on a name in a folder; it returns the file it opened, if it leaves one open. -/
def Operation.program (dir : Nat) (name : Name) (owner : Option (Nat × Nat)) (euid passes : Nat) :
    Operation → Io (Option Nat)
  | .openLocked block => Files.openLocked (.ok dir) name block owner euid passes
  | .append mode => some <$> appendOwnFile dir name mode owner passes
  | .stage bytes protect pid draw publishing =>
    (fun _ ↦ none) <$> stageThen dir name bytes owner protect pid draw passes publishing

/-- Whether an operation that expects no owner takes anyone's file for its own: the append does. -/
def Operation.anyone : Operation → Bool
  | .append _ => true
  | _ => false

/-- The passes in which an operation ends: those of the moves the user still makes, and of the names
that are there now. The names that `stage` draws are distinct, since its counter only counts on. -/
def Operation.Bounded (dir : Nat) (name : Name) (passes : Nat) (w : World) : Operation → Prop
  | .stage _ _ _ draw _ =>
    Set.InjOn draw (Set.Iio passes) ∧ w.acts + (w.fs.node dir).entries.length < passes
  | _ => Enough dir name passes w

section Operation

variable {u me dir euid passes : Nat} {name : Name} {owner : Option (Nat × Nat)} {w : World}

theorem safe_operation (op : Operation) (h : Going dir op.anyone owner w) :
    Safe (among u me) (Going dir op.anyone owner) (fun _ _ ↦ True)
      (fun r w' ↦ ∀ mode, op = .append mode → ∀ file, r = some file →
        Own op.anyone owner w'.trace file)
      (op.program dir name owner euid passes) w := by
  cases op with
  | openLocked block => exact (safe_openLocked passes h).mono fun _ _ _ _ _ hop ↦ nomatch hop
  | append mode =>
    refine (safe_appendOwnFile passes h).bind fun file w' h' hown ↦ ⟨h', ?_⟩
    rintro _ - _ ⟨rfl⟩
    exact hown
  | stage bytes protect pid draw publishing =>
    exact (safe_stageThen passes h).bind fun _ _ h' _ ↦ ⟨h', fun _ hop ↦ nomatch hop⟩

theorem ends_operation (op : Operation) (hdir : dir < w.fs.next)
    (h : op.Bounded dir name passes w) :
    Safe (among u me) (fun _ ↦ True) (fun e _ ↦ e ≠ .exhausted) (fun _ _ ↦ True)
      (op.program dir name owner euid passes) w := by
  cases op with
  | openLocked block => exact ends_openLocked h
  | append mode => exact (ends_appendOwnFile passes h).bind fun _ _ _ _ ↦ ⟨trivial, trivial⟩
  | stage bytes protect pid draw publishing =>
    exact (ends_stageThen passes h.1 hdir h.2).bind fun _ _ _ _ ↦ ⟨trivial, trivial⟩

/-- **A privileged file operation changes only its own files.** Whatever the user does between any
two system calls, each call changes only inodes that an earlier call of the operation created or
judged on the open handle; what the append returns is one of these; and with enough passes for the
moves the user makes, no loop runs out of them. -/
theorem changes_only_own (op : Operation) (u me dir euid passes : Nat) (name : Name)
    (owner : Option (Nat × Nat)) (w : World) (hwf : w.fs.Wf) (hdir : dir < w.fs.next)
    (hkind : (w.fs.node dir).kind = .directory) (htrace : w.trace = [])
    (schedule : List (List Move × Bool)) :
    let ended := (op.program dir name owner euid passes).run.run (among u me) w schedule
    Careful dir op.anyone owner ended.2.1.trace ∧
      (∀ mode, op = .append mode → ∀ file, ended.1 = some (.ok (some file)) →
        Own op.anyone owner ended.2.1.trace file) ∧
      (op.Bounded dir name passes w → ended.1 ≠ some (.error .exhausted)) := by
  intro ended
  have hgoing : Going dir op.anyone owner w := ⟨htrace ▸ careful_nil, hwf, hdir, hkind⟩
  have hsafe : Safe (among u me) _ _ _ (op.program dir name owner euid passes) w :=
    safe_operation op hgoing
  obtain ⟨hend, hpost⟩ := hsafe.sound schedule
  refine ⟨hend.careful, fun mode hop file hfile ↦ hpost _ hfile mode hop file rfl, ?_⟩
  intro hbounded hexhausted
  exact ((ends_operation op hdir hbounded).sound schedule).2 _ hexhausted rfl

end Operation

/-- A folder of user 1000 beside a file of root's. -/
def userFolder : Fs where
  node i :=
    match i with
    | 0 => { Node.folder 0 0o755 0 with entries := [([117], 1), ([115], 2)] }
    | 1 => .folder 1000 0o700 0
    | _ => .fresh .file 0 0o600 [1, 2, 3]
  next := 3
  lock _ := none
  root := 0
  cwd := 0

theorem userFolder_wf : userFolder.Wf := by
  refine ⟨fun {d n i} h ↦ ?_, fun {d} hd _ ↦ ?_, by decide, by decide⟩
  · match d with
    | 0 =>
      obtain ⟨front, back, hentries, -⟩ := List.lookup_eq_some_iff.1 h
      have hmem : (n, i) ∈ [(([117] : Name), 1), ([115], 2)] := by
        show (n, i) ∈ (userFolder.node 0).entries
        simp [hentries]
      simp only [List.mem_cons, Prod.mk.injEq, List.not_mem_nil, or_false] at hmem
      show i < 3
      omega
    | 1 => cases h
    | _ + 2 => cases h
  · match d with
    | 0 => exact (by decide : 0 < 3)
    | 1 => exact (by decide : 0 < 3)
    | _ + 2 => exact (by decide : 0 < 3)

/-- The user links root's file to the name of a log, and the append replaces the name. -/
theorem changes_only_own_link :
    let ended := ((Operation.append 0o600).program 1 [108] none 0 8).run.run (among 1000 0)
      ⟨userFolder, 1, []⟩ ([([Move.link 2 1 [108]], false)] ++ List.replicate 9 ([], false))
    ended.1 = some (.ok (some 3)) ∧ (ended.2.1.fs.node 2).data = (userFolder.node 2).data ∧
      Careful 1 true none ended.2.1.trace ∧ Own true none ended.2.1.trace 3 := by
  intro ended
  obtain ⟨hcareful, hown, -⟩ := changes_only_own (.append 0o600) 1000 0 1 0 8 [108] none
    ⟨userFolder, 1, []⟩ userFolder_wf (by decide) rfl rfl
    ([([Move.link 2 1 [108]], false)] ++ List.replicate 9 ([], false))
  exact ⟨rfl, rfl, hcareful, hown 0o600 rfl 3 rfl⟩

end Hole.Files
