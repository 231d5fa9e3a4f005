import Hole.Files.Guided
import Hole.Files.Passes

/-!
# Where a walk ends

The walk of `open_dir` ends: each link it follows is one of a bounded number and adds a bounded
number of steps, and the loop of `descend` goes round again only for a folder that was made or that
the user made a move for. And where the tree does not change and nothing is made, the walk ends in
the folder that the path denotes: `Resolves` is pathname resolution as POSIX describes it, over the
text between the separators, and `Steps` the same over the steps of the walk.
-/

namespace Hole.Files

open Posix Effect
open Fallible (Safe)

/-! ### The loops end -/

section Ends

variable {u me A d : Nat} {name : Name} {l : Option Nat} {trail : Trail Nat} {w : World}
  {create : Bool} {walk : Walk}

theorem still_standingOwner :
    Still u me A (Denotes d name l) (fun _ ↦ Denotes d name l) (standingOwner d) :=
  still_bind (still_look rfl) (fun _ ↦ still_pure fun _ h ↦ h) fun _ _ h ↦ h

theorem still_staysWithTheLinkOwner : Still u me A (Denotes d name l) (fun _ ↦ Denotes d name l)
      (trail.staysWithTheLinkOwner (standingOwner d)) := by
  unfold Trail.staysWithTheLinkOwner
  split
  · exact still_pure fun _ h ↦ h
  · refine still_bind still_standingOwner (fun owner ↦ ?_) fun _ _ h ↦ h
    rcases owner with - | owner
    · exact still_throw nofun fun _ h ↦ h
    · dsimp only
      split
      · exact still_pure fun _ h ↦ h
      · exact still_throw nofun fun _ h ↦ h

/-- A folder that is made is there; one that cannot be made because it exists, was there. -/
theorem still_mkdirat {mode : Nat} (hn : ordinary name = true) : Still u me A (Denotes d name none)
      (fun r s ↦ match r with
        | .ok _ => ∃ i, Denotes d name (some i) s
        | .error e => e ≠ .io .alreadyExists)
      (sys (.mkdirat d name mode)) := by
  refine still_sys (o := .mkdirat d name mode) fun s fail hs ↦ ?_
  rcases hanswer : s.answer me 0 (.mkdirat d name mode) fail with kind | v
  · rintro he
    cases he
    rcases fail with - | -
    · simp [Fs.answer, Fs.act, show s.lookup d name = none from hs, Except.map] at hanswer
    · cases hanswer
  · obtain ⟨-, hafter⟩ := made_of_answer hanswer
    rw [hafter]
    exact ⟨s.next, lookup_make_self hn _⟩

theorem still_unopenableMade {err : Error} {i : Nat} (herr : err ≠ .exhausted) :
    Still u me A (Denotes d name (some i)) (fun _ ↦ Denotes d name (some i))
      (unopenableMade d name err) := by
  refine still_attempt (still_look rfl) (fun entry ↦ ?_) fun _ _ ↦ still_throw herr fun _ h ↦ h
  dsimp only
  split
  · exact still_throw nofun fun _ h ↦ h
  · exact still_throw nofun fun _ h ↦ h
  · exact still_throw nofun fun _ h ↦ h
  · exact still_throw herr fun _ h ↦ h

theorem still_giveMadeFolder {maker uid i : Nat} :
    Still u me A (Denotes d name (some i)) (fun _ ↦ Denotes d name (some i))
      (giveMadeFolder d name maker uid) := by
  unfold giveMadeFolder
  split
  · exact still_pure fun _ h ↦ h
  · refine still_attempt (still_look rfl) (fun made ↦ ?_) fun err herr ↦ still_unopenableMade herr
    refine still_bind (still_look rfl) (fun st ↦ ?_) fun _ _ h ↦ h
    unfold handOver
    split
    · exact still_look rfl
    · exact still_throw nofun fun _ h ↦ h

/-- A folder that was missing is there afterwards. -/
theorem still_makeFolder {maker : Nat} (hn : ordinary name = true) :
    Still u me A (Denotes d name none) (fun r s ↦ match r with
        | .ok _ => ∃ i, Denotes d name (some i) s
        | .error _ => True)
      (makeFolder d name maker trail) := by
  refine still_bind still_staysWithTheLinkOwner (fun _ ↦ ?_) fun _ _ _ ↦ trivial
  refine still_attempt (still_mkdirat hn) (fun _ ↦ ?_) fun e he ↦ ?_
  · dsimp only
    split
    · next uid _ =>
      intro w hw
      rcases hw with hlt | ⟨heq, i, hi⟩
      · exact (still_giveMadeFolder (i := 0) w (.inl hlt)).imp
          (fun _ _ _ h ↦ ⟨h.1, h.2.mono fun _ _ ↦ trivial⟩)
          fun _ _ _ h ↦ h.mono fun _ h' ↦ ⟨0, h'⟩
      · exact (still_giveMadeFolder w (.inr ⟨heq, hi⟩)).imp
          (fun _ _ _ h ↦ ⟨h.1, h.2.mono fun _ _ ↦ trivial⟩)
          fun _ _ _ h ↦ h.mono fun _ h' ↦ ⟨i, h'⟩
    · exact still_pure fun _ h ↦ h
  · dsimp only
    split
    · next hexists => exact still_pure fun _ h ↦ absurd (of_decide_eq_true hexists) h
    · exact still_throw he fun _ _ ↦ trivial

/-- How many rounds are left at most: one for each step, and those of the links that may still be
followed. -/
def left (walk : Walk) : Nat :=
  walk.steps.length + (walk.trail.limit - walk.trail.followed) * (pathMax + 2)

/-- What is read of a link. -/
theorem read_of_answer {who : Nat} {s : Fs} {fail : Bool} {t : List UInt8}
    (h : s.answer me who (.readlinkat d name) fail = .ok t) :
    ∃ i, s.lookup d name = some i ∧ (s.node i).kind = .symlink ∧
      t = (s.node i).bytes.take pathMax := by
  rcases fail with - | -
  · rcases hlookup : s.lookup d name with - | i
    · simp [Fs.answer, Fs.act, hlookup, Except.map] at h
    · by_cases hkind : (s.node i).kind = .symlink
      · refine ⟨i, rfl, hkind, ?_⟩
        simp only [Fs.answer, Fs.act, hlookup, hkind, Bool.false_and, Bool.false_eq_true, if_false,
          if_true] at h
        exact (Except.ok.inj h).symm
      · simp [Fs.answer, Fs.act, hlookup, hkind, Except.map] at h
  · cases h

theorem ends_followLink {entry : Meta} (w : World) :
    Safe (among u me) (fun _ ↦ True) (fun e _ ↦ e ≠ .exhausted)
      (fun walk' _ ↦ left walk' ≤ left walk) (followLink d name entry walk) w := by
  refine (ends_sys w).bind fun p w₁ _ _ ↦ ?_
  rcases hfollow : walk.trail.follow (metaOwner p) (metaOwner entry) with why | trail'
  · exact ⟨trivial, nofun⟩
  · have hread : Safe (among u me) (fun _ ↦ True) (fun e _ ↦ e ≠ .exhausted)
        (fun t _ ↦ List.length t ≤ pathMax) (sys (.readlinkat d name)) w₁ := by
      refine ⟨trivial, fun c ↦ ⟨trivial, ?_⟩⟩
      show Fallible.post _ _ (((w₁.met u c.1).answer me 0 (.readlinkat d name) c.2).mapError _) _
      rcases hanswer : (w₁.met u c.1).answer me 0 (.readlinkat d name) c.2 with kind | t
      · exact nofun
      · obtain ⟨i, -, -, rfl⟩ := read_of_answer hanswer
        show (List.take pathMax _).length ≤ pathMax
        exact List.length_take_le _ _
    refine hread.bind fun target w₂ _ htarget ↦ ⟨trivial, ?_⟩
    obtain ⟨hlt, -, hfollowed, hlimit, -⟩ := follow_ok hfollow
    have hsteps := length_stepsOf target
    show (stepsOf target ++ walk.steps).length +
      (trail'.limit - trail'.followed) * (pathMax + 2) ≤ _
    rw [left, List.length_append, hfollowed, hlimit]
    -- one link less to follow pays for the steps of this one
    obtain ⟨more, hmore⟩ := Nat.exists_eq_add_of_lt hlt
    have hbefore : walk.trail.limit - walk.trail.followed = more + 1 := by omega
    have hnow : walk.trail.limit - (walk.trail.followed + 1) = more := by omega
    rw [hbefore, hnow, Nat.succ_mul]
    have htarget : target.length ≤ pathMax := htarget
    omega

/-- The passes that are enough for `descend`: two for each move, and two more. -/
def Room (d : Nat) (name : Name) (passes : Nat) (w : World) : Prop :=
  2 * w.acts + (if (w.fs.lookup d name).isNone then 1 else 0) < passes

/-- A pass that goes round again has used up a move, or made a folder that was missing. -/
theorem room_of_again {passes : Nat} {w w' : World} (h : Room d name (passes + 1) w)
    (hw' : Since w.acts (fun s ↦ (∃ i, Denotes d name (some i) s) ∧ w.fs.lookup d name = none) w') :
    Room d name passes w' := by
  unfold Room at h ⊢
  rcases hw' with hlt | ⟨heq, ⟨i, hi⟩, hnone⟩
  · have hbit : (if (w'.fs.lookup d name).isNone then 1 else 0) ≤ 1 := by
      split <;> omega
    omega
  · have hsome : w'.fs.lookup d name = some i := hi
    rw [heq, hsome]
    rw [hnone] at h
    simp only [Option.isNone_none, Option.isNone_some, if_true, Bool.false_eq_true, if_false] at h ⊢
    omega

theorem ends_descendLoop {maker : Nat} (hn : ordinary name = true) (passes : Nat) {w : World}
    (h : Room d name passes w) :
    Safe (among u me) (fun _ ↦ True) (fun e _ ↦ e ≠ .exhausted)
      (fun r _ ↦ left r.2 ≤ left walk) (descendLoop d name create maker walk passes) w := by
  induction passes generalizing w with
  | zero => exact absurd h (Nat.not_lt_zero _)
  | succ passes ih =>
    have hstart : Since w.acts (Denotes d name (w.fs.lookup d name)) w := .inr ⟨rfl, rfl⟩
    have hopen : Still u me w.acts (Denotes d name (w.fs.lookup d name))
        (fun _ ↦ Denotes d name (w.fs.lookup d name)) (openDirAt d name) := still_look rfl
    refine (Fallible.safe_attempt (Q := fun r w' ↦ (∀ e, r = .error e → e ≠ .exhausted) ∧
      Since w.acts (Denotes d name (w.fs.lookup d name)) w') ((hopen w hstart).imp ?_
        fun _ _ _ hw ↦ ⟨nofun, hw⟩)).bind ?_
    · rintro e w' - ⟨he, hw'⟩
      refine ⟨?_, hw'⟩
      rintro _ ⟨rfl⟩
      exact he
    rintro (openErr | next) w₁ - ⟨hopenErr, hw₁⟩
    · refine (Fallible.safe_attempt (Q := fun r w' ↦ ∀ e, r = .error e → e ≠ .exhausted ∧
          Since w.acts (fun s ↦ Denotes d name (w.fs.lookup d name) s ∧
            (e = .io .notFound → w.fs.lookup d name = none)) w')
        ((still_fstatat w₁ hw₁).imp (fun _ _ _ hw ↦ by rintro _ ⟨rfl⟩; exact hw)
          fun _ _ _ _ ↦ by rintro _ ⟨⟩)).bind ?_
      rintro (err | entry) w₂ - hstat
      · have hw₂ := hstat err rfl
        dsimp only
        split
        · next hmissing =>
          split
          · have hmake : Still u me w.acts
                (fun s ↦ Denotes d name none s ∧ w.fs.lookup d name = none) _
                (makeFolder d name maker walk.trail) := still_frame (still_makeFolder hn) _
            refine ((hmake w₂ (hw₂.2.mono fun s hs ↦ ?_)).imp (fun _ _ _ h' ↦ h'.1)
              fun _ _ _ h' ↦ h').bind fun _ w₃ _ hw₃ ↦ ih (room_of_again h hw₃)
            have hnone := hs.2 (of_decide_eq_true hmissing)
            exact ⟨hs.1.trans hnone, hnone⟩
          · exact ⟨trivial, hw₂.1⟩
        · exact ⟨trivial, hopenErr openErr rfl⟩
      · dsimp only
        split
        · exact (ends_followLink w₂).bind fun _ _ _ hleft ↦ ⟨trivial, hleft⟩
        · exact ⟨trivial, hopenErr openErr rfl⟩
        · exact ⟨trivial, nofun⟩
        · exact ⟨trivial, nofun⟩
    · exact ⟨trivial, Nat.le_refl _⟩

theorem ends_descend {maker passes : Nat} {n : Component} {w : World}
    (h : 2 * w.acts + 1 < passes) :
    Safe (among u me) (fun _ ↦ True) (fun e _ ↦ e ≠ .exhausted)
      (fun r w' ↦ left r.2 ≤ left walk ∧ w'.acts ≤ w.acts)
      (descend d n create maker walk passes) w := by
  have hends : Safe (among u me) (fun _ ↦ True) (fun e _ ↦ e ≠ .exhausted)
      (fun r _ ↦ left r.2 ≤ left walk) (descend d n create maker walk passes) w := by
    unfold descend cstr
    split
    · exact ⟨trivial, nofun⟩
    · next hzero =>
      have hroom : Room d n.1 passes w := by
        unfold Room
        have hbit : (if (w.fs.lookup d n.1).isNone then 1 else 0) ≤ 1 := by
          split <;> omega
        omega
      exact ends_descendLoop (ordinary_of_component (Bool.eq_false_iff.2 hzero)) passes hroom
  refine (Prog.Safe.and hends (acts_le _ w)).mono fun r w' _ h' ↦ ?_
  rcases r with e | r
  · exact h'.1
  · exact h'

/-- A call, and the moves left after it. -/
theorem ends_call {o : Call} (w : World) :
    Safe (among u me) (fun _ ↦ True) (fun e _ ↦ e ≠ .exhausted)
      (fun _ w' ↦ w'.acts ≤ w.acts) (sys o) w := by
  refine (Prog.Safe.and (ends_sys w) (acts_le _ w)).mono fun r w' _ h' ↦ ?_
  rcases r with e | v
  · exact h'.1
  · exact h'.2

/-- **The loop of the walk ends.** -/
theorem ends_walkOn {maker passes : Nat} (rounds : Nat) {w : World} (hleft : left walk < rounds)
    (h : 2 * w.acts + 1 < passes) :
    Safe (among u me) (fun _ ↦ True) (fun e _ ↦ e ≠ .exhausted) (fun _ _ ↦ True)
      (walkOn create maker passes d walk rounds) w := by
  induction rounds generalizing d walk w with
  | zero => exact absurd hleft (Nat.not_lt_zero _)
  | succ rounds ih =>
    obtain ⟨steps, trail⟩ := walk
    have hpop {steps : List Step} {step : Step}
        (hleft : left ⟨step :: steps, trail⟩ < rounds + 1) : left ⟨steps, trail⟩ < rounds := by
      simp only [left, List.length_cons] at hleft ⊢
      omega
    rcases steps with - | ⟨- | - | n, steps⟩
    · exact ⟨trivial, trivial⟩
    · exact (ends_call w).bind fun _ w' _ hacts ↦ ih (hpop hleft) (by omega)
    · exact (ends_call w).bind fun _ w' _ hacts ↦ ih (hpop hleft) (by omega)
    · have hdescend : Safe (among u me) _ _ _
          (descend d n create maker ⟨steps, trail⟩ passes) w := ends_descend h
      refine hdescend.bind ?_
      rintro ⟨- | next, walk'⟩ w' - ⟨hleft', hacts⟩
      · exact ih (Nat.lt_of_le_of_lt hleft' (hpop hleft)) (by omega)
      · exact ih (Nat.lt_of_le_of_lt hleft' (hpop hleft)) (by omega)

/-- **The walk ends.** -/
theorem ends_openDir {path : List UInt8} {owner : Option (Nat × Nat)}
    {caller maker limit rounds passes : Nat} {w : World}
    (hrounds : path.length + 1 + limit * (pathMax + 2) < rounds) (h : 2 * w.acts + 1 < passes) :
    Safe (among u me) (fun _ ↦ True) (fun e _ ↦ e ≠ .exhausted) (fun _ _ ↦ True)
      (openDir path create owner caller maker limit rounds passes) w := by
  have hsys {o : Call} (w : World) : Safe (among u me) (fun _ ↦ True)
      (fun e _ ↦ e ≠ .exhausted) (fun _ _ ↦ True) (sys o) w := ends_sys w
  refine (ends_call w).bind fun start w₁ _ hacts ↦ ?_
  have hwalk : left ⟨stepsIn path, .new limit⟩ < rounds := by
    have hsteps := length_stepsIn path
    simp only [left, Trail.new, Nat.sub_zero]
    omega
  refine (ends_walkOn rounds hwalk (by omega)).bind ?_
  rintro ⟨cur, trail⟩ w₂ - -
  refine Safe.bind (R := fun _ _ ↦ True) ?_ fun _ w₃ _ _ ↦ ?_
  · unfold Trail.endAt Trail.staysWithTheLinkOwner
    split
    · exact ⟨trivial, trivial⟩
    · refine Safe.bind (R := fun _ _ ↦ True)
        ((hsys w₂).bind fun st w' _ _ ↦ ⟨trivial, trivial⟩) fun owner w' _ _ ↦ ?_
      rcases owner with - | owner
      · exact ⟨trivial, nofun⟩
      · dsimp only
        split
        · exact ⟨trivial, trivial⟩
        · exact ⟨trivial, nofun⟩
  · refine Safe.bind (R := fun _ _ ↦ True) ?_ fun _ w₄ _ _ ↦ hsys w₄
    rcases owner with - | ⟨uid, gid⟩
    · exact ⟨trivial, trivial⟩
    · refine (hsys w₃).bind fun st w' _ _ ↦ ?_
      unfold expectOwner
      split
      · exact ⟨trivial, nofun⟩
      · exact ⟨trivial, trivial⟩

end Ends

/-! ### Pathname resolution -/

/-- Names that are looked up in the folder itself. -/
def plain (p : Name) : Prop := p ≠ [] ∧ p ≠ dot ∧ p ≠ dotDot

/-- The text of a link. -/
def linkText (s : Fs) (i : Nat) : List UInt8 := (s.node i).bytes.take pathMax

/-- **Pathname resolution**, from a folder, over what stands between the separators: nothing and `.`
stay, `..` goes up, a name goes down into a folder, and a link is replaced by its text, which begins
at the root or in the folder of the link. -/
inductive Resolves (s : Fs) : Nat → List Name → Nat → Prop
  | done (d : Nat) : Resolves s d [] d
  | stay {d d' : Nat} {p : Name} {ps : List Name} (hp : p = [] ∨ p = dot)
      (h : Resolves s d ps d') : Resolves s d (p :: ps) d'
  | up {d i d' : Nat} {ps : List Name} (hi : s.lookup d dotDot = some i)
      (hkind : (s.node i).kind = .directory) (h : Resolves s i ps d') :
      Resolves s d (dotDot :: ps) d'
  | down {d i d' : Nat} {p : Name} {ps : List Name} (hp : plain p) (hi : s.lookup d p = some i)
      (hkind : (s.node i).kind = .directory) (h : Resolves s i ps d') : Resolves s d (p :: ps) d'
  | link {d i d' : Nat} {p : Name} {ps : List Name} (hp : plain p) (hi : s.lookup d p = some i)
      (hkind : (s.node i).kind = .symlink)
      (h : Resolves s (if rooted (linkText s i) then s.root else d) (pieces (linkText s i) ++ ps)
        d') :
      Resolves s d (p :: ps) d'

/-- The folder a path denotes; the empty path denotes none. -/
def PathResolves (s : Fs) (path : List UInt8) (d : Nat) : Prop :=
  path ≠ [] ∧ Resolves s (s.start (rooted path)) (pieces path) d

theorem Resolves.unique {s : Fs} {d d₁ d₂ : Nat} {ps : List Name} (h₁ : Resolves s d ps d₁)
    (h₂ : Resolves s d ps d₂) : d₁ = d₂ := by
  induction h₁ with
  | done d =>
    cases h₂ with
    | done => rfl
  | stay hp h ih =>
    cases h₂ with
    | stay hp' h' => exact ih h'
    | up hi hkind h' => rcases hp with hp | hp <;> cases hp
    | down hp' hi hkind h' => rcases hp with hp | hp <;> simp [plain, hp] at hp'
    | link hp' hi hkind h' => rcases hp with hp | hp <;> simp [plain, hp] at hp'
  | up hi hkind h ih =>
    cases h₂ with
    | stay hp' h' => rcases hp' with hp | hp <;> cases hp
    | up hi' hkind' h' =>
      obtain rfl := Option.mem_unique hi hi'
      exact ih h'
    | down hp' hi hkind h' => exact absurd rfl hp'.2.2
    | link hp' hi hkind h' => exact absurd rfl hp'.2.2
  | down hp hi hkind h ih =>
    cases h₂ with
    | stay hp' h' => rcases hp' with hp' | hp' <;> simp [plain, hp'] at hp
    | up hi' hkind' h' => exact absurd rfl hp.2.2
    | down hp' hi' hkind' h' =>
      obtain rfl := Option.mem_unique hi hi'
      exact ih h'
    | link hp' hi' hkind' h' =>
      obtain rfl := Option.mem_unique hi hi'
      cases hkind.symm.trans hkind'
  | link hp hi hkind h ih =>
    cases h₂ with
    | stay hp' h' => rcases hp' with hp' | hp' <;> simp [plain, hp'] at hp
    | up hi' hkind' h' => exact absurd rfl hp.2.2
    | down hp' hi' hkind' h' =>
      obtain rfl := Option.mem_unique hi hi'
      cases hkind.symm.trans hkind'
    | link hp' hi' hkind' h' =>
      obtain rfl := Option.mem_unique hi hi'
      exact ih h'

/-- Resolution over the steps of a walk. -/
inductive Steps (s : Fs) : Nat → List Step → Nat → Prop
  | done (d : Nat) : Steps s d [] d
  | root {d d' : Nat} {steps : List Step} (h : Steps s s.root steps d') :
      Steps s d (.root :: steps) d'
  | up {d i d' : Nat} {steps : List Step} (hi : s.lookup d dotDot = some i)
      (hkind : (s.node i).kind = .directory) (h : Steps s i steps d') :
      Steps s d (.parent :: steps) d'
  | down {d i d' : Nat} {n : Component} {steps : List Step} (hi : s.lookup d n.1 = some i)
      (hkind : (s.node i).kind = .directory) (h : Steps s i steps d') :
      Steps s d (.name n :: steps) d'
  | link {d i d' : Nat} {n : Component} {steps : List Step} (hi : s.lookup d n.1 = some i)
      (hkind : (s.node i).kind = .symlink) (h : Steps s d (stepsOf (linkText s i) ++ steps) d') :
      Steps s d (.name n :: steps) d'

theorem stepOf_eq_none {p : Name} {hp : slash ∉ p} (h : stepOf p hp = none) : p = [] ∨ p = dot := by
  unfold stepOf at h
  split at h
  · next hskip => exact hskip
  · split at h <;> cases h

theorem stepOf_eq_parent {p : Name} {hp : slash ∉ p} (h : stepOf p hp = some .parent) :
    p = dotDot := by
  unfold stepOf at h
  split at h
  · cases h
  · split at h
    · next hup => exact hup
    · cases h

theorem stepOf_eq_name {p : Name} {hp : slash ∉ p} {n : Component}
    (h : stepOf p hp = some (.name n)) : p = n.1 := by
  unfold stepOf at h
  split at h
  · cases h
  · split at h
    · cases h
    · obtain rfl := Step.name.inj (Option.some.inj h)
      rfl

theorem stepOf_ne_root {p : Name} {hp : slash ∉ p} : stepOf p hp ≠ some .root := by
  unfold stepOf
  split
  · exact nofun
  · split <;> exact nofun

theorem map_piecesOf (path : List UInt8) : (piecesOf path).map Subtype.val = pieces path := by
  rw [piecesOf, List.map_map]
  exact List.attach_map_subtype_val _

/-- Pieces that stand for nothing are passed. -/
theorem Resolves.stays {s : Fs} {d d' : Nat} {ps : List Name} (skips : List Piece)
    (hskips : ∀ p ∈ skips, stepOf p.1 p.2 = none) (h : Resolves s d ps d') :
    Resolves s d (skips.map Subtype.val ++ ps) d' := by
  induction skips with
  | nil => exact h
  | cons p skips ih =>
    obtain ⟨hp, hskips⟩ := List.forall_mem_cons.1 hskips
    exact .stay (stepOf_eq_none hp) (ih hskips)

/-- **The steps of a path lead where the path does.** A path whose next piece begins at the root has
its first step there. -/
theorem Steps.resolves {s : Fs} {d d' : Nat} {steps : List Step} (h : Steps s d steps d')
    (ps : List Piece) :
    (steps = stepsFor ps → Resolves s d (ps.map Subtype.val) d') ∧
      (steps = .root :: stepsFor ps → Resolves s s.root (ps.map Subtype.val) d') := by
  have hnext {step : Step} {steps : List Step} {ps : List Piece}
      (heq : step :: steps = stepsFor ps) :
      ∃ skips p rest, ps = skips ++ p :: rest ∧ (∀ p ∈ skips, stepOf p.1 p.2 = none) ∧
        stepOf p.1 p.2 = some step ∧ stepsFor rest = steps := by
    obtain ⟨skips, p, rest, hps, hskips, hp, hrest⟩ := List.filterMap_eq_cons_iff.1 heq.symm
    exact ⟨skips, p, rest, hps, hskips, hp, hrest⟩
  induction h generalizing ps with
  | done d =>
    refine ⟨fun heq ↦ ?_, nofun⟩
    have hskips := List.filterMap_eq_nil_iff.1 heq.symm
    have hstays := Resolves.stays ps hskips (Resolves.done (s := s) d)
    rwa [List.append_nil] at hstays
  | root h ih =>
    refine ⟨fun heq ↦ ?_, fun heq ↦ (ih ps).1 (List.cons.inj heq).2⟩
    obtain ⟨skips, p, rest, rfl, -, hp, -⟩ := hnext heq
    exact absurd hp stepOf_ne_root
  | up hi hkind h ih =>
    refine ⟨fun heq ↦ ?_, nofun⟩
    obtain ⟨skips, p, rest, rfl, hskips, hp, hrest⟩ := hnext heq
    rw [List.map_append, List.map_cons, stepOf_eq_parent hp]
    exact .stays skips hskips (.up hi hkind ((ih rest).1 hrest.symm))
  | @down d i d' n steps hi hkind h ih =>
    refine ⟨fun heq ↦ ?_, nofun⟩
    obtain ⟨skips, p, rest, rfl, hskips, hp, hrest⟩ := hnext heq
    rw [List.map_append, List.map_cons, stepOf_eq_name hp]
    exact .stays skips hskips (.down ⟨n.2.1, n.2.2.1, n.2.2.2.1⟩ hi hkind ((ih rest).1 hrest.symm))
  | @link d i d' n steps hi hkind h ih =>
    refine ⟨fun heq ↦ ?_, nofun⟩
    obtain ⟨skips, p, rest, rfl, hskips, hp, hrest⟩ := hnext heq
    rw [List.map_append, List.map_cons, stepOf_eq_name hp]
    refine .stays skips hskips (.link ⟨n.2.1, n.2.2.1, n.2.2.2.1⟩ hi hkind ?_)
    have hsteps : stepsIn (linkText s i) ++ steps = stepsFor (piecesOf (linkText s i) ++ rest) := by
      rw [← hrest, stepsIn, stepsFor, stepsFor, stepsFor, List.filterMap_append]
    rw [← map_piecesOf, ← List.map_append]
    split
    · next hroot =>
      refine (ih (piecesOf (linkText s i) ++ rest)).2 ?_
      rw [stepsOf, if_pos hroot, List.cons_append, hsteps]
    · next hroot =>
      refine (ih (piecesOf (linkText s i) ++ rest)).1 ?_
      rw [stepsOf, if_neg hroot, hsteps]

/-! ### A tree that does not change -/

/-- Calls that change nothing. -/
def reading : Call → Bool
  | .start _ | .fstat _ | .fstatat .. | .readlinkat .. => true
  | .openat _ _ flags _ => !flags.create
  | _ => false

theorem act_of_reading {me who : Nat} {s s' : Fs} {o : Call} {v : Val o} (h : reading o = true)
    (hact : s.act me who o = .ok (v, s')) : s' = s := by
  cases o with
  | start rooted =>
    cases hact
    rfl
  | fstat f =>
    cases hact
    rfl
  | fstatat d n =>
    simp only [Fs.act] at hact
    split at hact
    · cases hact
      rfl
    · cases hact
  | readlinkat d n =>
    simp only [Fs.act] at hact
    split at hact
    · split at hact
      · cases hact
        rfl
      · cases hact
    · cases hact
  | openat d n flags mode =>
    have hcreate : flags.create = false := by simpa [reading] using h
    simp only [Fs.act, hcreate, Bool.false_eq_true, if_false] at hact
    split at hact
    · split at hact
      · cases hact
        rfl
      · cases hact
    · cases hact
  | _ => cases h

theorem after_of_reading {me who : Nat} {s : Fs} {o : Call} {fail : Bool} (h : reading o = true) :
    s.after me who o fail = s := by
  unfold Fs.after
  split
  · rfl
  · split
    · next hact => exact act_of_reading h hact
    · rfl

section Quiet

variable {u me d : Nat} {name : Name} {s : Fs} {w : World} {walk : Walk} {α : Type}

/-- The tree is `s`, and the user makes no move. -/
def Resting (s : Fs) (w : World) : Prop := w.fs = s ∧ w.acts = 0

/-- **A call that changes nothing, on a tree that does not change.** -/
theorem safe_reading {o : Call} {Q : Val o → World → Prop} (ho : reading o = true)
    (h : Resting s w) (hok : ∀ v fail, s.answer me 0 o fail = .ok v → ∀ w', Q v w') :
    Safe (among u me) (Resting s) (fun _ _ ↦ True) Q (sys o) w := by
  obtain ⟨hfs, hacts⟩ := h
  refine ⟨⟨hfs, hacts⟩, fun c ↦ ?_⟩
  have hmet : w.met u c.1 = s := by
    rw [World.met, hacts, List.take_zero]
    exact hfs
  have hrest : Resting s ((among u me).next w o c) := by
    refine ⟨?_, ?_⟩
    · show (w.met u c.1).after me 0 o c.2 = s
      rw [hmet]
      exact after_of_reading ho
    · show w.acts - c.1.length = 0
      omega
  refine ⟨hrest, ?_⟩
  show Fallible.post _ _ (((w.met u c.1).answer me 0 o c.2).mapError _) _
  rw [hmet]
  rcases hanswer : s.answer me 0 o c.2 with kind | v
  · exact trivial
  · exact hok v c.2 hanswer _

theorem kind_of_opens {flags : Flags} {i : Nat} (hdirectory : flags.directory = true)
    (h : s.opens flags i = true) : (s.node i).kind = .directory := by
  simp only [Fs.opens, hdirectory] at h
  split at h
  · cases h
  · next hdir => exact hdir
  · cases h
  · cases h

theorem finds_openDirAt (h : Resting s w) : Safe (among u me) (Resting s) (fun _ _ ↦ True)
      (fun next _ ↦ s.lookup d name = some next ∧ (s.node next).kind = .directory)
      (openDirAt d name) w := by
  refine safe_reading rfl h fun (next : Nat) fail hnext _ ↦ ?_
  obtain ⟨hlookup, hopens, -⟩ := opened_of_answer rfl hnext
  exact ⟨hlookup, kind_of_opens rfl hopens⟩

/-- What a step into a name finds: a folder, or a link whose text comes first. -/
def Finds (s : Fs) (d : Nat) (name : Name) (walk : Walk) : Option Nat × Walk → Prop
  | (some next, walk') =>
    walk' = walk ∧ s.lookup d name = some next ∧ (s.node next).kind = .directory
  | (none, walk') => ∃ i, s.lookup d name = some i ∧ (s.node i).kind = .symlink ∧
    walk'.steps = stepsOf (linkText s i) ++ walk.steps

theorem finds_followLink {entry : Meta} (h : Resting s w) :
    Safe (among u me) (Resting s) (fun _ _ ↦ True)
      (fun walk' _ ↦ Finds s d name walk (none, walk')) (followLink d name entry walk) w := by
  have hparent : Safe (among u me) (Resting s) (fun _ _ ↦ True) (fun _ _ ↦ True)
      (sys (.fstat d)) w := safe_reading rfl h fun _ _ _ _ ↦ trivial
  refine hparent.bind fun p w₁ h₁ _ ↦ ?_
  rcases walk.trail.follow (metaOwner p) (metaOwner entry) with why | trail'
  · exact ⟨h₁, trivial⟩
  · have hread : Safe (among u me) (Resting s) (fun _ _ ↦ True)
        (fun t _ ↦ ∃ i, s.lookup d name = some i ∧ (s.node i).kind = .symlink ∧ t = linkText s i)
        (sys (.readlinkat d name)) w₁ :=
      safe_reading rfl h₁ fun _ _ hanswer _ ↦ read_of_answer hanswer
    refine hread.bind fun target w₂ h₂ htarget ↦ ⟨h₂, ?_⟩
    obtain ⟨i, hi, hkind, rfl⟩ := htarget
    exact ⟨i, hi, hkind, rfl⟩

theorem finds_descend {n : Component} {maker : Nat} (passes : Nat) (h : Resting s w) :
    Safe (among u me) (Resting s) (fun _ _ ↦ True) (fun r _ ↦ Finds s d n.1 walk r)
      (descend d n false maker walk passes) w := by
  unfold descend cstr
  split
  · exact ⟨h, trivial⟩
  cases passes with
  | zero => exact ⟨h, trivial⟩
  | succ passes =>
    refine Safe.bind (R := fun _ w' ↦ w' = w) ⟨h, rfl⟩ ?_
    rintro - _ - rfl
    refine (Fallible.safe_attempt (Q := fun r _ ↦ ∀ next, r = .ok next →
      s.lookup d n.1 = some next ∧ (s.node next).kind = .directory)
      ((finds_openDirAt h).imp (fun _ _ _ _ ↦ nofun) ?_)).bind ?_
    · rintro next w' - hnext _ ⟨rfl⟩
      exact hnext
    rintro (openErr | next) w₁ h₁ hnext
    · have hentry : Safe (among u me) (Resting s) (fun _ _ ↦ True) (fun _ _ ↦ True)
          (sys (.fstatat d n.1)) w₁ := safe_reading rfl h₁ fun _ _ _ _ ↦ trivial
      refine (Fallible.safe_attempt (Q := fun _ _ ↦ True) hentry).bind ?_
      rintro (err | entry) w₂ h₂ -
      · dsimp only
        split
        · exact ⟨h₂, trivial⟩
        · exact ⟨h₂, trivial⟩
      · dsimp only
        split
        · exact (finds_followLink h₂).bind fun _ _ h₃ hfinds ↦ ⟨h₃, hfinds⟩
        · exact ⟨h₂, trivial⟩
        · exact ⟨h₂, trivial⟩
        · exact ⟨h₂, trivial⟩
    · exact ⟨h₁, rfl, hnext next rfl⟩

/-- A walk takes the steps of its path. -/
theorem finds_walkOn {maker passes : Nat} (rounds : Nat) (h : Resting s w) :
    Safe (among u me) (Resting s) (fun _ _ ↦ True)
      (fun r _ ↦ Steps s d walk.steps r.1) (walkOn false maker passes d walk rounds) w := by
  induction rounds generalizing d walk w with
  | zero => exact ⟨h, trivial⟩
  | succ rounds ih =>
    obtain ⟨steps, trail⟩ := walk
    rcases steps with - | ⟨- | - | n, steps⟩
    · exact ⟨h, .done d⟩
    · have hstart : Safe (among u me) (Resting s) (fun _ _ ↦ True)
          (fun next _ ↦ next = s.root) (openStart true) w := by
        refine safe_reading rfl h fun (next : Nat) fail hnext _ ↦ ?_
        rcases fail with - | -
        · exact (Except.ok.inj hnext).symm
        · cases hnext
      refine hstart.bind fun next w' h' hnext ↦ ?_
      exact (ih h').mono fun _ _ _ hsteps ↦ .root (hnext ▸ hsteps)
    · refine (finds_openDirAt h).bind fun next w' h' hnext ↦ ?_
      exact (ih h').mono fun _ _ _ hsteps ↦ .up hnext.1 hnext.2 hsteps
    · have hdescend : Safe (among u me) (Resting s) _ _
          (descend d n false maker ⟨steps, trail⟩ passes) w := finds_descend passes h
      refine hdescend.bind ?_
      rintro ⟨- | next, walk'⟩ w' h' hfinds
      · obtain ⟨i, hi, hkind, hsteps⟩ := hfinds
        exact (ih h').mono fun _ _ _ hwalk ↦ .link hi hkind (hsteps ▸ hwalk)
      · obtain ⟨rfl, hi, hkind⟩ := hfinds
        exact (ih h').mono fun _ _ _ hwalk ↦ .down hi hkind hwalk

/-- **On a tree that does not change, a walk that makes nothing ends where its path leads.** -/
theorem finds_openDir {path : List UInt8} {owner : Option (Nat × Nat)}
    {caller maker limit rounds passes : Nat} (h : Resting s w) :
    Safe (among u me) (Resting s) (fun _ _ ↦ True)
      (fun dir _ ↦ Resolves s (s.start (rooted path)) (pieces path) dir)
      (openDir path false owner caller maker limit rounds passes) w := by
  have hsys {o : Call} {w : World} (ho : reading o = true) (h : Resting s w) :
      Safe (among u me) (Resting s) (fun _ _ ↦ True) (fun _ _ ↦ True) (sys o) w :=
    safe_reading ho h fun _ _ _ _ ↦ trivial
  have hstart : Safe (among u me) (Resting s) (fun _ _ ↦ True)
      (fun next _ ↦ next = s.start (rooted path)) (openStart (rooted path)) w := by
    refine safe_reading rfl h fun (next : Nat) fail hnext _ ↦ ?_
    rcases fail with - | -
    · exact (Except.ok.inj hnext).symm
    · cases hnext
  refine hstart.bind ?_
  rintro _ w₁ h₁ rfl
  refine (finds_walkOn rounds h₁).bind ?_
  rintro ⟨cur, trail⟩ w₂ h₂ hsteps
  refine Safe.bind (R := fun _ _ ↦ True) ?_ fun _ w₃ h₃ _ ↦ ?_
  · unfold Trail.endAt Trail.staysWithTheLinkOwner
    split
    · exact ⟨h₂, trivial⟩
    · refine Safe.bind (R := fun _ _ ↦ True)
        ((hsys rfl h₂).bind fun st w' h' _ ↦ ⟨h', trivial⟩) fun owner w' h' _ ↦ ?_
      rcases owner with - | owner
      · exact ⟨h', trivial⟩
      · dsimp only
        split <;> exact ⟨h', trivial⟩
  · refine Safe.bind (R := fun _ _ ↦ True) ?_ fun _ w₄ h₄ _ ↦ ?_
    · rcases owner with - | ⟨uid, gid⟩
      · exact ⟨h₃, trivial⟩
      · refine (hsys rfl h₃).bind fun st w' h' _ ↦ ?_
        unfold expectOwner
        split <;> exact ⟨h', trivial⟩
    · refine safe_reading rfl h₄ fun (dir : Nat) fail hdir _ ↦ ?_
      obtain ⟨hlookup, -, -⟩ := opened_of_answer rfl hdir
      obtain rfl : cur = dir := Option.some.inj hlookup
      have hresolves := (hsteps.resolves (piecesOf path)).1 rfl
      rwa [map_piecesOf] at hresolves

end Quiet

/-! ### Runs -/

/-- **A walk stays with the owner of the links it followed**, whatever the user does between its
calls: its calls are guided, it ends in a folder of the user's if it read a link of the user's, in
one of the expected owner's or the caller's, it comes to an end, and on a tree that does not change
it ends in the folder that the path denotes. -/
theorem walk_stays_with_link_owner (path : List UInt8) (create : Bool) (owner : Option (Nat × Nat))
    (u me caller limit rounds passes : Nat) (w : World) (schedule : List (List Move × Bool))
    (hu : u ≠ 0) (hwalk : Walkable w.fs) (htrace : w.trace = []) :
    let ended := (openDir path create owner caller me limit rounds passes).run.run (among u me) w
      schedule
    Guided u limit ended.2.1.trace ∧
      (∀ dir, ended.1 = some (.ok dir) → Ending u caller owner dir ended.2.1) ∧
      (path.length + 1 + limit * (pathMax + 2) < rounds → 2 * w.acts + 1 < passes →
        ended.1 ≠ some (.error .exhausted)) ∧
      (w.acts = 0 → create = false → path ≠ [] → ∀ dir, ended.1 = some (.ok dir) →
        ∀ d, PathResolves w.fs path d ↔ d = dir) := by
  intro ended
  have hsafe : Safe (among u me) _ _ _
      (openDir path create owner caller me limit rounds passes) w :=
    safe_openDir hu (sound_of_walkable hwalk htrace) htrace
  refine ⟨(hsafe.sound schedule).1.guided, fun dir hdir ↦ (hsafe.sound schedule).2 _ hdir, ?_, ?_⟩
  · intro hrounds hpasses hexhausted
    exact ((ends_openDir hrounds hpasses).sound schedule).2 _ hexhausted rfl
  · rintro hacts rfl hpath dir hdir d
    have hfinds : Safe (among u me) (Resting w.fs) _ _
        (openDir path false owner caller me limit rounds passes) w := finds_openDir ⟨rfl, hacts⟩
    have hresolves := (hfinds.sound schedule).2 _ hdir
    refine ⟨fun hd ↦ hd.2.unique hresolves, ?_⟩
    rintro rfl
    exact ⟨hpath, hresolves⟩

theorem walk_stays_with_link_owner_below :
    let ended := (openDir [47, 117, 47, 108, 47, 110] true none 0 0 40 9 9).run.run (among 1000 0)
      ⟨linkedFolder [([108], 2)], 1, []⟩ (List.replicate 20 ([], false))
    ended.1 = some (.ok 4) ∧ Guided 1000 40 ended.2.1.trace ∧ Ending 1000 0 none 4 ended.2.1 := by
  intro ended
  have h := walk_stays_with_link_owner [47, 117, 47, 108, 47, 110] true none 1000 0 0 40 9 9
    ⟨linkedFolder [([108], 2)], 1, []⟩ (List.replicate 20 ([], false)) (by decide)
    oneLink_walkable rfl
  exact ⟨rfl, h.1, h.2.1 4 rfl⟩

/-- The owner of the link that a call reads. -/
def readOwner (e : Event) : Option Nat :=
  match e.call with
  | .readlinkat d n => (e.before.lookup d n).map fun i ↦ (e.before.node i).uid
  | _ => none

/-- A folder of user 1000 with two links of theirs, beside a link of user 1001. -/
def twoUsersLinks : Fs where
  node i :=
    match i with
    | 0 => { Node.folder 0 0o755 0 with entries := [([117], 1), ([118], 3)] }
    | 1 => { Node.folder 1000 0o755 0 with entries := [([108], 2), ([109], 2)] }
    | 2 => .fresh .symlink 1000 0o777 [46]
    | _ => .fresh .symlink 1001 0o777 [46]
  next := 4
  lock _ := none
  root := 0
  cwd := 0

/-- User 1000 puts a hard link to the link of user 1001 in the place of a link that was judged, so
that links of two users are followed; and a walk to the empty path succeeds, which denotes
nothing. -/
theorem links_of_two_users_followed :
    (((openDir [47, 117, 47, 108, 47, 109] false none 0 0 40 9 9).run.run (among 1000 0)
        ⟨twoUsersLinks, 2, []⟩ (List.replicate 5 ([], false) ++
          [([Move.remove 1 [108], .link 3 1 [108]], false)] ++
            List.replicate 6 ([], false))).2.1.trace.filterMap readOwner = [1000, 1001]) ∧
    ((openDir [] false none 0 0 40 9 9).run.run (among 1000 0) ⟨twoUsersLinks, 0, []⟩
        (List.replicate 2 ([], false))).1 = some (.ok 0) ∧
    ¬ ∃ d, PathResolves twoUsersLinks [] d :=
  ⟨rfl, rfl, fun h ↦ h.elim fun _ hd ↦ hd.1 rfl⟩

end Hole.Files
