import Hole.Effect.History
import Hole.State.Backups

/-!
# The lock of a state file, and its generation

`versioned_file/generation.rs`, and `observe` and `update` of `update.rs` with it: any number of
calls on one path, from any number of threads. Each holds the path's lock for its whole body; what
it does in there are the calls of `Backups`, between which the others may run, and other processes
may write. The generation is read once, with what was read of the file, and moves before the first
call that could change the file: `obeys_program` checks that of the programs, as a protocol.

A history (a ghost) has, newest first, when a lock was taken and with which bytes at the name, when
a generation was read, when it moved, and what an update left.
-/

namespace Hole.State.Backups

open Effect

variable {σ ρ : Type}

/-! ### The calls -/

/-- What another process does to the folder. -/
abbrev Outside : Type := {f : Shelf → Shelf // ∀ s, Wf s → Wf (f s)}

/-- The calls of `observe` and `update`. -/
inductive LockedOp (σ : Type)
  /-- `generation::lock`. -/
  | lock
  /-- A call of the file system. -/
  | fs (place : Place) (o : Call)
  /-- `Held::generation`, for an `Observed` with what was read. -/
  | generation (loaded : Loaded σ)
  | bump
  | unlock (update : Bool)
  | outside (f : Outside)

/-- What they answer. -/
abbrev Reply : LockedOp σ → Type
  | .fs _ o => Ans o
  | .generation _ => Nat
  | _ => Unit

/-- One call. -/
def ask (o : LockedOp σ) : Prog (LockedOp σ) Reply (Reply o) := Prog.perform o

/-- A program without the lock, as a part of one with it. -/
def lift {α : Type} (place : Place) : Prog Call Ans α → Prog (LockedOp σ) Reply α
  | .pure a => .pure a
  | .call o k => .call (.fs place o) fun a ↦ lift place (k a)

/-! ### The programs -/

/-- How a call ended. -/
inductive Returned (σ ρ : Type)
  | observed (loaded : Loaded σ) (generation : Nat)
  | updated (updated : Updated σ ρ)
  | panicked
  | wrote

/-- What a thread, or another process, can do. -/
inductive Caller (σ ρ : Type)
  | observe (place : Place)
  /-- With the decision of what was read, and of its generation, which may panic. -/
  | update (place : Place) (passes : Nat) (decide : Loaded σ → Nat → Option (Change σ × ρ))
  | outside (f : Outside)

section Programs

variable (schema : Schema σ) (file : FileName)

/-- `VersionedFile::observe`, under the lock. -/
def observeLocked (place : Place) : Prog (LockedOp σ) Reply (Returned σ ρ) := do
  ask .lock
  let loaded ← lift place (observe schema file)
  let generation : Nat ← ask (.generation loaded)
  ask (.unlock false)
  pure (.observed loaded generation)

/-- An action that comes to a write, a removal or a move. -/
def attempts (dir : Bool) : Step σ → Bool
  | .nothing _ => false
  | .refuse _ => false
  | .write _ _ => true
  | .delete => dir
  | .moveAside => dir

/-- The generation moves, where there is an attempt. -/
def bumped (attempt : Bool) : Prog (LockedOp σ) Reply Unit :=
  if attempt then ask .bump else pure ()

variable (role : Role)

/-- `VersionedFile::update`, under the lock. -/
def updateLocked (place : Place) (passes : Nat) (decide : Loaded σ → Nat → Option (Change σ × ρ)) :
    Prog (LockedOp σ) Reply (Returned σ ρ) := do
  ask .lock
  let looked ← lift place (look schema file).run
  match looked with
  | .error stop =>
    ask (.unlock true)
    pure (.updated ⟨none, .error stop⟩)
  | .ok (dir, loaded) =>
    let generation : Nat ← ask (.generation loaded)
    match decide loaded generation with
    | none =>
      ask (.unlock true)
      pure .panicked
    | some (change, result) =>
      match schema.encodeChange change with
      | .error error =>
        ask (.unlock true)
        pure (.updated ⟨some loaded, .error (.failed error)⟩)
      | .ok bytes =>
        let chosen := step role loaded change
        bumped (attempts dir chosen)
        let done ← lift place (apply file passes dir bytes chosen).run
        ask (.unlock true)
        pure (.updated ⟨some loaded, done.map fun outcome ↦ (result, outcome)⟩)

/-- The program of a caller. -/
def program : Caller σ ρ → Prog (LockedOp σ) Reply (Returned σ ρ)
  | .observe place => observeLocked schema file place
  | .update place passes decide => updateLocked schema file role place passes decide
  | .outside f => do
    ask (.outside f)
    pure .wrote

end Programs

/-! ### Without the lock -/

theorem lift_bind {α β : Type} (place : Place) (p : Prog Call Ans α) (f : α → Prog Call Ans β) :
    (lift place (p >>= f) : Prog (LockedOp σ) Reply β) =
      lift place p >>= fun a ↦ lift place (f a) := by
  induction p with
  | pure a => rfl
  | call o k ih => exact congrArg (Prog.call (LockedOp.fs place o)) (funext ih)

/-- The calls of the file system in a program with the lock, where the generation is `g`. -/
def unlocked {α : Type} (g : Nat) : Prog (LockedOp σ) Reply α → Prog Call Ans α
  | .pure a => .pure a
  | .call (.fs _ o) k => .call o fun a ↦ unlocked g (k a)
  | .call (.generation _) k => unlocked g (k g)
  | .call .lock k => unlocked g (k ())
  | .call .bump k => unlocked g (k ())
  | .call (.unlock _) k => unlocked g (k ())
  | .call (.outside _) k => unlocked g (k ())

theorem unlocked_bind {α β : Type} (g : Nat) (p : Prog (LockedOp σ) Reply α)
    (f : α → Prog (LockedOp σ) Reply β) :
    unlocked g (p >>= f) = unlocked g p >>= fun a ↦ unlocked g (f a) := by
  induction p with
  | pure a => rfl
  | call o k ih =>
    cases o with
    | fs place o => exact congrArg (Prog.call o) (funext ih)
    | generation loaded => exact ih g
    | _ => exact ih ()

theorem unlocked_lift {α : Type} (g : Nat) (place : Place) (p : Prog Call Ans α) :
    unlocked g (lift place p : Prog (LockedOp σ) Reply α) = p := by
  induction p with
  | pure a => rfl
  | call o k ih => exact congrArg (Prog.call o) (funext ih)

theorem unlocked_bumped {α : Type} (g : Nat) (attempt : Bool)
    (f : Unit → Prog (LockedOp σ) Reply α) :
    unlocked g (bumped attempt >>= f) = unlocked g (f ()) := by
  cases attempt <;> rfl

/-- Without the lock, an update whose decision does not panic is that of `Backups`. -/
theorem update_of_unlocked {schema : Schema σ} {file : FileName} {role : Role} {place : Place}
    {passes g : Nat} {decide : Loaded σ → Nat → Option (Change σ × ρ)}
    {decided : Loaded σ → Change σ × ρ}
    (hdecided : ∀ loaded x, decide loaded g = some x → decided loaded = x) {s t : Shelf}
    {cs : List Choice} {u : Updated σ ρ}
    (h : (unlocked g (updateLocked schema file role place passes decide)).run
      (surroundings place file) s cs = (some (.updated u), t, [])) :
    (update schema file role passes decided).run (surroundings place file) s cs =
      (some u, t, []) := by
  change (unlocked g (lift place (look schema file).run >>= _)).run _ _ _ = _ at h
  rw [unlocked_bind, unlocked_lift, Prog.run_bind_eq_some] at h
  obtain ⟨looked, s', cs', hlook, h⟩ := h
  rw [update, Prog.run_bind_eq_some]
  refine ⟨looked, s', cs', hlook, ?_⟩
  rcases looked with stop | ⟨dir, loaded⟩
  · cases h
    rfl
  change (unlocked g (match decide loaded g with
    | none => _
    | some (change, result) => _)).run _ _ _ = _ at h
  rcases hchange : decide loaded g with - | ⟨change, result⟩
  · rw [hchange] at h
    cases h
  rw [hchange] at h
  dsimp only at h ⊢
  rw [hdecided loaded _ hchange]
  cases hencode : schema.encodeChange change with
  | error error =>
    rw [hencode] at h
    cases h
    rfl
  | ok bytes =>
    rw [hencode] at h
    dsimp only at h ⊢
    rw [unlocked_bumped, unlocked_bind, unlocked_lift, Prog.run_bind_eq_some] at h
    obtain ⟨done, t', ds, hdone, hret⟩ := h
    cases hret
    exact Prog.run_bind_eq_some.2 ⟨done, t, [], hdone, rfl⟩

/-! ### The system -/

/-- What happened, as far as an observation has to do with it. -/
inductive Event (σ : Type)
  | locked (i : Nat) (bytes : Option Bytes)
  | observed (i : Nat) (generation : Nat) (loaded : Loaded σ)
  /-- The generation moved, for an attempt to write. -/
  | attempt
  | finished (bytes : Option Bytes)
  | outside

/-- The folder, the lock of the file, and the history. The generation of the source has 64 bits,
which no process uses up. -/
structure World (σ : Type) where
  shelf : Shelf
  generation : Nat
  holder : Option Nat
  log : List (Event σ)

/-- The bytes at a name. -/
def Shelf.bytesAt (s : Shelf) (n : FileName) : Option Bytes :=
  (s.names n).map fun i ↦ (s.node i).bytes

section System

variable (file : FileName)

/-- What a call does. -/
def World.next (w : World σ) (i : Nat) (o : LockedOp σ) (c : Choice) : World σ :=
  match o with
  | .lock => { w with holder := some i, log := .locked i (w.shelf.bytesAt file) :: w.log }
  | .fs place o => { w with shelf := (surroundings place file).next w.shelf o c }
  | .generation loaded => { w with log := .observed i w.generation loaded :: w.log }
  | .bump => { w with generation := w.generation + 1, log := .attempt :: w.log }
  | .unlock true => { w with holder := none, log := .finished (w.shelf.bytesAt file) :: w.log }
  | .unlock false => { w with holder := none }
  | .outside f => { w with shelf := f.1 w.shelf, log := .outside :: w.log }

/-- What a call answers. -/
def World.reply (w : World σ) (c : Choice) : (o : LockedOp σ) → Reply o
  | .fs place o => (surroundings place file).answer w.shelf o c
  | .generation _ => w.generation
  | .lock => ()
  | .bump => ()
  | .unlock _ => ()
  | .outside _ => ()

/-- The calls on one path. Only the lock has to be waited for. -/
def callers (schema : Schema σ) (role : Role) :
    System (LockedOp σ) Reply (World σ) Choice (Caller σ ρ) (Returned σ ρ) where
  body := program schema file role
  arrives _ := true
  enabled w _ _ o :=
    match o with
    | .lock => w.holder.isNone
    | _ => true
  answer w _ _ o c := w.reply file c o
  next w i _ o c := w.next file i o c
  fork _ := none
  droppable _ _ := false
  finish w _ _ _ := w
  cleanup w _ _ := w

/-- Before the first call; what is at the name is what some update left. -/
def World.initial (shelf : Shelf) : World σ where
  shelf := shelf
  generation := 0
  holder := none
  log := [.finished (shelf.bytesAt file)]

end System

/-! ### How far a call has come -/

/-- What a read of the name is, if it works. -/
def readOf (schema : Schema σ) : Option Bytes → Loaded σ
  | none => .absent
  | some bytes => (schema.classify bytes).loaded

/-- What is seen of a name with these bytes: them, or that the read failed. -/
def Sees (schema : Schema σ) (bytes : Option Bytes) (loaded : Loaded σ) : Prop :=
  (∃ kind, loaded = .unreadable kind) ∨ loaded = readOf schema bytes

/-- The phases of a call. -/
inductive Phase
  | start
  /-- The lock is held, and so much is known of the bytes at the name. -/
  | inside (known : Option (Option Bytes))
  | ready
  | acting
  | over

/-- What an answer says about the bytes at the name. -/
def learn : (o : Call) → Ans o → Option (Option Bytes) → Option (Option Bytes)
  | .openDir _, .error .notFound, _ => some none
  | .reader, .error .notFound, _ => some none
  | .read _, .ok bytes, _ => some (some bytes)
  | .read _, .error .notFound, _ => some none
  | .kindOf _, .ok none, _ => some none
  | _, _, known => known

/-- A protocol of the calls. -/
abbrev CallProtocol (σ ρ : Type) : Type :=
  Protocol (LockedOp σ) Reply (Caller σ ρ) (Returned σ ρ) Phase

section Protocol

variable (schema : Schema σ) (file : FileName)

/-- The calls of an observation. -/
def Looks (o : Call) : Prop := o = .openDir false ∨ o = .reader ∨ o = .read file ∨ o = .kindOf file

/-- What is known of the bytes is what was read, if the read worked. -/
def Told (known : Option (Option Bytes)) (loaded : Loaded σ) : Prop :=
  (∃ kind, loaded = .unreadable kind) ∨ ∃ bytes, known = some bytes ∧ loaded = readOf schema bytes

/-- The calls of a phase. -/
def Phase.allows : Phase → LockedOp σ → Prop
  | .start, .lock => True
  | .start, .outside _ => True
  | .inside _, .fs _ o => Looks file o
  | .inside known, .generation loaded => Told schema known loaded
  | .inside _, .unlock true => True
  | .ready, .bump => True
  | .ready, .unlock _ => True
  | .acting, .fs _ _ => True
  | .acting, .unlock true => True
  | _, _ => False

/-- The phase after a call. -/
def Phase.after : Phase → (o : LockedOp σ) → Reply o → Phase
  | .start, .lock, _ => .inside none
  | .start, .outside _, _ => .over
  | .inside known, .fs _ o, a => .inside (learn o a known)
  | .inside _, .generation _, _ => .ready
  | .ready, .bump, _ => .acting
  | _, .unlock _, _ => .over
  | ph, _, _ => ph

/-- The protocol of the calls. -/
def callProtocol : CallProtocol σ ρ where
  enter _ := .start
  allows := Phase.allows schema file
  after := Phase.after
  leaves ph _ := ph = .over

variable {schema file} {α : Type}

/-- Behind the generation, anything may be called. -/
theorem follows_lift (place : Place) (p : Prog Call Ans α) :
    (lift place p).Follows (callProtocol schema file : CallProtocol σ ρ)
      (fun _ ph ↦ ph = .acting) .acting := by
  induction p with
  | pure a => rfl
  | call o k ih => exact ⟨trivial, fun a ↦ ih a⟩

theorem follows_examine (place : Place) (known : Option (Option Bytes)) :
    (lift place (examine file : Prog Call Ans (Loaded σ))).Follows
      (callProtocol schema file : CallProtocol σ ρ)
      (fun loaded ph ↦ ∃ known, ph = .inside known ∧ Told schema known loaded) (.inside known) := by
  refine ⟨.inr (.inr (.inr rfl)), fun answer ↦ ?_⟩
  rcases answer with kind | kind
  · exact ⟨_, rfl, .inl ⟨_, rfl⟩⟩
  · rcases kind with - | kind
    · exact ⟨_, rfl, .inr ⟨none, rfl, rfl⟩⟩
    · cases kind <;> exact ⟨_, rfl, .inl ⟨_, rfl⟩⟩

theorem follows_readThrough (place : Place) (known : Option (Option Bytes)) :
    (lift place (readThrough schema file)).Follows (callProtocol schema file : CallProtocol σ ρ)
      (fun loaded ph ↦ ∃ known, ph = .inside known ∧ Told schema known loaded) (.inside known) := by
  refine ⟨.inr (.inr (.inl rfl)), fun answer ↦ ?_⟩
  rcases answer with kind | bytes
  · cases kind with
    | notFound => exact ⟨_, rfl, .inr ⟨none, rfl, rfl⟩⟩
    | _ => exact follows_examine place _
  · exact ⟨_, rfl, .inr ⟨some bytes, rfl, rfl⟩⟩

theorem follows_observe (place : Place) :
    (lift place (observe schema file)).Follows (callProtocol schema file : CallProtocol σ ρ)
      (fun loaded ph ↦ ∃ known, ph = .inside known ∧ Told schema known loaded) (.inside none) := by
  refine ⟨.inl rfl, fun answer ↦ ?_⟩
  rcases answer with kind | -
  · cases kind with
    | notFound => exact ⟨_, rfl, .inr ⟨none, rfl, rfl⟩⟩
    | _ => exact ⟨_, rfl, .inl ⟨_, rfl⟩⟩
  · exact follows_readThrough place _

/-- What is known after the look of an update. -/
def LookedAt (schema : Schema σ) : Except Stop (Bool × Loaded σ) → Phase → Prop
  | .ok (_, loaded), ph => ∃ known, ph = .inside known ∧ Told schema known loaded
  | .error _, ph => ∃ known, ph = .inside known

theorem follows_look (place : Place) :
    (lift place (look schema file).run).Follows (callProtocol schema file : CallProtocol σ ρ)
      (LookedAt schema) (.inside none) := by
  refine ⟨.inl rfl, fun answer ↦ ?_⟩
  rcases answer with kind | -
  · cases kind with
    | notFound => exact ⟨_, rfl, .inr ⟨none, rfl, rfl⟩⟩
    | _ => exact ⟨_, rfl⟩
  · refine ⟨.inr (.inl rfl), fun answer ↦ ?_⟩
    rcases answer with kind | -
    · cases kind with
      | notFound => exact ⟨_, rfl, .inr ⟨none, rfl, rfl⟩⟩
      | _ => exact ⟨_, rfl, .inl ⟨_, rfl⟩⟩
    · have hrun : (do
          let loaded ← ExceptT.lift (readThrough schema file)
          pure (true, loaded) : Io (Bool × Loaded σ)).run =
          (readThrough schema file >>= fun loaded ↦ Prog.pure (.ok (true, loaded))) :=
        Prog.bind_assoc' _ _ _
      change (lift place (do
          let loaded ← ExceptT.lift (readThrough schema file)
          pure (true, loaded) : Io (Bool × Loaded σ)).run).Follows _ _ _
      rw [hrun, lift_bind]
      exact (follows_readThrough place _).bind fun loaded ph h ↦ h

/-- What ends a call. -/
theorem follows_unlock {ph : Phase} {update : Bool} {r : Returned σ ρ}
    (h : ph.allows schema file (.unlock update)) :
    (ask (.unlock update) >>= fun _ ↦ Prog.pure r).Obeys (callProtocol schema file) ph := by
  refine ⟨h, fun _ ↦ ?_⟩
  cases ph <;> rfl

theorem obeys_observe (place : Place) : (observeLocked schema file place).Obeys
      (callProtocol schema file : CallProtocol σ ρ) .start := by
  refine ⟨trivial, fun _ ↦ ?_⟩
  refine (follows_observe place).bind ?_
  rintro loaded ph ⟨known, rfl, htold⟩
  exact ⟨htold, fun generation ↦ ⟨trivial, fun _ ↦ rfl⟩⟩

/-- An action that comes to no attempt makes no call. -/
theorem apply_of_not_attempts (file : FileName) (passes : Nat) (bytes : Option Bytes) {dir : Bool}
    {chosen : Step σ} (h : attempts dir chosen = false) :
    ∃ r, (apply file passes dir bytes chosen).run = Prog.pure r := by
  cases chosen with
  | nothing outcome => exact ⟨_, rfl⟩
  | refuse error => exact ⟨_, rfl⟩
  | write value backUp => cases h
  | delete =>
    obtain rfl : dir = false := h
    exact ⟨_, rfl⟩
  | moveAside =>
    obtain rfl : dir = false := h
    exact ⟨_, rfl⟩

theorem obeys_update (role : Role) (place : Place) (passes : Nat)
    (decide : Loaded σ → Nat → Option (Change σ × ρ)) :
    (updateLocked schema file role place passes decide).Obeys (callProtocol schema file)
      .start := by
  refine ⟨trivial, fun _ ↦ ?_⟩
  refine (follows_look place).bind fun looked ph hlooked ↦ ?_
  rcases looked with stop | ⟨dir, loaded⟩
  · obtain ⟨known, rfl⟩ := hlooked
    exact follows_unlock trivial
  obtain ⟨known, rfl, htold⟩ := hlooked
  refine ⟨htold, fun generation ↦ ?_⟩
  change Prog.Follows _ (match decide loaded generation with
    | none => _
    | some (change, result) => _) _ _
  rcases decide loaded generation with - | ⟨change, result⟩
  · exact follows_unlock trivial
  dsimp only
  cases schema.encodeChange change with
  | error error => exact follows_unlock trivial
  | ok bytes =>
    cases hattempts : attempts dir (step role loaded change) with
    | true =>
      refine ⟨trivial, fun _ ↦ (follows_lift place _).bind ?_⟩
      rintro done ph rfl
      exact follows_unlock trivial
    | false =>
      obtain ⟨r, hr⟩ := apply_of_not_attempts file passes bytes hattempts
      change Prog.Follows _ (lift place (apply file passes dir bytes (step role loaded change)).run
        >>= _) _ _
      rw [hr]
      exact follows_unlock trivial

theorem obeys_program (role : Role) (caller : Caller σ ρ) :
    (program schema file role caller).Obeys (callProtocol schema file) .start := by
  cases caller with
  | observe place => exact obeys_observe place
  | update place passes decide => exact obeys_update role place passes decide
  | outside f => exact ⟨trivial, fun _ ↦ rfl⟩

end Protocol

end Hole.State.Backups
