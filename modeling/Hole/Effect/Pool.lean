import Mathlib.Logic.Function.Basic
import Hole.Effect.Prog

/-!
# Tasks over a shared state

A pool of interactive programs that take turns, one call at a time, in any order. A task may start
others, may have to wait for a call, and may be **dropped** in front of a call: its program is then
gone, with only what its guards release on the way out. A step that is not possible changes nothing,
so a run is any list of labels.

An invariant of a pool speaks about the shared state and about how far each task has come. How far
is a *phase* of a `Protocol`, a small automaton over the calls. That a program follows the protocol
is checked once, on the program (`Follows`); what remains for an invariant is one obligation for
each kind of label, about phases and no longer about programs (`System.Keeps`, `exec_of_keeps`).
-/

namespace Effect

open Function (update_of_ne update_self update)

variable {Op : Type} {Ans : Op → Type} {σ χ τ ρ Φ α β : Type}

/-- A task: what it is, and what is left of it. -/
structure Task (Op : Type) (Ans : Op → Type) (τ ρ : Type) where
  kind : τ
  prog : Prog Op Ans ρ

/-- What the tasks of a pool are and how their calls act. -/
structure System (Op : Type) (Ans : Op → Type) (σ χ τ ρ : Type) where
  body : τ → Prog Op Ans ρ
  /-- The kinds that arrive from outside. -/
  arrives : τ → Bool
  /-- Whether a task can make a call now, given the tasks that run. -/
  enabled : σ → (Nat → Bool) → Nat → Op → Bool
  /-- The answer to a call of a task; `fresh` names the task that the call starts. -/
  answer : σ → (i fresh : Nat) → (o : Op) → χ → Ans o
  /-- What a call of a task does. -/
  next : σ → (i fresh : Nat) → Op → χ → σ
  fork : Op → Option τ
  /-- Whether a task can be dropped in front of a call. -/
  droppable : τ → Op → Bool
  /-- What the end of a task does. -/
  finish : σ → Nat → τ → ρ → σ
  /-- What the guards of a dropped task do. -/
  cleanup : σ → Nat → τ → σ

/-- The shared state and the tasks that run. -/
structure Pool (Op : Type) (Ans : Op → Type) (σ τ ρ : Type) where
  shared : σ
  tasks : Nat → Option (Task Op Ans τ ρ)
  fresh : Nat

/-- A pool without tasks. -/
def Pool.idle (s : σ) : Pool Op Ans σ τ ρ := ⟨s, fun _ ↦ none, 0⟩

/-- Which tasks run. -/
def Pool.live (p : Pool Op Ans σ τ ρ) (i : Nat) : Bool := (p.tasks i).isSome

/-- A step of a pool. -/
inductive Label (χ τ : Type)
  | spawn (kind : τ)
  | advance (i : Nat) (c : χ)
  | finish (i : Nat)
  | drop (i : Nat)

namespace System

variable (S : System Op Ans σ χ τ ρ)

/-- Start a task. -/
def start (tasks : Nat → Option (Task Op Ans τ ρ)) (fresh : Nat) :
    Option τ → Nat → Option (Task Op Ans τ ρ)
  | none => tasks
  | some k => update tasks fresh (some ⟨k, S.body k⟩)

/-- The name of the next task, after one may have started. -/
def following (fresh : Nat) : Option τ → Nat
  | none => fresh
  | some _ => fresh + 1

/-- One step. -/
def step (p : Pool Op Ans σ τ ρ) : Label χ τ → Pool Op Ans σ τ ρ
  | .spawn k =>
    if S.arrives k then
      ⟨p.shared, S.start p.tasks p.fresh (some k), following p.fresh (some k)⟩
    else p
  | .advance i c =>
    match p.tasks i with
    | some ⟨k, .call o f⟩ =>
      if S.enabled p.shared p.live i o then
        ⟨S.next p.shared i p.fresh o c, update (S.start p.tasks p.fresh (S.fork o)) i
            (some ⟨k, f (S.answer p.shared i p.fresh o c)⟩),
          following p.fresh (S.fork o)⟩
      else p
    | _ => p
  | .finish i =>
    match p.tasks i with
    | some ⟨k, .pure r⟩ => ⟨S.finish p.shared i k r, update p.tasks i none, p.fresh⟩
    | _ => p
  | .drop i =>
    match p.tasks i with
    | some ⟨k, .call o _⟩ =>
      if S.droppable k o then
        ⟨S.cleanup p.shared i k, update p.tasks i none, p.fresh⟩
      else p
    | _ => p

/-- A run. -/
def exec (p : Pool Op Ans σ τ ρ) (ls : List (Label χ τ)) : Pool Op Ans σ τ ρ := ls.foldl S.step p

@[simp] theorem exec_nil (p : Pool Op Ans σ τ ρ) : S.exec p [] = p := rfl

@[simp] theorem exec_cons (p : Pool Op Ans σ τ ρ) (l : Label χ τ) (ls : List (Label χ τ)) :
    S.exec p (l :: ls) = S.exec (S.step p l) ls := rfl

/-- What a call that can be made does to the shared state. -/
theorem shared_advance {p : Pool Op Ans σ τ ρ} {i : Nat} {c : χ} {k : τ} {o : Op}
    {f : Ans o → Prog Op Ans ρ} (ht : p.tasks i = some ⟨k, .call o f⟩)
    (henabled : S.enabled p.shared p.live i o = true) :
    (S.step p (.advance i c)).shared = S.next p.shared i p.fresh o c := by
  simp [step, ht, henabled]

/-- Every step of a run meets `C` in the state it is taken in. -/
def Along (C : Pool Op Ans σ τ ρ → Label χ τ → Prop) : Pool Op Ans σ τ ρ → List (Label χ τ) → Prop
  | _, [] => True
  | p, l :: ls => C p l ∧ Along C (S.step p l) ls

/-- A condition that can be read off what comes before each step. -/
theorem along_of_split {C : Pool Op Ans σ τ ρ → Label χ τ → Prop} {p : Pool Op Ans σ τ ρ}
    {ls : List (Label χ τ)}
    (h : ∀ before l after, ls = before ++ l :: after → C (S.exec p before) l) :
    S.Along C p ls := by
  induction ls generalizing p with
  | nil => exact trivial
  | cons l ls ih =>
    refine ⟨h [] l ls rfl, ih fun before l' after hls ↦ ?_⟩
    exact h (l :: before) l' after (by rw [hls, List.cons_append])

end System

/-! ### Protocols -/

/-- An automaton over the calls of a task. -/
structure Protocol (Op : Type) (Ans : Op → Type) (τ ρ Φ : Type) where
  /-- The phase a task of a kind starts in. -/
  enter : τ → Φ
  /-- The calls a phase allows. -/
  allows : Φ → Op → Prop
  /-- The phase after a call. -/
  after : Φ → (o : Op) → Ans o → Φ
  /-- The phases a task may end in. -/
  leaves : Φ → ρ → Prop

/-- A program follows a protocol from a phase, and ends in a phase that meets `Q`. -/
def Prog.Follows (P : Protocol Op Ans τ ρ Φ) : Prog Op Ans α → (α → Φ → Prop) → Φ → Prop
  | .pure a, Q, ph => Q a ph
  | .call o k, Q, ph => P.allows ph o ∧ ∀ a, (k a).Follows P Q (P.after ph o a)

/-- A whole task follows a protocol from a phase. -/
def Prog.Obeys (P : Protocol Op Ans τ ρ Φ) (p : Prog Op Ans ρ) (ph : Φ) : Prop :=
  p.Follows P (fun r ph ↦ P.leaves ph r) ph

section Follows

variable {P : Protocol Op Ans τ ρ Φ} {ph : Φ}

@[simp] theorem Prog.follows_pure {a : α} {Q : α → Φ → Prop} :
    (Prog.pure a : Prog Op Ans α).Follows P Q ph ↔ Q a ph := Iff.rfl

@[simp] theorem Prog.follows_call {o : Op} {k : Ans o → Prog Op Ans α} {Q : α → Φ → Prop} :
    (Prog.call o k).Follows P Q ph ↔
      P.allows ph o ∧ ∀ a, (k a).Follows P Q (P.after ph o a) := Iff.rfl

@[simp] theorem Prog.follows_perform {o : Op} {Q : Ans o → Φ → Prop} :
    (Prog.perform o).Follows P Q ph ↔ P.allows ph o ∧ ∀ a, Q a (P.after ph o a) := Iff.rfl

variable {p : Prog Op Ans α}

theorem Prog.follows_bind {f : α → Prog Op Ans β} {Q : β → Φ → Prop} :
    (p >>= f).Follows P Q ph ↔ p.Follows P (fun a ph' ↦ (f a).Follows P Q ph') ph := by
  induction p generalizing ph with
  | pure a => exact Iff.rfl
  | call o k ih =>
    rw [Prog.call_bind, Prog.follows_call, Prog.follows_call]
    exact and_congr_right fun _ ↦ forall_congr' fun a ↦ ih a

theorem Prog.Follows.mono {Q R : α → Φ → Prop} (h : p.Follows P Q ph)
    (hQ : ∀ a ph', Q a ph' → R a ph') : p.Follows P R ph := by
  induction p generalizing ph with
  | pure a => exact hQ a ph h
  | call o k ih => exact ⟨h.1, fun a ↦ ih a (h.2 a)⟩

/-- Sequencing through an intermediate assertion. -/
theorem Prog.Follows.bind {f : α → Prog Op Ans β} {Q : β → Φ → Prop} {R : α → Φ → Prop}
    (hp : p.Follows P R ph) (hf : ∀ a ph', R a ph' → (f a).Follows P Q ph') :
    (p >>= f).Follows P Q ph :=
  Prog.follows_bind.2 (hp.mono hf)

/-- The loop rule: an assertion about the rounds left, the accumulator and the phase, re-established
by each round, holds after the last one. -/
theorem Prog.follows_foldlM {ι : Type} {f : β → ι → Prog Op Ans β} {L : List ι → β → Φ → Prop}
    (l : List ι) {b : β} (h₀ : L l b ph)
    (hstep : ∀ x xs b ph', L (x :: xs) b ph' → (f b x).Follows P (L xs) ph') :
    (l.foldlM f b).Follows P (L []) ph := by
  induction l generalizing b ph with
  | nil => exact h₀
  | cons x xs ih =>
    rw [List.foldlM_cons]
    exact (hstep x xs b ph h₀).bind fun b' ph' hL ↦ ih hL

end Follows

/-! ### Invariants -/

/-- The tasks of a pool, by kind and phase, and each follows the protocol from there. -/
structure Tracked (P : Protocol Op Ans τ ρ Φ) (p : Pool Op Ans σ τ ρ)
    (φ : Nat → Option (τ × Φ)) : Prop where
  gone : ∀ {i}, p.tasks i = none → φ i = none
  here : ∀ {i t}, p.tasks i = some t → ∃ ph, φ i = some (t.kind, ph) ∧ t.prog.Obeys P ph
  unused : ∀ {i}, p.fresh ≤ i → p.tasks i = none

variable {φ : Nat → Option (τ × Φ)} {p : Pool Op Ans σ τ ρ}

theorem Tracked.task {P : Protocol Op Ans τ ρ Φ} (h : Tracked P p φ) {i : Nat} {k : τ} {ph : Φ}
    (hi : φ i = some (k, ph)) : ∃ prog, p.tasks i = some ⟨k, prog⟩ ∧ prog.Obeys P ph := by
  rcases ht : p.tasks i with - | ⟨k', prog⟩
  · rw [h.gone ht] at hi
    cases hi
  · obtain ⟨ph', hφ, hfollows⟩ := h.here ht
    obtain ⟨rfl, rfl⟩ := Prod.mk.inj (Option.mem_unique hφ hi)
    exact ⟨prog, rfl, hfollows⟩

theorem Tracked.live_iff {P : Protocol Op Ans τ ρ Φ} (h : Tracked P p φ) (i : Nat) :
    p.live i = true ↔ (φ i).isSome = true := by
  rcases ht : p.tasks i with - | t
  · simp [Pool.live, ht, h.gone ht]
  · obtain ⟨ph, hφ, -⟩ := h.here ht
    simp [Pool.live, ht, hφ]

/-- The phases after a task has started. -/
def Protocol.start (P : Protocol Op Ans τ ρ Φ) (φ : Nat → Option (τ × Φ)) (fresh : Nat) :
    Option τ → Nat → Option (τ × Φ)
  | none => φ
  | some k => update φ fresh (some (k, P.enter k))

variable {y : τ × Φ}

/-- A phase after a task has ended is one of before. -/
theorem of_update_none {i j : Nat} (h : update φ i none j = some y) :
    j ≠ i ∧ φ j = some y := by
  rcases eq_or_ne j i with rfl | hne
  · simp at h
  · exact ⟨hne, by rwa [update_of_ne hne] at h⟩

/-- A phase after a task has been set is that task's or one of before. -/
theorem of_update_some {i j : Nat} {x y : τ × Φ} (h : update φ i (some x) j = some y) :
    (j = i ∧ x = y) ∨ (j ≠ i ∧ φ j = some y) := by
  rcases eq_or_ne j i with rfl | hne
  · exact .inl ⟨rfl, by simpa using h⟩
  · exact .inr ⟨hne, by rwa [update_of_ne hne] at h⟩

variable {x : Option (τ × Φ)}

/-- The phases after a call of task `i`: its own, that of a task it started, and the others'. -/
theorem Protocol.start_cases {P : Protocol Op Ans τ ρ Φ} {fresh i j : Nat} {k : Option τ}
    (h : update (P.start φ fresh k) i x j = some y) :
    (j = i ∧ x = some y) ∨ (j ≠ i ∧ ∃ k', k = some k' ∧ y = (k', P.enter k')) ∨
      (j ≠ i ∧ φ j = some y) := by
  rcases eq_or_ne j i with rfl | hne
  · exact .inl ⟨rfl, by simpa using h⟩
  · rw [update_of_ne hne] at h
    rcases k with - | k
    · exact .inr (.inr ⟨hne, h⟩)
    · rcases eq_or_ne j fresh with rfl | hne'
      · have hy : some (k, P.enter k) = some y := by simpa [Protocol.start] using h
        exact .inr (.inl ⟨hne, k, rfl, (Option.some.inj hy).symm⟩)
      · have h : φ j = some y := by simpa [Protocol.start, hne'] using h
        exact .inr (.inr ⟨hne, h⟩)

/-- The others keep their phases. -/
theorem Protocol.start_of_ne {P : Protocol Op Ans τ ρ Φ} {fresh i j : Nat} {k : Option τ}
    (hne : j ≠ i) (hfresh : φ fresh = none) (h : φ j = some y) :
    update (P.start φ fresh k) i x j = some y := by
  rw [update_of_ne hne]
  rcases k with - | k
  · exact h
  · have hne' : j ≠ fresh := by
      rintro rfl
      rw [hfresh] at h
      cases h
    simpa [Protocol.start, hne'] using h

/-- Task `i` took a step: the others keep their phases, and at most a task in its first phase is
new among them. -/
structure Protocol.Turns (P : Protocol Op Ans τ ρ Φ) (φ φ' : Nat → Option (τ × Φ)) (i : Nat) :
    Prop where
  keep : ∀ {j y}, j ≠ i → φ j = some y → φ' j = some y
  back : ∀ {j y}, j ≠ i → φ' j = some y → φ j = some y ∨ ∃ k, y = (k, P.enter k)

theorem Protocol.turns_update (P : Protocol Op Ans τ ρ Φ) (φ : Nat → Option (τ × Φ)) (i : Nat)
    (x : Option (τ × Φ)) : P.Turns φ (update φ i x) i :=
  ⟨fun hne h ↦ by rwa [update_of_ne hne],
    fun hne h ↦ .inl (by rwa [update_of_ne hne] at h)⟩

theorem Protocol.turns_start (P : Protocol Op Ans τ ρ Φ) {fresh : Nat} (hfresh : φ fresh = none)
    (i : Nat) (k : Option τ) (x : Option (τ × Φ)) :
    P.Turns φ (update (P.start φ fresh k) i x) i := by
  constructor
  case keep => exact fun hne h ↦ Protocol.start_of_ne hne hfresh h
  case back =>
    intro j y hne h
    rcases Protocol.start_cases h with ⟨hj, -⟩ | ⟨-, k', -, hy⟩ | ⟨-, hold⟩
    · exact absurd hj hne
    · exact .inr ⟨k', hy⟩
    · exact .inl hold

/-- What a family of labels has to keep: one obligation for each kind. -/
structure System.Keeps (S : System Op Ans σ χ τ ρ) (P : Protocol Op Ans τ ρ Φ)
    (J : σ → (Nat → Option (τ × Φ)) → Prop) (C : Pool Op Ans σ τ ρ → Label χ τ → Prop) :
    Prop where
  /-- A task of every kind follows the protocol. -/
  follows : ∀ k, (S.body k).Obeys P (P.enter k)
  spawn : ∀ {p φ k}, Tracked P p φ → J p.shared φ → S.arrives k = true → C p (.spawn k) →
    φ p.fresh = none → J p.shared (update φ p.fresh (some (k, P.enter k)))
  advance : ∀ {p φ i c k o f ph}, Tracked P p φ → J p.shared φ → C p (.advance i c) →
    p.tasks i = some ⟨k, .call o f⟩ → φ i = some (k, ph) → P.allows ph o →
    S.enabled p.shared p.live i o = true → φ p.fresh = none → i ≠ p.fresh →
    J (S.next p.shared i p.fresh o c) (update (P.start φ p.fresh (S.fork o)) i
        (some (k, P.after ph o (S.answer p.shared i p.fresh o c))))
  finish : ∀ {p φ i k r ph}, Tracked P p φ → J p.shared φ → C p (.finish i) →
    p.tasks i = some ⟨k, .pure r⟩ → φ i = some (k, ph) → P.leaves ph r →
    J (S.finish p.shared i k r) (update φ i none)
  drop : ∀ {p φ i k o f ph}, Tracked P p φ → J p.shared φ → C p (.drop i) →
    p.tasks i = some ⟨k, .call o f⟩ → φ i = some (k, ph) → P.allows ph o →
    S.droppable k o = true → J (S.cleanup p.shared i k) (update φ i none)

variable {S : System Op Ans σ χ τ ρ} {P : Protocol Op Ans τ ρ Φ}
  {J : σ → (Nat → Option (τ × Φ)) → Prop} {C : Pool Op Ans σ τ ρ → Label χ τ → Prop}

/-- The invariant of a pool: its tasks can be tracked, and `J` holds of their phases. -/
def System.Holds (P : Protocol Op Ans τ ρ Φ) (J : σ → (Nat → Option (τ × Φ)) → Prop)
    (p : Pool Op Ans σ τ ρ) : Prop :=
  ∃ φ, Tracked P p φ ∧ J p.shared φ

theorem tracked_idle (s : σ) :
    Tracked P (Pool.idle s : Pool Op Ans σ τ ρ) fun _ ↦ none :=
  ⟨fun _ ↦ rfl, nofun, fun _ ↦ rfl⟩

/-- Starting a task keeps the tracking. -/
theorem Tracked.start (h : Tracked P p φ) (hbody : ∀ k, (S.body k).Obeys P (P.enter k)) (s : σ)
    (k : Option τ) :
    Tracked P ⟨s, S.start p.tasks p.fresh k, System.following p.fresh k⟩ (P.start φ p.fresh k) := by
  rcases k with - | k
  · exact ⟨h.gone, h.here, h.unused⟩
  · constructor
    case gone =>
      intro i hi
      rcases eq_or_ne i p.fresh with rfl | hne
      · simp [System.start] at hi
      · have hi : p.tasks i = none := by simpa [System.start, hne] using hi
        simpa [Protocol.start, hne] using h.gone hi
    case here =>
      intro i t hi
      rcases eq_or_ne i p.fresh with rfl | hne
      · obtain rfl : ⟨k, S.body k⟩ = t := by simpa [System.start] using hi
        exact ⟨P.enter k, by simp [Protocol.start], hbody k⟩
      · have hi : p.tasks i = some t := by simpa [System.start, hne] using hi
        obtain ⟨ph, hφ, hfollows⟩ := h.here hi
        exact ⟨ph, by simpa [Protocol.start, hne] using hφ, hfollows⟩
    case unused =>
      intro i hi
      have hlt : p.fresh < i := hi
      have hne : i ≠ p.fresh := Nat.ne_of_gt hlt
      simpa [System.start, hne] using h.unused (Nat.le_of_lt hlt)

/-- Setting a running task, or removing one, keeps the tracking. -/
theorem Tracked.update (h : Tracked P p φ) {i : Nat} (hi : i < p.fresh) (s : σ)
    {t : Option (Task Op Ans τ ρ)} (hgone : t = none → x = none)
    (hhere : ∀ t', t = some t' → ∃ ph, x = some (t'.kind, ph) ∧ t'.prog.Obeys P ph) :
    Tracked P ⟨s, update p.tasks i t, p.fresh⟩ (update φ i x) := by
  constructor
  case gone =>
    intro j hj
    rcases eq_or_ne j i with rfl | hne
    · simp only [update_self] at hj ⊢
      exact hgone hj
    · simp only [update_of_ne hne] at hj ⊢
      exact h.gone hj
  case here =>
    intro j t' hj
    rcases eq_or_ne j i with rfl | hne
    · simp only [update_self] at hj ⊢
      exact hhere t' hj
    · simp only [update_of_ne hne] at hj ⊢
      exact h.here hj
  case unused =>
    intro j hj
    have hne : j ≠ i := by
      rintro rfl
      exact absurd hi (Nat.not_lt.2 hj)
    simpa [hne] using h.unused hj

theorem Tracked.lt_fresh (h : Tracked P p φ) {i : Nat} {t : Task Op Ans τ ρ}
    (hi : p.tasks i = some t) : i < p.fresh := by
  refine Nat.lt_of_not_le fun hle ↦ ?_
  rw [h.unused hle] at hi
  cases hi

/-- What is asserted of each task of a pool: of its kind, its phase and the rest of its program,
among the phases of all. -/
def Attended (R : σ → (Nat → Option (τ × Φ)) → Nat → τ → Φ → Prog Op Ans ρ → Prop)
    (p : Pool Op Ans σ τ ρ) (φ : Nat → Option (τ × Φ)) : Prop :=
  ∀ i t ph, p.tasks i = some t → φ i = some (t.kind, ph) → R p.shared φ i t.kind ph t.prog

/-- What an assertion about tasks needs next to an invariant: it holds of a task that starts, its
own calls keep it, and so do the steps of the others. -/
structure System.Carries (S : System Op Ans σ χ τ ρ) (P : Protocol Op Ans τ ρ Φ)
    (J : σ → (Nat → Option (τ × Φ)) → Prop) (C : Pool Op Ans σ τ ρ → Label χ τ → Prop)
    (R : σ → (Nat → Option (τ × Φ)) → Nat → τ → Φ → Prog Op Ans ρ → Prop) : Prop where
  enter : ∀ s φ i k, R s φ i k (P.enter k) (S.body k)
  spawn : ∀ {p : Pool Op Ans σ τ ρ} {φ k j k' ph' q}, J p.shared φ → φ p.fresh = none →
    φ j = some (k', ph') →
    R p.shared φ j k' ph' q →
    R p.shared (update φ p.fresh (some (k, P.enter k))) j k' ph' q
  own : ∀ {p φ i c k o f ph}, Tracked P p φ → J p.shared φ → C p (.advance i c) →
    p.tasks i = some ⟨k, .call o f⟩ → φ i = some (k, ph) → P.allows ph o →
    S.enabled p.shared p.live i o = true → φ p.fresh = none → i ≠ p.fresh →
    R p.shared φ i k ph (.call o f) →
    R (S.next p.shared i p.fresh o c)
      (update (P.start φ p.fresh (S.fork o)) i
        (some (k, P.after ph o (S.answer p.shared i p.fresh o c))))
      i k (P.after ph o (S.answer p.shared i p.fresh o c)) (f (S.answer p.shared i p.fresh o c))
  advance : ∀ {p φ i c k o f ph j k' ph' q}, Tracked P p φ → J p.shared φ → C p (.advance i c) →
    p.tasks i = some ⟨k, .call o f⟩ → φ i = some (k, ph) → P.allows ph o →
    S.enabled p.shared p.live i o = true → φ p.fresh = none → j ≠ i → φ j = some (k', ph') →
    R p.shared φ j k' ph' q →
    R (S.next p.shared i p.fresh o c)
      (update (P.start φ p.fresh (S.fork o)) i
        (some (k, P.after ph o (S.answer p.shared i p.fresh o c)))) j k' ph' q
  finish : ∀ {p φ i k r ph j k' ph' q}, Tracked P p φ → J p.shared φ → C p (.finish i) →
    p.tasks i = some ⟨k, .pure r⟩ → φ i = some (k, ph) → P.leaves ph r → j ≠ i →
    φ j = some (k', ph') → R p.shared φ j k' ph' q →
    R (S.finish p.shared i k r) (update φ i none) j k' ph' q
  drop : ∀ {p φ i k o f ph j k' ph' q}, Tracked P p φ → J p.shared φ → C p (.drop i) →
    p.tasks i = some ⟨k, .call o f⟩ → φ i = some (k, ph) → P.allows ph o →
    S.droppable k o = true → j ≠ i → φ j = some (k', ph') → R p.shared φ j k' ph' q →
    R (S.cleanup p.shared i k) (update φ i none) j k' ph' q

variable {R : σ → (Nat → Option (τ × Φ)) → Nat → τ → Φ → Prog Op Ans ρ → Prop}

/-- What is asserted of a task after one may have started. -/
theorem Attended.start {φ φ' : Nat → Option (τ × Φ)} {s : σ} (h : Attended R p φ)
    (henter : ∀ s φ i k, R s φ i k (P.enter k) (S.body k)) (k : Option τ) {j : Nat}
    {t : Task Op Ans τ ρ} {ph : Φ} (hj : S.start p.tasks p.fresh k j = some t)
    (hφ : P.start φ p.fresh k j = some (t.kind, ph))
    (hold : φ j = some (t.kind, ph) → R p.shared φ j t.kind ph t.prog → R s φ' j t.kind ph t.prog) :
    R s φ' j t.kind ph t.prog := by
  rcases k with - | k
  · exact hold hφ (h j t ph hj hφ)
  · rcases eq_or_ne j p.fresh with rfl | hne
    · obtain rfl : ⟨k, S.body k⟩ = t := by simpa [System.start] using hj
      obtain rfl : P.enter k = ph := by simpa [Protocol.start] using hφ
      exact henter _ _ _ _
    · have hφ : φ j = some (t.kind, ph) := by simpa [Protocol.start, hne] using hφ
      exact hold hφ (h j t ph (by simpa [System.start, hne] using hj) hφ)

/-- What is asserted of each task after one was set, or removed. -/
theorem Attended.update {tasks : Nat → Option (Task Op Ans τ ρ)} {φ φ' : Nat → Option (τ × Φ)}
    {i fresh : Nat} {s : σ} {t : Option (Task Op Ans τ ρ)}
    (hown : ∀ t' ph, t = some t' → x = some (t'.kind, ph) → R s φ' i t'.kind ph t'.prog)
    (hothers : ∀ j t' ph, j ≠ i → tasks j = some t' → φ j = some (t'.kind, ph) →
      R s φ' j t'.kind ph t'.prog)
    (hφ' : φ' = update φ i x) : Attended R ⟨s, update tasks i t, fresh⟩ φ' := by
  intro j t' ph hj hφ
  dsimp only at hj
  rcases eq_or_ne j i with rfl | hne
  · rw [hφ', update_self] at hφ
    rw [update_self] at hj
    exact hown t' ph hj hφ
  · rw [hφ', update_of_ne hne] at hφ
    rw [update_of_ne hne] at hj
    exact hothers j t' ph hne hj hφ

/-- **The step rule.** -/
theorem System.step_of_carries (hS : S.Keeps P J C) (hR : S.Carries P J C R) {l : Label χ τ}
    (htracked : Tracked P p φ) (hJ : J p.shared φ) (hp : Attended R p φ) (hC : C p l) :
    ∃ φ', Tracked P (S.step p l) φ' ∧ J (S.step p l).shared φ' ∧ Attended R (S.step p l) φ' := by
  have hfresh : φ p.fresh = none := htracked.gone (htracked.unused (Nat.le_refl _))
  cases l with
  | spawn k =>
    unfold System.step
    dsimp only
    split
    · next harrives =>
      exact ⟨_, htracked.start hS.follows p.shared (some k),
        hS.spawn htracked hJ harrives hC hfresh,
        fun j t ph hj hφ ↦ hp.start hR.enter (some k) hj hφ (hR.spawn hJ hfresh)⟩
    · exact ⟨φ, htracked, hJ, hp⟩
  | advance i c =>
    unfold System.step
    dsimp only
    split
    · next k o f ht =>
      obtain ⟨ph, hφ, hallows, hfollows⟩ := htracked.here ht
      have hlt := htracked.lt_fresh ht
      split
      · next henabled =>
        have hstart := htracked.start hS.follows (S.next p.shared i p.fresh o c) (S.fork o)
        have hlt' : i < System.following p.fresh (S.fork o) := by
          rcases S.fork o with - | k'
          · exact hlt
          · exact Nat.lt_succ_of_lt hlt
        have hne := Nat.ne_of_lt hlt
        refine ⟨_, hstart.update hlt' _ nofun ?_,
          hS.advance htracked hJ hC ht hφ hallows henabled hfresh hne,
          Attended.update (φ := P.start φ p.fresh (S.fork o)) ?_ (fun j t' ph' hji hj hφj ↦
            hp.start hR.enter (S.fork o) hj hφj fun hold ↦
              hR.advance htracked hJ hC ht hφ hallows henabled hfresh hji hold) rfl⟩
        · rintro t' ⟨rfl⟩
          exact ⟨_, rfl, hfollows _⟩
        · rintro t' ph' ⟨rfl⟩ ⟨⟩
          exact hR.own htracked hJ hC ht hφ hallows henabled hfresh hne (hp i _ ph ht hφ)
      · exact ⟨φ, htracked, hJ, hp⟩
    · exact ⟨φ, htracked, hJ, hp⟩
  | finish i =>
    unfold System.step
    dsimp only
    split
    · next k r ht =>
      obtain ⟨ph, hφ, hleaves⟩ := htracked.here ht
      exact ⟨_, htracked.update (htracked.lt_fresh ht) _ (fun _ ↦ rfl) nofun,
        hS.finish htracked hJ hC ht hφ hleaves,
        Attended.update (φ := φ) nofun (fun j t' ph' hne hj hφj ↦
          hR.finish htracked hJ hC ht hφ hleaves hne hφj (hp j t' ph' hj hφj)) rfl⟩
    · exact ⟨φ, htracked, hJ, hp⟩
  | drop i =>
    unfold System.step
    dsimp only
    split
    · next k o f ht =>
      obtain ⟨ph, hφ, hallows, -⟩ := htracked.here ht
      split
      · next hdrop =>
        exact ⟨_, htracked.update (htracked.lt_fresh ht) _ (fun _ ↦ rfl) nofun,
          hS.drop htracked hJ hC ht hφ hallows hdrop,
          Attended.update (φ := φ) nofun (fun j t' ph' hne hj hφj ↦
            hR.drop htracked hJ hC ht hφ hallows hdrop hne hφj (hp j t' ph' hj hφj)) rfl⟩
      · exact ⟨φ, htracked, hJ, hp⟩
    · exact ⟨φ, htracked, hJ, hp⟩

/-- **The invariant rule for runs**, with what is asserted of each task. -/
theorem System.exec_of_carries (hS : S.Keeps P J C) (hR : S.Carries P J C R) {ls : List (Label χ τ)}
    (htracked : Tracked P p φ) (hJ : J p.shared φ) (hp : Attended R p φ) (hC : S.Along C p ls) :
    ∃ φ', Tracked P (S.exec p ls) φ' ∧ J (S.exec p ls).shared φ' ∧ Attended R (S.exec p ls) φ' := by
  induction ls generalizing p φ with
  | nil => exact ⟨φ, htracked, hJ, hp⟩
  | cons l ls ih =>
    obtain ⟨φ', htracked', hJ', hp'⟩ := S.step_of_carries hS hR htracked hJ hp hC.1
    exact ih htracked' hJ' hp' hC.2

/-- **The invariant rule for runs.** -/
theorem System.exec_of_keeps (hS : S.Keeps P J C) {ls : List (Label χ τ)} (hp : System.Holds P J p)
    (hC : S.Along C p ls) : System.Holds P J (S.exec p ls) := by
  obtain ⟨φ, htracked, hJ⟩ := hp
  have hR : S.Carries P J C fun _ _ _ _ _ _ ↦ True := by constructor <;> intros <;> trivial
  obtain ⟨φ', htracked', hJ', -⟩ := S.exec_of_carries hS hR htracked hJ (fun _ _ _ _ _ ↦ trivial) hC
  exact ⟨φ', htracked', hJ'⟩

/-- A condition that every step meets. -/
theorem System.along_true (p : Pool Op Ans σ τ ρ) (ls : List (Label χ τ)) :
    S.Along (fun _ _ ↦ True) p ls := by
  induction ls generalizing p with
  | nil => exact trivial
  | cons l ls ih => exact ⟨trivial, ih _⟩

end Effect
