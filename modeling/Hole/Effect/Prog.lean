import Mathlib.Logic.Basic
import Mathlib.Tactic.TypeStar

/-!
# Interactive programs that may be cut short

A program that acts on its surroundings is a tree of calls: it names an operation, waits for
the answer, and goes on with a continuation. `Prog Op Ans α` is that tree. What the
surroundings do is an `Env`: each operation is resolved by a *choice* of the environment, which
fixes the answer and the next state, so that a list of choices is an executable schedule.

Running out of choices is how a program is **cut short**: `Prog.run` then stops in front of the
next call and returns no value. A crash after any single step, for every outcome of every
step, is thereby one universal quantifier over lists of choices.

The program logic is `Safe`: an invariant of *every* state the program passes through, together
with a postcondition of the states it returns in. The invariant part is what a cut run still
guarantees.
-/

namespace Effect

/-- An interactive program: a value, or a call with a continuation on its answer. -/
inductive Prog (Op : Type) (Ans : Op → Type) (α : Type) : Type
  | pure (a : α)
  | call (o : Op) (k : Ans o → Prog Op Ans α)

/-- The surroundings of a program: a choice resolves an operation to an answer and a state. -/
structure Env (Op : Type) (Ans : Op → Type) (σ χ : Type) where
  /-- The answer the program sees. -/
  answer : σ → (o : Op) → χ → Ans o
  /-- The state the operation leaves. -/
  next : σ → Op → χ → σ

/-- The surroundings with only the choices that meet `C`. -/
def Env.restrict {Op : Type} {Ans : Op → Type} {σ χ : Type} (env : Env Op Ans σ χ)
    (C : χ → Prop) : Env Op Ans σ {c // C c} where
  answer s o c := env.answer s o c
  next s o c := env.next s o c

namespace Prog

variable {Op : Type} {Ans : Op → Type} {α β γ σ χ : Type}

/-- Run `p`, then the continuation on its value. -/
def bind : Prog Op Ans α → (α → Prog Op Ans β) → Prog Op Ans β
  | pure a, f => f a
  | call o k, f => call o fun a ↦ (k a).bind f

/-- The program that makes one call and returns its answer. -/
def perform (o : Op) : Prog Op Ans (Ans o) := call o pure

/-- The call a program makes next. -/
def head? : Prog Op Ans α → Option Op
  | pure _ => none
  | call o _ => some o

instance : Monad (Prog Op Ans) where
  pure := Prog.pure
  bind := Prog.bind

@[simp] theorem pure_bind' (a : α) (f : α → Prog Op Ans β) : (Prog.pure a >>= f) = f a := rfl

@[simp] theorem call_bind (o : Op) (k : Ans o → Prog Op Ans α) (f : α → Prog Op Ans β) :
    (call o k >>= f) = call o fun a ↦ k a >>= f := rfl

@[simp] theorem monad_pure_eq (a : α) : (Pure.pure a : Prog Op Ans α) = Prog.pure a := rfl

@[simp] theorem perform_bind (o : Op) (f : Ans o → Prog Op Ans β) :
    (perform o >>= f) = call o f := rfl

theorem bind_assoc' (p : Prog Op Ans α) (f : α → Prog Op Ans β) (g : β → Prog Op Ans γ) :
    (p >>= f >>= g) = p >>= fun a ↦ f a >>= g := by
  induction p with
  | pure a => rfl
  | call o k ih =>
    simp only [call_bind]
    exact congrArg (call o) (funext ih)

/-! ### Execution -/

/-- Run a program against a schedule of choices. The value is `none` exactly when the schedule
ends before the program does; the choices left over are returned. -/
def run (env : Env Op Ans σ χ) : Prog Op Ans α → σ → List χ → Option α × σ × List χ
  | pure a, s, cs => (some a, s, cs)
  | call _ _, s, [] => (none, s, [])
  | call o k, s, c :: cs => run env (k (env.answer s o c)) (env.next s o c) cs

variable {env : Env Op Ans σ χ}

variable {p : Prog Op Ans α} {f : α → Prog Op Ans β}

/-- A sequence that returns runs one part, and then the other. -/
theorem run_bind_eq_some {b : β} {s t : σ} {cs ds : List χ} :
    (p >>= f).run env s cs = (some b, t, ds) ↔
      ∃ a s' cs', p.run env s cs = (some a, s', cs') ∧ (f a).run env s' cs' = (some b, t, ds) := by
  induction p generalizing s cs with
  | pure a =>
    refine ⟨fun h ↦ ⟨a, s, cs, rfl, h⟩, ?_⟩
    rintro ⟨_, _, _, ⟨⟩, h⟩
    exact h
  | call o k ih =>
    cases cs with
    | nil =>
      refine iff_of_false nofun ?_
      rintro ⟨_, _, _, ⟨⟩, -⟩
    | cons c cs => exact ih _

/-! ### The program logic -/

/-- `p.Safe env I Q s`: from `s`, every state `p` passes through satisfies `I`, and every state
it returns in satisfies `Q` of the value returned. -/
def Safe (env : Env Op Ans σ χ) (I : σ → Prop) : Prog Op Ans α → (α → σ → Prop) → σ → Prop
  | pure a, Q, s => I s ∧ Q a s
  | call o k, Q, s => I s ∧ ∀ c, (k (env.answer s o c)).Safe env I Q (env.next s o c)

variable {I J : σ → Prop} {Q R : α → σ → Prop} {s : σ}

@[simp] theorem safe_pure {a : α} : (pure a : Prog Op Ans α).Safe env I Q s ↔ I s ∧ Q a s := Iff.rfl

variable {o : Op}

@[simp] theorem safe_call {k : Ans o → Prog Op Ans α} :
    (call o k).Safe env I Q s ↔
      I s ∧ ∀ c, (k (env.answer s o c)).Safe env I Q (env.next s o c) :=
  Iff.rfl

@[simp] theorem safe_perform {Q : Ans o → σ → Prop} :
    (perform o).Safe env I Q s ↔
      I s ∧ ∀ c, I (env.next s o c) ∧ Q (env.answer s o c) (env.next s o c) :=
  Iff.rfl

theorem Safe.inv (h : p.Safe env I Q s) : I s := by
  cases p with
  | pure a => exact h.1
  | call o k => exact h.1

/-- The consequence rule. The stronger postcondition may assume the invariant. -/
theorem Safe.mono (h : p.Safe env I Q s) (hQ : ∀ a s', I s' → Q a s' → R a s') :
    p.Safe env I R s := by
  induction p generalizing s with
  | pure a => exact ⟨h.1, hQ a s h.1 h.2⟩
  | call o k ih => exact ⟨h.1, fun c ↦ ih _ (h.2 c)⟩

/-- A weaker invariant holds along the same program. -/
theorem Safe.weaken (h : p.Safe env I Q s) (hI : ∀ s', I s' → J s') : p.Safe env J Q s := by
  induction p generalizing s with
  | pure a => exact ⟨hI s h.1, h.2⟩
  | call o k ih => exact ⟨hI s h.1, fun c ↦ ih _ (h.2 c)⟩

/-- Two postconditions hold together, each proved with its own invariant. -/
theorem Safe.and (h : p.Safe env I Q s) (h' : p.Safe env J R s) :
    p.Safe env I (fun a s' ↦ Q a s' ∧ R a s') s := by
  induction p generalizing s with
  | pure a => exact ⟨h.1, h.2, h'.2⟩
  | call o k ih => exact ⟨h.1, fun c ↦ ih _ (h.2 c) (h'.2 c)⟩

/-- Sequencing: the postcondition of the first part is the safety of the second. -/
theorem safe_bind {Q : β → σ → Prop} :
    (p >>= f).Safe env I Q s ↔ p.Safe env I (fun a s' ↦ (f a).Safe env I Q s') s := by
  induction p generalizing s with
  | pure a => exact ⟨fun h ↦ ⟨h.inv, h⟩, And.right⟩
  | call o k ih =>
    rw [call_bind, safe_call, safe_call]
    exact and_congr_right fun _ ↦ forall_congr' fun c ↦ ih _

/-- Sequencing through an intermediate assertion. -/
theorem Safe.bind {Q : β → σ → Prop} (hp : p.Safe env I R s)
    (hf : ∀ a s', I s' → R a s' → (f a).Safe env I Q s') : (p >>= f).Safe env I Q s :=
  safe_bind.2 (hp.mono hf)

/-- Every call the program can come to meets `P`. -/
def Only (P : Op → Prop) : Prog Op Ans α → Prop
  | pure _ => True
  | call o k => P o ∧ ∀ a, (k a).Only P

variable {P : Op → Prop}

@[simp] theorem only_value (a : α) : (Prog.pure a : Prog Op Ans α).Only P := trivial

@[simp] theorem only_call {k : Ans o → Prog Op Ans α} :
    (call o k).Only P ↔ P o ∧ ∀ a, (k a).Only P := Iff.rfl

@[simp] theorem only_perform_iff :
    (perform o : Prog Op Ans (Ans o)).Only P ↔ P o := and_iff_left fun _ ↦ trivial

theorem only_pure (a : α) : (Pure.pure a : Prog Op Ans α).Only P := trivial

theorem only_perform (h : P o) : (perform o : Prog Op Ans (Ans o)).Only P :=
  ⟨h, fun _ ↦ trivial⟩

theorem Only.bind (hp : p.Only P) (hf : ∀ a, (f a).Only P) : (p >>= f).Only P := by
  induction p with
  | pure a => exact hf a
  | call o k ih => exact ⟨hp.1, fun a ↦ ih a (hp.2 a)⟩

/-- **The frame rule**: what every admissible call keeps, and relates its two states by, the whole
program keeps, and relates its two states by. -/
theorem Only.safe {R : σ → σ → Prop} (hp : p.Only P) (hI : I s) (hrefl : ∀ s, R s s)
    (htrans : ∀ {s t u}, R s t → R t u → R s u)
    (hstep : ∀ o s c, P o → I s → I (env.next s o c) ∧ R s (env.next s o c)) :
    p.Safe env I (fun _ s' ↦ R s s') s := by
  induction p generalizing s with
  | pure a => exact ⟨hI, hrefl s⟩
  | call o k ih =>
    refine ⟨hI, fun c ↦ ?_⟩
    obtain ⟨hI', hR⟩ := hstep o s c hp.1 hI
    exact (ih _ (hp.2 _) hI').mono fun _ _ _ h ↦ htrans hR h

/-- Every value the program can return meets `T`, whatever its calls are answered. -/
def Returns (T : α → Prop) : Prog Op Ans α → Prop
  | pure a => T a
  | call _ k => ∀ a, (k a).Returns T

theorem returns_perform : (perform o : Prog Op Ans (Ans o)).Returns fun _ ↦ True :=
  fun _ ↦ trivial

theorem Returns.bind {T : α → Prop} {T' : β → Prop} (hp : p.Returns T)
    (hf : ∀ a, T a → (f a).Returns T') : (p >>= f).Returns T' := by
  induction p with
  | pure a => exact hf a hp
  | call o k ih => exact fun a ↦ ih a (hp a)

theorem Returns.safe {T : α → Prop} (hp : p.Returns T) :
    p.Safe env (fun _ ↦ True) (fun a _ ↦ T a) s := by
  induction p generalizing s with
  | pure a => exact ⟨trivial, hp⟩
  | call o k ih => exact ⟨trivial, fun c ↦ ih _ (hp _)⟩

/-- The loop rule: an assertion about the rounds left and the accumulator, re-established by
each round, holds after the last one. -/
theorem safe_foldlM {ι : Type} {f : β → ι → Prog Op Ans β} {L : List ι → β → σ → Prop}
    (l : List ι) {b : β} (hI : I s) (h₀ : L l b s)
    (hstep : ∀ x xs b s', I s' → L (x :: xs) b s' → (f b x).Safe env I (L xs) s') :
    (l.foldlM f b).Safe env I (L []) s := by
  induction l generalizing b s with
  | nil => exact ⟨hI, h₀⟩
  | cons x xs ih =>
    rw [List.foldlM_cons]
    exact (hstep x xs b s hI h₀).bind fun b' s' hI' hL ↦ ih hI' hL

/-- Soundness of the logic: whatever the schedule, the state a run stops in satisfies the
invariant, and the postcondition too if the run returned. -/
theorem Safe.sound (h : p.Safe env I Q s) (cs : List χ) :
    I (p.run env s cs).2.1 ∧ ∀ a, (p.run env s cs).1 = some a → Q a (p.run env s cs).2.1 := by
  induction p generalizing s cs with
  | pure a =>
    refine ⟨h.1, fun b hb ↦ ?_⟩
    obtain rfl : a = b := Option.some.inj hb
    exact h.2
  | call o k ih =>
    cases cs with
    | nil => exact ⟨h.1, fun a ha ↦ nomatch ha⟩
    | cons c cs => exact ih _ (h.2 c) cs

/-- Soundness in restricted surroundings: for the schedules whose choices all meet `C`. -/
theorem Safe.sound_restrict {C : χ → Prop} (h : p.Safe (env.restrict C) I Q s) {cs : List χ}
    (hcs : ∀ c ∈ cs, C c) :
    I (p.run env s cs).2.1 ∧ ∀ a, (p.run env s cs).1 = some a → Q a (p.run env s cs).2.1 := by
  induction p generalizing s cs with
  | pure a =>
    refine ⟨h.1, fun b hb ↦ ?_⟩
    obtain rfl : a = b := Option.some.inj hb
    exact h.2
  | call o k ih =>
    cases cs with
    | nil => exact ⟨h.1, fun a ha ↦ nomatch ha⟩
    | cons c cs =>
      obtain ⟨hc, hcs⟩ := List.forall_mem_cons.1 hcs
      exact ih _ (h.2 ⟨c, hc⟩) hcs

end Prog

end Effect
