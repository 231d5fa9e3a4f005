import Hole.Effect.Prog

/-!
# Traces of a program

What a program did, apart from the surroundings it did it in: the calls it made, in order, each with
the answer it was given. A program *has* a trace if it returns after these calls, whatever
surroundings would give these answers, so a statement about all traces is one about all outcomes of
every call.

The rules follow the constructors of a program and the two ways to put programs together: a trace of
`p >>= f` is one of `p` and then one of `f`, and a loop has an assertion about the rounds left, the
accumulator and the trace so far (`HasTrace.foldlM`).
-/

namespace Effect

/-- A call, with the answer to it. -/
abbrev Exchange {Op : Type} (Ans : Op → Type) : Type := (o : Op) × Ans o

namespace Prog

variable {Op : Type} {Ans : Op → Type} {α β ι : Type}

/-- The program makes the calls of `t`, is answered as `t` says, and returns `a`. -/
inductive HasTrace : Prog Op Ans α → List (Exchange Ans) → α → Prop
  | pure (a : α) : HasTrace (.pure a) [] a
  | call {o : Op} {k : Ans o → Prog Op Ans α} {t : List (Exchange Ans)} {a : α} (x : Ans o)
      (h : HasTrace (k x) t a) : HasTrace (.call o k) (⟨o, x⟩ :: t) a

variable {t : List (Exchange Ans)} {a : α}

@[simp] theorem hasTrace_value {b : α} :
    (Prog.pure a : Prog Op Ans α).HasTrace t b ↔ t = [] ∧ b = a := by
  constructor
  · rintro ⟨⟩
    exact ⟨rfl, rfl⟩
  · rintro ⟨rfl, rfl⟩
    exact .pure b

@[simp] theorem hasTrace_pure {b : α} :
    (Pure.pure a : Prog Op Ans α).HasTrace t b ↔ t = [] ∧ b = a := hasTrace_value

theorem hasTrace_call {o : Op} {k : Ans o → Prog Op Ans α} :
    (Prog.call o k).HasTrace t a ↔ ∃ x t', t = ⟨o, x⟩ :: t' ∧ (k x).HasTrace t' a := by
  constructor
  · rintro (_ | ⟨x, h⟩)
    exact ⟨x, _, rfl, h⟩
  · rintro ⟨x, t', rfl, h⟩
    exact .call x h

theorem hasTrace_perform {o : Op} {x : Ans o} :
    (perform o : Prog Op Ans (Ans o)).HasTrace t x ↔ t = [⟨o, x⟩] := by
  constructor
  · intro h
    obtain ⟨y, t', rfl, ht'⟩ := hasTrace_call.1 h
    obtain ⟨rfl, rfl⟩ := hasTrace_value.1 ht'
    rfl
  · rintro rfl
    exact .call x (.pure x)

/-- **Sequencing**: the trace of the first part, then that of the second. -/
theorem hasTrace_bind {p : Prog Op Ans α} {f : α → Prog Op Ans β} {b : β} :
    (p >>= f).HasTrace t b ↔ ∃ t₁ t₂ a, t = t₁ ++ t₂ ∧ p.HasTrace t₁ a ∧ (f a).HasTrace t₂ b := by
  constructor
  · intro h
    induction p generalizing t with
    | pure a => exact ⟨[], t, a, rfl, .pure a, h⟩
    | call o k ih =>
      obtain ⟨x, t', rfl, ht'⟩ := hasTrace_call.1 h
      obtain ⟨t₁, t₂, a, rfl, h₁, h₂⟩ := ih x ht'
      exact ⟨⟨o, x⟩ :: t₁, t₂, a, rfl, .call x h₁, h₂⟩
  · rintro ⟨t₁, t₂, a, rfl, h₁, h₂⟩
    induction h₁ with
    | pure a => exact h₂
    | call x _ ih => exact .call x (ih h₂)

/-- The loop rule for traces. -/
theorem HasTrace.foldlM {f : β → ι → Prog Op Ans β}
    {L : List ι → β → List (Exchange Ans) → Prop} {l : List ι} {b b' : β}
    (h : (l.foldlM f b).HasTrace t b') (t₀ : List (Exchange Ans)) (h₀ : L l b t₀)
    (hstep : ∀ x xs b t t' b', L (x :: xs) b t → (f b x).HasTrace t' b' → L xs b' (t ++ t')) :
    L [] b' (t₀ ++ t) := by
  induction l generalizing b t t₀ with
  | nil =>
    obtain ⟨rfl, rfl⟩ := hasTrace_pure.1 h
    rwa [List.append_nil]
  | cons x xs ih =>
    rw [List.foldlM_cons] at h
    obtain ⟨t₁, t₂, b₁, rfl, h₁, h₂⟩ := hasTrace_bind.1 h
    rw [← List.append_assoc]
    exact ih h₂ _ (hstep x xs b t₀ t₁ b₁ h₀ h₁)

/-- What holds of every call the program can come to holds of the calls of a trace. -/
theorem HasTrace.forall_of_only {P : Op → Prop} {p : Prog Op Ans α} (h : p.HasTrace t a)
    (hp : p.Only P) : ∀ e ∈ t, P e.1 := by
  induction h with
  | pure a => exact nofun
  | call x _ ih => exact List.forall_mem_cons.2 ⟨hp.1, ih (hp.2 x)⟩

theorem only_foldlM {P : Op → Prop} {f : β → ι → Prog Op Ans β} (hf : ∀ b x, (f b x).Only P)
    (l : List ι) (b : β) : (l.foldlM f b).Only P := by
  induction l generalizing b with
  | nil => exact only_pure b
  | cons x xs ih =>
    rw [List.foldlM_cons]
    exact (hf b x).bind ih

/-- The trace and the value of a program whose calls are answered by their number and operation,
from call `n` on. -/
def answered (answer : Nat → (o : Op) → Ans o) : Nat → Prog Op Ans α → List (Exchange Ans) × α
  | _, .pure a => ([], a)
  | n, .call o k =>
    let rest := answered answer (n + 1) (k (answer n o))
    (⟨o, answer n o⟩ :: rest.1, rest.2)

theorem hasTrace_answered (answer : Nat → (o : Op) → Ans o) (n : Nat) (p : Prog Op Ans α) :
    p.HasTrace (answered answer n p).1 (answered answer n p).2 := by
  induction p generalizing n with
  | pure a => exact .pure a
  | call o k ih => exact .call _ (ih _ (n + 1))

end Prog

end Effect
