import Hole.Effect.Prog

/-!
# Machines that run one act at a time

A `Machine` serves *acts*: each act, where the state enables it, runs an interactive program to
its end and then settles the volatile part of the state with the value returned. A schedule that
ends early is a crash in the middle of the act; what is lost then is the machine's `crash`.

A **run** is a list of acts, each with its schedule, so an invariant over all runs is an
invariant over every order of acts, every outcome of every call, and a crash after every single
call. `Machine.Along` restricts a run by a condition on each act taken, in the state before it;
`exec_of_along` is then the one induction that safety results over runs need.
-/

namespace Effect

variable {Op : Type} {Ans : Op → Type} {σ χ Act ρ : Type}

/-- A state machine whose transitions are interactive programs. -/
structure Machine (Op : Type) (Ans : Op → Type) (σ χ Act ρ : Type) where
  /-- How the surroundings answer the calls of an act. -/
  env : Act → Env Op Ans σ χ
  /-- The program an act runs, `none` where the state does not enable the act. -/
  body : σ → Act → Option (Prog Op Ans ρ)
  /-- What a completed act does to the volatile part of the state. -/
  finish : σ → Act → ρ → σ
  /-- What a crash in the middle of an act does to the volatile part of the state. -/
  crash : σ → σ

namespace Machine

variable (m : Machine Op Ans σ χ Act ρ)

/-- Settle the volatile state after a run of an act's program. -/
def settle (a : Act) : Option ρ × σ × List χ → σ
  | (some r, s, _) => m.finish s a r
  | (none, s, _) => m.crash s

/-- One act under one schedule. -/
def step (s : σ) (e : Act × List χ) : σ :=
  match m.body s e.1 with
  | none => s
  | some p => m.settle e.1 (p.run (m.env e.1) s e.2)

/-- A run: acts in order, each under its own schedule. -/
def exec (s : σ) (es : List (Act × List χ)) : σ := es.foldl m.step s

@[simp] theorem exec_nil (s : σ) : m.exec s [] = s := rfl

@[simp] theorem exec_cons (s : σ) (e : Act × List χ) (es : List (Act × List χ)) :
    m.exec s (e :: es) = m.exec (m.step s e) es := rfl

/-- Every act of a run meets `C` in the state it is taken in. -/
def Along (C : σ → Act × List χ → Prop) : σ → List (Act × List χ) → Prop
  | _, [] => True
  | s, e :: es => C s e ∧ Along C (m.step s e) es

/-- Checking a condition along a run, act by act. -/
def decidableAlong {C : σ → Act × List χ → Prop} [∀ s e, Decidable (C s e)] :
    (s : σ) → (es : List (Act × List χ)) → Decidable (m.Along C s es)
  | _, [] => inferInstanceAs (Decidable True)
  | s, e :: es =>
    haveI := decidableAlong (C := C) (m.step s e) es
    inferInstanceAs (Decidable (_ ∧ _))

instance {C : σ → Act × List χ → Prop} [∀ s e, Decidable (C s e)] (s : σ)
    (es : List (Act × List χ)) : Decidable (m.Along C s es) :=
  m.decidableAlong s es

variable {m} {I J : σ → Prop} {C : σ → Act × List χ → Prop} {s : σ}

variable {e : Act × List χ}

/-- An act re-establishes the invariant if its run does, cut or not. -/
theorem step_of_run (hs : I s)
    (hrun : ∀ p, m.body s e.1 = some p → J (p.run (m.env e.1) s e.2).2.1 ∧
      ∀ r, (p.run (m.env e.1) s e.2).1 = some r → I (m.finish (p.run (m.env e.1) s e.2).2.1 e.1 r))
    (hcrash : ∀ s', J s' → I (m.crash s')) : I (m.step s e) := by
  unfold step
  rcases h : m.body s e.1 with - | p
  · exact hs
  · obtain ⟨hJ, hQ⟩ := hrun p h
    rcases hr : p.run (m.env e.1) s e.2 with ⟨- | r, s', cs⟩
    · show I (m.settle e.1 (p.run (m.env e.1) s e.2))
      rw [hr] at hJ ⊢
      exact hcrash s' hJ
    · show I (m.settle e.1 (p.run (m.env e.1) s e.2))
      rw [hr] at hQ ⊢
      exact hQ r rfl

/-- An act whose program is safe re-establishes the invariant, cut or not. -/
theorem step_of_safe (hs : I s)
    (hbody : ∀ p, m.body s e.1 = some p → p.Safe (m.env e.1) J (fun r s' ↦ I (m.finish s' e.1 r)) s)
    (hcrash : ∀ s', J s' → I (m.crash s')) : I (m.step s e) :=
  step_of_run hs (fun p hp ↦ (hbody p hp).sound e.2) hcrash

/-- The same for an act whose choices all meet `K`, in surroundings restricted to these. -/
theorem step_of_safe_restrict {K : χ → Prop} (hs : I s) (hK : ∀ c ∈ e.2, K c)
    (hbody : ∀ p, m.body s e.1 = some p →
      p.Safe ((m.env e.1).restrict K) J (fun r s' ↦ I (m.finish s' e.1 r)) s)
    (hcrash : ∀ s', J s' → I (m.crash s')) : I (m.step s e) :=
  step_of_run hs (fun p hp ↦ (hbody p hp).sound_restrict hK) hcrash

/-- **The invariant rule for runs**: what every admissible act preserves holds after every run
of admissible acts. -/
theorem exec_of_along (hstep : ∀ s e, I s → C s e → I (m.step s e)) {es : List (Act × List χ)}
    (hs : I s) (hC : m.Along C s es) : I (m.exec s es) := by
  induction es generalizing s with
  | nil => exact hs
  | cons e es ih => exact ih (hstep s e hs hC.1) hC.2

/-- A condition that every act meets in every state is met along every run. -/
theorem along_of_forall {D : Act × List χ → Prop} {es : List (Act × List χ)}
    (h : ∀ e ∈ es, D e) : m.Along (fun _ ↦ D) s es := by
  induction es generalizing s with
  | nil => trivial
  | cons e es ih =>
    obtain ⟨he, hes⟩ := List.forall_mem_cons.1 h
    exact ⟨he, ih hes⟩

/-- The invariant rule where every act is admissible. -/
theorem exec_of_step (hstep : ∀ s e, I s → I (m.step s e)) (es : List (Act × List χ))
    (hs : I s) : I (m.exec s es) := by
  induction es generalizing s with
  | nil => exact hs
  | cons e es ih => exact ih (hstep s e hs)

end Machine

end Effect
