import Hole.Effect.Pool

/-!
# Interactive programs that may throw

`Fallible Op Ans ε α` is an interactive program that ends with a value or with an error, in the
exception monad over `Prog`. Its logic is that of `Prog` with two postconditions, one for the value
and one for the error: the error paths of a long program are then one assertion, stated once.
-/

namespace Effect

/-- Interactive programs that may throw. -/
abbrev Fallible (Op : Type) (Ans : Op → Type) (ε α : Type) : Type := ExceptT ε (Prog Op Ans) α

namespace Fallible

variable {Op : Type} {Ans : Op → Type} {ε δ α β σ χ : Type}

/-- The program that makes one call and returns its answer. -/
def call (o : Op) : Fallible Op Ans ε (Ans o) := ExceptT.lift (Prog.perform o)

/-- The program that never throws: it returns how `p` ended. -/
def attempt (p : Fallible Op Ans ε α) : Fallible Op Ans δ (Except ε α) := ExceptT.lift p.run

/-- The program that runs `cleanup` where `p` throws. -/
def onError (p : Fallible Op Ans ε α) (cleanup : Prog Op Ans Unit) : Fallible Op Ans ε α :=
  ExceptT.mk do
    match ← p.run with
    | .ok a => pure (.ok a)
    | .error e => do
      cleanup
      pure (.error e)

/-- The assertion about how a program ends. -/
def post (E : ε → σ → Prop) (Q : α → σ → Prop) : Except ε α → σ → Prop
  | .ok a => Q a
  | .error e => E e

/-- `Safe env I E Q p s`: from `s`, every state `p` passes through satisfies `I`, every state it
returns in satisfies `Q` of the value, and every state it throws in satisfies `E` of the error. -/
def Safe (env : Env Op Ans σ χ) (I : σ → Prop) (E : ε → σ → Prop) (Q : α → σ → Prop)
    (p : Fallible Op Ans ε α) (s : σ) : Prop :=
  p.run.Safe env I (post E Q) s

variable {env : Env Op Ans σ χ} {I : σ → Prop} {E : ε → σ → Prop} {Q R : α → σ → Prop} {s : σ}

theorem safe_pure {a : α} (hI : I s) (hQ : Q a s) :
    Safe env I E Q (pure a : Fallible Op Ans ε α) s :=
  ⟨hI, hQ⟩

theorem safe_throw {e : ε} (hI : I s) (hE : E e s) :
    Safe env I E Q (throw e : Fallible Op Ans ε α) s :=
  ⟨hI, hE⟩

variable {p : Fallible Op Ans ε α}

/-- Sequencing through an intermediate assertion. -/
theorem Safe.bind {f : α → Fallible Op Ans ε β} {Q : β → σ → Prop} (hp : Safe env I E R p s)
    (hf : ∀ a s', I s' → R a s' → Safe env I E Q (f a) s') : Safe env I E Q (p >>= f) s := by
  refine Prog.Safe.bind hp fun r s' hI hr ↦ ?_
  rcases r with e | a
  · exact ⟨hI, hr⟩
  · exact hf a s' hI hr

/-- The rule of a call and what follows it. -/
theorem safe_call {o : Op} {f : Ans o → Fallible Op Ans ε β} {Q : β → σ → Prop} (hI : I s)
    (h : ∀ c, Safe env I E Q (f (env.answer s o c)) (env.next s o c)) :
    Safe env I E Q (call o >>= f) s :=
  ⟨hI, h⟩

/-- The consequence rule. -/
theorem Safe.mono (h : Safe env I E Q p s) (hQ : ∀ a s', I s' → Q a s' → R a s') :
    Safe env I E R p s := by
  refine Prog.Safe.mono h fun r s' hI hr ↦ ?_
  rcases r with e | a
  · exact hr
  · exact hQ a s' hI hr

/-- The consequence rule, for errors too. -/
theorem Safe.imp {E' : ε → σ → Prop} (h : Safe env I E Q p s) (hE : ∀ e s', I s' → E e s' → E' e s')
    (hQ : ∀ a s', I s' → Q a s' → R a s') : Safe env I E' R p s := by
  refine Prog.Safe.mono h fun r s' hI hr ↦ ?_
  rcases r with e | a
  · exact hE e s' hI hr
  · exact hQ a s' hI hr

/-- Errors renamed. -/
theorem safe_adapt {f : ε → δ} {E : δ → σ → Prop} (h : Safe env I (fun e ↦ E (f e)) Q p s) :
    Safe env I E Q (ExceptT.adapt f p) s := by
  refine Prog.Safe.bind h fun r s' hI hr ↦ ⟨hI, ?_⟩
  rcases r with e | a
  · exact hr
  · exact hr

theorem safe_lift {p : Prog Op Ans α} (h : p.Safe env I Q s) :
    Safe env I E Q (ExceptT.lift p : Fallible Op Ans ε α) s :=
  h.bind fun _ _ hI hQ ↦ ⟨hI, hQ⟩

theorem safe_attempt {Q : Except ε α → σ → Prop} {E : δ → σ → Prop}
    (h : Safe env I (fun e ↦ Q (.error e)) (fun a ↦ Q (.ok a)) p s) :
    Safe env I E Q (attempt p) s := by
  refine Prog.Safe.bind h fun r s' hI hr ↦ ⟨hI, ?_⟩
  rcases r with e | a
  · exact hr
  · exact hr

/-- A program with a cleanup: what it throws in is what the cleanup starts from. -/
theorem safe_onError {F : ε → σ → Prop} {cleanup : Prog Op Ans Unit} (h : Safe env I F Q p s)
    (hcleanup : ∀ e s', I s' → F e s' → cleanup.Safe env I (fun _ s'' ↦ E e s'') s') :
    Safe env I E Q (onError p cleanup) s := by
  refine Prog.Safe.bind h fun r s' hI hr ↦ ?_
  rcases r with e | a
  · exact (hcleanup e s' hI hr).bind fun _ s'' hI'' hE ↦ ⟨hI'', hE⟩
  · exact ⟨hI, hr⟩

/-- The loop rule: an assertion about the rounds left and the accumulator, re-established by
each round, holds after the last one. -/
theorem safe_foldlM {ι : Type} {f : β → ι → Fallible Op Ans ε β} {L : List ι → β → σ → Prop}
    (l : List ι) {b : β} (hI : I s) (h₀ : L l b s)
    (hstep : ∀ x xs b s', I s' → L (x :: xs) b s' → Safe env I E (L xs) (f b x) s') :
    Safe env I E (L []) (l.foldlM f b) s := by
  induction l generalizing b s with
  | nil => exact ⟨hI, h₀⟩
  | cons x xs ih =>
    rw [List.foldlM_cons]
    exact (hstep x xs b s hI h₀).bind fun b' s' hI' hL ↦ ih hI' hL

/-! ### Frames -/

section Only

variable {P : Op → Prop}

/-- Every call the program can come to meets `P`. -/
def Only (P : Op → Prop) (p : Fallible Op Ans ε α) : Prop := p.run.Only P

theorem only_pure (a : α) : Only P (pure a : Fallible Op Ans ε α) := trivial

variable {p : Fallible Op Ans ε α}

theorem Only.bind {f : α → Fallible Op Ans ε β} (hp : Only P p) (hf : ∀ a, Only P (f a)) :
    Only P (p >>= f) := by
  refine Prog.Only.bind hp fun r ↦ ?_
  rcases r with e | a
  · exact trivial
  · exact hf a

theorem Only.attempt (hp : Only P p) : Only P (attempt p : Fallible Op Ans δ (Except ε α)) :=
  Prog.Only.bind hp fun _ ↦ trivial

/-- **The frame rule.** -/
theorem Only.safe {R : σ → σ → Prop} (hp : Only P p) (hI : I s) (hrefl : ∀ s, R s s)
    (htrans : ∀ {s t u}, R s t → R t u → R s u)
    (hstep : ∀ o s c, P o → I s → I (env.next s o c) ∧ R s (env.next s o c)) :
    Safe env I (fun _ s' ↦ R s s') (fun _ s' ↦ R s s') p s :=
  (Prog.Only.safe hp hI hrefl htrans hstep).mono fun r s' _ h ↦ by
    rcases r with e | a <;> exact h

end Only

/-! ### Protocols -/

section Follows

variable {τ ρ Φ : Type} {P : Protocol Op Ans τ ρ Φ} {ph : Φ}

/-- A program that may throw follows a protocol: it returns in a phase that meets `Q`, and throws
in one that meets `E`. -/
def Follows (P : Protocol Op Ans τ ρ Φ) (E : ε → Φ → Prop) (Q : α → Φ → Prop)
    (p : Fallible Op Ans ε α) (ph : Φ) : Prop :=
  p.run.Follows P (post E Q) ph

variable {E : ε → Φ → Prop} {Q R : α → Φ → Prop}

variable {p : Fallible Op Ans ε α}

/-- Sequencing through an intermediate assertion. -/
theorem Follows.bind {f : α → Fallible Op Ans ε β} {Q : β → Φ → Prop} (hp : Follows P E R p ph)
    (hf : ∀ a ph', R a ph' → Follows P E Q (f a) ph') : Follows P E Q (p >>= f) ph := by
  refine Prog.Follows.bind hp fun r ph' hr ↦ ?_
  rcases r with e | a
  · exact hr
  · exact hf a ph' hr

/-- Sequencing: the postcondition of the first part is that the second follows the protocol. -/
theorem follows_bind {f : α → Fallible Op Ans ε β} {Q : β → Φ → Prop}
    (h : Follows P E (fun a ph' ↦ Follows P E Q (f a) ph') p ph) : Follows P E Q (p >>= f) ph :=
  h.bind fun _ _ hf ↦ hf

theorem follows_attempt {Q : Except ε α → Φ → Prop} {E : δ → Φ → Prop}
    (h : Follows P (fun e ↦ Q (.error e)) (fun a ↦ Q (.ok a)) p ph) :
    Follows P E Q (attempt p) ph := by
  refine Prog.Follows.bind h fun r ph' hr ↦ ?_
  rcases r with e | a
  · exact hr
  · exact hr

theorem follows_onError {F : ε → Φ → Prop} {cleanup : Prog Op Ans Unit} (h : Follows P F Q p ph)
    (hcleanup : ∀ e ph', F e ph' → cleanup.Follows P (fun _ ph'' ↦ E e ph'') ph') :
    Follows P E Q (onError p cleanup) ph := by
  refine Prog.Follows.bind h fun r ph' hr ↦ ?_
  rcases r with e | a
  · exact (hcleanup e ph' hr).bind fun _ ph'' hE ↦ hE
  · exact hr

end Follows

end Fallible

end Effect
