import Hole.Arbitration.Weighted

/-!
# Arbitration by order

A packet filter whose rules are tried in order: a quick rule that matches decides at once, any
other match is only remembered, and the last one remembered decides.
-/

namespace Arbitration

/-- A rule of an ordered list. -/
structure Clause (π : Type) where
  /-- Whether a match decides at once. -/
  quick : Bool
  verdict : Verdict
  hits : π → Bool

variable {π : Type}

/-- The verdict on a packet, `d` being the last one remembered. -/
def verdictFrom (p : π) : Verdict → List (Clause π) → Verdict
  | d, [] => d
  | d, c :: cs =>
    if c.hits p then if c.quick then c.verdict else verdictFrom p c.verdict cs
    else verdictFrom p d cs

/-- A quick permit. -/
def Clause.IsPermit (c : Clause π) : Prop := c.quick = true ∧ c.verdict = .permit

/-- **Quick permits** let out what one of them matches, and leave the rest to the rules after
them. -/
theorem verdictFrom_permits {p : π} {d : Verdict} {cs rest : List (Clause π)}
    (h : ∀ c ∈ cs, c.IsPermit) :
    verdictFrom p d (cs ++ rest) = .permit ↔
      (∃ c ∈ cs, c.hits p = true) ∨ verdictFrom p d rest = .permit := by
  induction cs with
  | nil => simp
  | cons c cs ih =>
    have hrest := ih fun c hc ↦ h c (.tail _ hc)
    obtain ⟨hquick, hpermit⟩ := h c (.head _)
    rcases hhit : c.hits p with - | -
    · rw [List.cons_append, verdictFrom, hhit, if_neg Bool.false_ne_true, hrest]
      simp [hhit]
    · rw [List.cons_append, verdictFrom, hhit, if_pos rfl, hquick, if_pos rfl]
      simp [hpermit, hhit]

/-- A block that matches is the verdict, or the one remembered. -/
theorem verdictFrom_block {p : π} {d : Verdict} {c : Clause π} {rest : List (Clause π)}
    (hblock : c.verdict = .block) (hhit : c.hits p = true) :
    verdictFrom p d (c :: rest) = .permit ↔
      c.quick = false ∧ verdictFrom p .block rest = .permit := by
  rw [verdictFrom, hhit, if_pos rfl, hblock]
  rcases c.quick with - | -
  · simp
  · simp

/-- A block that does not match is skipped. -/
theorem verdictFrom_skip {p : π} {d : Verdict} {c : Clause π} {rest : List (Clause π)}
    (hmiss : c.hits p = false) : verdictFrom p d (c :: rest) = verdictFrom p d rest := by
  rw [verdictFrom, hmiss, if_neg Bool.false_ne_true]

end Arbitration
