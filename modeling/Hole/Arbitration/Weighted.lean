import Mathlib.Order.Lattice

/-!
# Arbitration by weight

A packet filter whose rules carry weights: of the rules that match, the heaviest decides, and the
earliest of equals. `top` is that rule.

Where every permit outweighs every block (`Layered`), the order of the rules is immaterial and the
verdict is a plain statement about the set of rules: **a packet is blocked exactly when some block
matches it and no permit does** (`blocks_iff`).
-/

namespace Arbitration

/-- What a rule does with what it matches. -/
inductive Verdict
  | permit
  | block
  deriving DecidableEq

/-- A rule over packets `π` with weights `ω`. -/
structure Rule (π ω : Type) where
  weight : ω
  verdict : Verdict
  hits : π → Bool

variable {π ω : Type} [LinearOrder ω]

/-- The heaviest rule that matches, in front of a candidate. -/
def topFrom (p : π) : Option (Rule π ω) → List (Rule π ω) → Option (Rule π ω)
  | best, [] => best
  | best, r :: rs =>
    if r.hits p && best.all (·.weight < r.weight) then topFrom p (some r) rs
    else topFrom p best rs

/-- The rule that decides. -/
def top (rules : List (Rule π ω)) (p : π) : Option (Rule π ω) := topFrom p none rules

/-- Whether the rules block a packet. One that no rule matches is let through. -/
def blocks (rules : List (Rule π ω)) (p : π) : Bool :=
  match top rules p with
  | some r => r.verdict = .block
  | none => false

/-- Every permit outweighs every block. -/
def Layered (rules : List (Rule π ω)) : Prop :=
  ∀ r ∈ rules, ∀ r' ∈ rules, r.verdict = .permit → r'.verdict = .block → r'.weight < r.weight

variable {rules : List (Rule π ω)}

theorem topFrom_eq_none {p : π} {best : Option (Rule π ω)} :
    topFrom p best rules = none ↔ best = none ∧ ∀ r ∈ rules, r.hits p = false := by
  induction rules generalizing best with
  | nil => simp [topFrom]
  | cons r rs ih =>
    rw [topFrom]
    split
    · next h =>
      rw [ih]
      simp_all
    · next h =>
      rw [ih]
      rcases best with - | b
      · have hr : r.hits p = false := by simpa using h
        simp [hr]
      · simp

theorem topFrom_eq_some {p : π} {best : Option (Rule π ω)} {r : Rule π ω}
    (h : topFrom p best rules = some r) :
    (best = some r ∨ (r ∈ rules ∧ r.hits p = true)) ∧
      (∀ b, best = some b → b.weight ≤ r.weight) ∧
      ∀ r' ∈ rules, r'.hits p = true → r'.weight ≤ r.weight := by
  induction rules generalizing best with
  | nil =>
    obtain rfl : best = some r := h
    exact ⟨.inl rfl, fun b hb ↦ (Option.some.inj hb) ▸ le_refl _, nofun⟩
  | cons r₀ rs ih =>
    rw [topFrom] at h
    split at h
    · next hc =>
      obtain ⟨hr₀, hbest⟩ := Bool.and_eq_true_iff.1 hc
      obtain ⟨hmem, hle, hrest⟩ := ih h
      have hle₀ : r₀.weight ≤ r.weight := hle r₀ rfl
      refine ⟨?_, ?_, ?_⟩
      · rcases hmem with heq | ⟨hmem, hr⟩
        · cases heq
          exact .inr ⟨.head _, hr₀⟩
        · exact .inr ⟨.tail _ hmem, hr⟩
      · rintro b rfl
        have hlt : b.weight < r₀.weight := by simpa using hbest
        exact le_trans (le_of_lt hlt) hle₀
      · intro r' hr' hhit
        rcases List.mem_cons.1 hr' with rfl | hr'
        · exact hle₀
        · exact hrest r' hr' hhit
    · next hc =>
      obtain ⟨hmem, hle, hrest⟩ := ih h
      refine ⟨hmem.imp_right fun h ↦ ⟨.tail _ h.1, h.2⟩, hle, ?_⟩
      intro r' hr' hhit
      rcases List.mem_cons.1 hr' with rfl | hr'
      · -- a rule that did not take over is no heavier than the candidate
        rcases best with - | b
        · simp [hhit] at hc
        · have hb : ¬b.weight < r'.weight := by simpa [hhit] using hc
          exact le_trans (not_lt.1 hb) (hle b rfl)
      · exact hrest r' hr' hhit

/-- **The verdict of layered rules**: a packet is blocked exactly when some block matches it and
no permit does. -/
theorem blocks_iff (h : Layered rules) {p : π} :
    blocks rules p = true ↔
      (∃ r ∈ rules, r.verdict = .block ∧ r.hits p = true) ∧
        ∀ r ∈ rules, r.verdict = .permit → r.hits p = false := by
  unfold blocks
  rcases htop : top rules p with - | r
  · have hnone := (topFrom_eq_none.1 htop).2
    refine ⟨nofun, ?_⟩
    rintro ⟨⟨r, hr, -, hhit⟩, -⟩
    rw [hnone r hr] at hhit
    exact absurd hhit Bool.false_ne_true
  · obtain ⟨hmem, -, hheaviest⟩ := topFrom_eq_some htop
    obtain ⟨hr, hhit⟩ := hmem.resolve_left nofun
    simp only [decide_eq_true_eq]
    constructor
    · intro hblock
      refine ⟨⟨r, hr, hblock, hhit⟩, fun r' hr' hpermit ↦ ?_⟩
      rw [Bool.eq_false_iff]
      intro hhit'
      exact absurd (h r' hr' r hr hpermit hblock) (not_lt.2 (hheaviest r' hr' hhit'))
    · rintro ⟨-, hno⟩
      rcases hv : r.verdict with - | -
      · rw [hno r hr hv] at hhit
        exact absurd hhit Bool.false_ne_true
      · rfl

end Arbitration
