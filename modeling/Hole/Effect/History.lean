import Mathlib.Data.List.Basic

/-!
# Histories

A history is a list of events, newest first: what a ghost log of a system holds. An invariant of
the system over its history has to survive one more event in front, so both operators are defined
by recursion from there, and their readings as splits of the whole list are theorems.
-/

namespace Effect

variable {ε : Type} {Q R : ε → Prop}

/-- An event met `R`, and every event since then met `Q`. -/
def Since (Q R : ε → Prop) : List ε → Prop
  | [] => False
  | e :: log => R e ∨ (Q e ∧ Since Q R log)

@[simp] theorem since_nil : ¬Since Q R [] := id

@[simp] theorem since_cons {e : ε} {log : List ε} :
    Since Q R (e :: log) ↔ R e ∨ (Q e ∧ Since Q R log) := Iff.rfl

theorem since_of_split {newer older : List ε} {e : ε} (he : R e) (hnewer : ∀ e' ∈ newer, Q e') :
    Since Q R (newer ++ e :: older) := by
  induction newer with
  | nil => exact .inl he
  | cons e' newer ih =>
    obtain ⟨he', hnewer⟩ := List.forall_mem_cons.1 hnewer
    exact .inr ⟨he', ih hnewer⟩

/-- Every event of a history had a reason in the events before it. -/
def Justified (B : List ε → ε → Prop) : List ε → Prop
  | [] => True
  | e :: log => B log e ∧ Justified B log

variable {B : List ε → ε → Prop}

@[simp] theorem justified_nil : Justified B [] := trivial

@[simp] theorem justified_cons {e : ε} {log : List ε} :
    Justified B (e :: log) ↔ B log e ∧ Justified B log := Iff.rfl

theorem Justified.of_split {newer older : List ε} {e : ε} (h : Justified B (newer ++ e :: older)) :
    B older e := by
  induction newer with
  | nil => exact h.1
  | cons e' newer ih => exact ih h.2

theorem Justified.of_append {newer older : List ε} (h : Justified B (newer ++ older)) :
    Justified B older := by
  induction newer with
  | nil => exact h
  | cons e newer ih => exact ih h.2

/-- `e` is the only event of its kind in a history, and `newer` is what followed it. -/
structure Sole (R : ε → Prop) (newer : List ε) (e : ε) (older log : List ε) : Prop where
  split : log = newer ++ e :: older
  newer : ∀ e' ∈ newer, ¬R e'
  older : ∀ e' ∈ older, ¬R e'

section Sole

variable {newer older log newer' older' : List ε} {e e' : ε}

theorem sole_nil (h : ∀ e' ∈ log, ¬R e') : Sole R [] e log (e :: log) := ⟨rfl, nofun, h⟩

theorem Sole.cons (h : Sole R newer e older log) (he' : ¬R e') :
    Sole R (e' :: newer) e older (e' :: log) :=
  ⟨by rw [h.split, List.cons_append], List.forall_mem_cons.2 ⟨he', h.newer⟩, h.older⟩

/-- A history has one split at an event that is alone of its kind. -/
theorem Sole.unique (h : Sole R newer e older log) (hsplit : log = newer' ++ e' :: older')
    (he' : R e') : newer' = newer ∧ e' = e := by
  have heq : newer ++ e :: older = newer' ++ e' :: older' := h.split.symm.trans hsplit
  obtain ⟨mid, rfl, hmid⟩ | ⟨mid, rfl, hmid⟩ := List.append_eq_append_iff.1 heq
  · cases mid with
    | nil => exact ⟨List.append_nil newer, (List.cons.inj hmid).1.symm⟩
    | cons x mid =>
      have holder : older = mid ++ e' :: older' := (List.cons.inj hmid).2
      exact absurd he' (h.older e' (holder ▸ List.mem_append_right _ (.head _)))
  · cases mid with
    | nil => exact ⟨(List.append_nil newer').symm, (List.cons.inj hmid).1⟩
    | cons x mid =>
      have hx : e' = x := (List.cons.inj hmid).1
      exact absurd he' (h.newer e' (List.mem_append_right _ (hx ▸ (.head _))))

end Sole

end Effect
