import Mathlib.Data.List.Perm.Basic

/-!
# The children of a node

The order of the children of a node of a document, under what moves them: `insertBefore`,
`appendChild` and `remove`. A move keeps the children (`insertBefore_perm`), and the first child
stays first unless it is moved or another is put before it (`head?_insertBefore`).
-/

namespace Siblings

variable {α : Type} [DecidableEq α]

/-- A new child, before another or, where that is not there, at the end. -/
def place (x y : α) : List α → List α
  | [] => [x]
  | z :: l => if z = y then x :: z :: l else z :: place x y l

/-- `appendChild`. -/
def appendChild (x : α) (l : List α) : List α := l.erase x ++ [x]

/-- `insertBefore`, which appends where no other child is given. -/
def insertBefore (x : α) (ref : Option α) (l : List α) : List α :=
  match ref with
  | none => appendChild x l
  | some y => place x y (l.erase x)

/-- `nextElementSibling`. -/
def nextSibling (x : α) (l : List α) : Option α := (l.dropWhile (· ≠ x)).tail.head?

variable {l : List α} {x y h : α} {ref : Option α}

theorem place_perm (x y : α) (l : List α) : (place x y l).Perm (x :: l) := by
  induction l with
  | nil => exact .refl _
  | cons z l ih =>
    rw [place]
    split
    · exact .refl _
    · exact (ih.cons z).trans (.swap x z l)

theorem insertBefore_perm_cons (x : α) (ref : Option α) (l : List α) :
    (insertBefore x ref l).Perm (x :: l.erase x) := by
  cases ref with
  | none => exact List.perm_append_singleton x _
  | some y => exact place_perm x y _

/-- A child that is moved is there once. -/
theorem insertBefore_perm (hx : x ∈ l) (ref : Option α) : (insertBefore x ref l).Perm l :=
  (insertBefore_perm_cons x ref l).trans (List.perm_cons_erase hx).symm

theorem filter_erase {p : α → Bool} (hx : p x = false) (l : List α) :
    (l.erase x).filter p = l.filter p := by
  induction l with
  | nil => rfl
  | cons z l ih =>
    by_cases hz : z = x
    · rw [hz, List.erase_cons_head, List.filter_cons_of_neg (by rw [hx]; exact Bool.false_ne_true)]
    · rw [List.erase_cons_tail (by simpa using hz), List.filter_cons, List.filter_cons, ih]

/-- Children of a kind are not touched by the move of one of another kind. -/
theorem filter_insertBefore {p : α → Bool} (hx : p x = false) (ref : Option α) (l : List α) :
    ((insertBefore x ref l).filter p).Perm (l.filter p) := by
  have hperm := (insertBefore_perm_cons x ref l).filter p
  rwa [List.filter_cons_of_neg (by rw [hx]; exact Bool.false_ne_true), filter_erase hx] at hperm

theorem head?_erase (hhead : l.head? = some h) (hx : h ≠ x) : (l.erase x).head? = some h := by
  cases l with
  | nil => cases hhead
  | cons z l =>
    obtain rfl := Option.some.inj hhead
    rw [List.erase_cons_tail (by simpa using hx)]
    rfl

theorem head?_insertBefore (hhead : l.head? = some h) (hx : h ≠ x) (href : ref ≠ some h) :
    (insertBefore x ref l).head? = some h := by
  have herase := head?_erase hhead hx
  cases herased : l.erase x with
  | nil =>
    rw [herased] at herase
    cases herase
  | cons z rest =>
    rw [herased] at herase
    obtain rfl := Option.some.inj herase
    cases ref with
    | none => rw [insertBefore, appendChild, herased]; rfl
    | some y =>
      have hy : z ≠ y := fun heq ↦ href (congrArg some heq.symm)
      rw [insertBefore, herased, place, if_neg hy]
      rfl

/-- What follows a child is not the first one. -/
theorem mem_tail_of_nextSibling (hnext : nextSibling x l = some y) : y ∈ l.tail := by
  have hmem : y ∈ (l.dropWhile (· ≠ x)).tail := List.mem_of_mem_head? hnext
  cases l with
  | nil => cases hmem
  | cons z l =>
    rw [List.dropWhile_cons] at hmem
    split at hmem
    · exact (List.dropWhile_suffix _).subset (List.mem_of_mem_tail hmem)
    · exact hmem

end Siblings
