import Mathlib.Data.List.Infix

/-!
# Lines that end in two marks

A text whose lines end in a pair of marks, such as CR and LF. A scanner that looks for the pair from
a cursor on reads the lines (`linesOf_of_some`), and the first empty line is where the pair stands
twice (`findSubslice_twice`). A text that is cut off has the lines of the whole text but for the
last (`linesOf_append`), which is the beginning of one, or all of one and half of the pair behind it
(`linesOf_line_append`).
-/

namespace Text

variable {α : Type*} [DecidableEq α]

/-- Where a needle is first. -/
def findSubslice (needle : List α) : List α → Option Nat
  | [] => none
  | x :: rest =>
    if needle ≠ [] ∧ needle <+: x :: rest then some 0
    else (findSubslice needle rest).map (· + 1)

theorem findSubslice_eq_none {needle l : List α} (hne : needle ≠ []) :
    findSubslice needle l = none ↔ ∀ j, ¬needle <+: l.drop j := by
  induction l with
  | nil => simp [findSubslice, hne]
  | cons x rest ih =>
    by_cases h : needle <+: x :: rest
    · rw [findSubslice, if_pos ⟨hne, h⟩]
      exact iff_of_false (by simp) fun hall ↦ hall 0 h
    · rw [findSubslice, if_neg (by simp [h]), Option.map_eq_none_iff, ih]
      constructor
      · intro hall j
        match j with
        | 0 => exact h
        | j + 1 => exact hall j
      · exact fun hall j ↦ hall (j + 1)

theorem findSubslice_eq_some {needle l : List α} (hne : needle ≠ []) {i : Nat} :
    findSubslice needle l = some i ↔ needle <+: l.drop i ∧ ∀ j < i, ¬needle <+: l.drop j := by
  induction l generalizing i with
  | nil => simp [findSubslice, hne]
  | cons x rest ih =>
    by_cases h : needle <+: x :: rest
    · rw [findSubslice, if_pos ⟨hne, h⟩]
      constructor
      · rintro ⟨⟩
        exact ⟨h, fun j hj ↦ absurd hj (Nat.not_lt_zero j)⟩
      · rintro ⟨-, hall⟩
        obtain rfl | hpos := Nat.eq_zero_or_pos i
        · rfl
        · exact absurd h (hall 0 hpos)
    · rw [findSubslice, if_neg (by simp [h]), Option.map_eq_some_iff]
      constructor
      · rintro ⟨i, hi, rfl⟩
        obtain ⟨hat, hall⟩ := ih.1 hi
        refine ⟨hat, fun j hj ↦ ?_⟩
        match j with
        | 0 => exact h
        | j + 1 => exact hall j (by omega)
      · rintro ⟨hat, hall⟩
        match i with
        | 0 => exact absurd hat h
        | i + 1 => exact ⟨i, ih.2 ⟨hat, fun j hj ↦ hall (j + 1) (by omega)⟩, rfl⟩

variable (a b : α)

/-- The first line, and the others. -/
def splitPair : List α → List α × List (List α)
  | [] => ([], [])
  | [x] => ([x], [])
  | x :: y :: rest =>
    if x = a ∧ y = b then ([], (splitPair rest).1 :: (splitPair rest).2)
    else (x :: (splitPair (y :: rest)).1, (splitPair (y :: rest)).2)

/-- The lines of a text. -/
def linesOf (l : List α) : List (List α) := (splitPair a b l).1 :: (splitPair a b l).2

section Lines

variable {a b}

theorem linesOf_pair (rest : List α) : linesOf a b (a :: b :: rest) = [] :: linesOf a b rest := by
  simp [linesOf, splitPair]

theorem linesOf_cons {x y : α} {rest : List α} (h : ¬(x = a ∧ y = b)) {line : List α}
    {others : List (List α)} (hrest : linesOf a b (y :: rest) = line :: others) :
    linesOf a b (x :: y :: rest) = (x :: line) :: others := by
  obtain ⟨rfl, rfl⟩ := List.cons_eq_cons.1 hrest
  rw [linesOf, splitPair, if_neg h]

theorem exists_linesOf (l : List α) : ∃ line others, linesOf a b l = line :: others := ⟨_, _, rfl⟩

omit [DecidableEq α] in
theorem isPrefix_pair {x y : α} {rest : List α} : [a, b] <+: x :: y :: rest ↔ x = a ∧ y = b := by
  simp [eq_comm]

/-- A text without the pair is one line. -/
theorem linesOf_of_none {l : List α} (h : ∀ j, ¬[a, b] <+: l.drop j) : linesOf a b l = [l] := by
  match l with
  | [] => rfl
  | [x] => rfl
  | x :: y :: rest =>
    have hrest : linesOf a b (y :: rest) = [y :: rest] := linesOf_of_none fun j ↦ h (j + 1)
    exact linesOf_cons (fun heq ↦ h 0 (isPrefix_pair.2 heq)) hrest

/-- The first line ends at the first pair. -/
theorem linesOf_of_some {l : List α} {i : Nat} (h : [a, b] <+: l.drop i)
    (hfirst : ∀ j < i, ¬[a, b] <+: l.drop j) :
    linesOf a b l = l.take i :: linesOf a b (l.drop (i + 2)) := by
  match i, l with
  | 0, l =>
    obtain ⟨rest, rfl⟩ := h
    exact linesOf_pair rest
  | i + 1, [] => simp at h
  | i + 1, [x] => simp at h
  | i + 1, x :: y :: rest =>
    have hrest : linesOf a b (y :: rest) =
        (y :: rest).take i :: linesOf a b ((y :: rest).drop (i + 2)) :=
      linesOf_of_some h fun j hj ↦ hfirst (j + 1) (by omega)
    exact linesOf_cons (fun heq ↦ hfirst 0 (by omega) (isPrefix_pair.2 heq)) hrest

omit [DecidableEq α] in
/-- The pair is no part of the one behind it. -/
theorem not_isPrefix_overlap (hab : a ≠ b) {l : List α} (h : [a, b] <+: l) :
    ¬[a, b] <+: l.drop 1 := by
  obtain ⟨rest, rfl⟩ := h
  cases rest <;> simp [hab]

/-- Where the pair stands twice: behind the first line, or further on. -/
theorem findSubslice_twice (hab : a ≠ b) {l : List α} {i : Nat} (h : [a, b] <+: l.drop i)
    (hfirst : ∀ j < i, ¬[a, b] <+: l.drop j) :
    findSubslice [a, b, a, b] l =
      if [a, b] <+: l.drop (i + 2) then some i
      else (findSubslice [a, b, a, b] (l.drop (i + 2))).map (i + 2 + ·) := by
  have hpair {j : Nat} (hj : [a, b, a, b] <+: l.drop j) : [a, b] <+: l.drop j :=
    (List.prefix_append [a, b] [a, b]).trans hj
  obtain ⟨rest, hrest⟩ := h
  have hdrop : l.drop (i + 2) = rest := by
    rw [← List.drop_drop, ← hrest]
    rfl
  have htwice : [a, b, a, b] <+: l.drop i ↔ [a, b] <+: l.drop (i + 2) := by
    rw [hdrop, ← hrest]
    exact List.prefix_append_right_inj [a, b]
  split
  · next hat =>
    exact (findSubslice_eq_some (by simp)).2 ⟨htwice.2 hat, fun j hj hj' ↦ hfirst j hj (hpair hj')⟩
  · next hnot =>
    -- What stands at the pair or before it does not stand twice, nor does what overlaps it.
    have hbefore (j : Nat) (hj : j < i + 2) : ¬[a, b, a, b] <+: l.drop j := by
      intro hj'
      obtain hlt | rfl | rfl : j < i ∨ j = i ∨ j = i + 1 := by omega
      · exact hfirst j hlt (hpair hj')
      · exact hnot (htwice.1 hj')
      · have hat : [a, b] <+: l.drop i := hrest ▸ List.prefix_append _ _
        have hover := not_isPrefix_overlap hab hat
        rw [List.drop_drop] at hover
        exact hover (hpair hj')
    cases hfind : findSubslice [a, b, a, b] (l.drop (i + 2)) with
    | none =>
      refine (findSubslice_eq_none (by simp)).2 fun j ↦ ?_
      obtain hlt | hge := Nat.lt_or_ge j (i + 2)
      · exact hbefore j hlt
      · have hnone := (findSubslice_eq_none (by simp)).1 hfind (j - (i + 2))
        rwa [List.drop_drop, Nat.add_sub_cancel' hge] at hnone
    | some k =>
      obtain ⟨hat, hall⟩ := (findSubslice_eq_some (by simp)).1 hfind
      refine (findSubslice_eq_some (by simp)).2 ⟨by rwa [List.drop_drop] at hat, fun j hj ↦ ?_⟩
      have hk : j < i + 2 + k := hj
      obtain hlt | hge := Nat.lt_or_ge j (i + 2)
      · exact hbefore j hlt
      · have hnone := hall (j - (i + 2)) (by omega)
        rwa [List.drop_drop, Nat.add_sub_cancel' hge] at hnone

/-! ### A text that is cut off -/

/-- A line that ends is the first one. -/
theorem linesOf_line (hab : a ≠ b) {line : List α} (h : ¬[a, b] <:+: line) (rest : List α) :
    linesOf a b (line ++ a :: b :: rest) = line :: linesOf a b rest := by
  match line with
  | [] => exact linesOf_pair rest
  | [x] => exact linesOf_cons (fun hx ↦ hab hx.2) (linesOf_pair rest)
  | x :: y :: line =>
    have hrest : ¬[a, b] <:+: y :: line := fun hin ↦ h (hin.trans (List.suffix_cons x _).isInfix)
    refine linesOf_cons (fun hxy ↦ h ?_) (linesOf_line hab hrest rest)
    rw [hxy.1, hxy.2]
    exact (List.prefix_append [a, b] line).isInfix

theorem linesOf_of_single {l last : List α} (h : linesOf a b l = [last]) : last = l := by
  match l with
  | [] => exact (List.cons_eq_cons.1 h).1.symm
  | [x] => exact (List.cons_eq_cons.1 h).1.symm
  | x :: y :: rest =>
    have ih {last : List α} (h : linesOf a b (y :: rest) = [last]) : last = y :: rest :=
      linesOf_of_single h
    by_cases hpair : x = a ∧ y = b
    · rw [hpair.1, hpair.2, linesOf_pair] at h
      cases h
    · obtain ⟨line, others, hlines⟩ := exists_linesOf (a := a) (b := b) (y :: rest)
      rw [linesOf_cons hpair hlines] at h
      obtain ⟨rfl, rfl⟩ := List.cons_eq_cons.1 h
      rw [ih hlines]

/-- The lines of a text, but for the last, are there however the text goes on. -/
theorem linesOf_append (l t : List α) : ∃ init last, linesOf a b l = init ++ [last] ∧
    linesOf a b last = [last] ∧ linesOf a b (l ++ t) = init ++ linesOf a b (last ++ t) := by
  match l with
  | [] => exact ⟨[], [], rfl, rfl, rfl⟩
  | [x] => exact ⟨[], [x], rfl, rfl, rfl⟩
  | x :: y :: rest =>
    by_cases hpair : x = a ∧ y = b
    · obtain ⟨init, last, hlines, hlast, happend⟩ := linesOf_append rest t
      rw [hpair.1, hpair.2]
      exact ⟨[] :: init, last, by rw [linesOf_pair, hlines]; rfl, hlast,
        (linesOf_pair _).trans (congrArg ([] :: ·) happend)⟩
    · obtain ⟨init, last, hlines, hlast, happend⟩ := linesOf_append (y :: rest) t
      match init with
      | [] =>
        obtain rfl := linesOf_of_single hlines
        exact ⟨[], x :: y :: rest, linesOf_cons hpair hlines, linesOf_cons hpair hlines, rfl⟩
      | line :: init =>
        exact ⟨(x :: line) :: init, last, linesOf_cons hpair hlines, hlast,
          linesOf_cons hpair happend⟩

/-- What a line that is cut off begins. -/
theorem linesOf_line_append {last : List α} (hlast : linesOf a b last = [last]) (t : List α) :
    (∃ more rest, linesOf a b (last ++ t) = (last ++ more) :: rest) ∨
      ∃ line rest, last = line ++ [a] ∧ linesOf a b (last ++ t) = line :: rest := by
  match last, t with
  | [], t =>
    obtain ⟨line, others, hlines⟩ := exists_linesOf (a := a) (b := b) t
    exact .inl ⟨line, others, hlines⟩
  | [x], [] => exact .inl ⟨[], [], rfl⟩
  | [x], y :: t =>
    by_cases hpair : x = a ∧ y = b
    · rw [hpair.1, hpair.2]
      exact .inr ⟨[], _, rfl, linesOf_pair t⟩
    · obtain ⟨line, others, hlines⟩ := exists_linesOf (a := a) (b := b) (y :: t)
      exact .inl ⟨line, others, linesOf_cons hpair hlines⟩
  | x :: y :: rest, t =>
    have ih (h : linesOf a b (y :: rest) = [y :: rest]) := linesOf_line_append h t
    have hpair : ¬(x = a ∧ y = b) := by
      intro hpair
      rw [hpair.1, hpair.2, linesOf_pair] at hlast
      cases hlast
    obtain ⟨line, others, hlines⟩ := exists_linesOf (a := a) (b := b) (y :: rest)
    rw [linesOf_cons hpair hlines] at hlast
    obtain ⟨hline, rfl⟩ := List.cons_eq_cons.1 hlast
    obtain rfl : line = y :: rest := (List.cons_eq_cons.1 hline).2
    rcases ih hlines with ⟨more, others, happend⟩ | ⟨line, others, hcut, happend⟩
    · exact .inl ⟨more, others, linesOf_cons hpair happend⟩
    · exact .inr ⟨x :: line, others, by rw [hcut]; rfl, linesOf_cons hpair happend⟩

end Lines

end Text
