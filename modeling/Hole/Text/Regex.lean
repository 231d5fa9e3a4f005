import Mathlib.Data.List.Basic

/-!
# Regular expressions, in part

The part of the syntax of regular expressions that has no alternatives, groups or classes: items one
after another, each an assertion or an atom that stands once or any number of times, and a flag for
the case at the front. A match is searched for from every position on, and an item that stands any
number of times tries them all.

A character stands for itself unless it is one of `metaChars`, and any of these does behind a
backslash. A dot is any character but a line feed. How case is folded is a parameter.
-/

namespace Text.Regex

/-- What matches one character. -/
inductive Atom
  | any
  | lit (c : Char)

/-- What an expression is a list of. -/
inductive Item
  | start
  /-- The end of the text. -/
  | stop
  | one (a : Atom)
  | many (a : Atom)

/-- An expression: whether case is ignored, and its items. -/
structure Expr where
  ignoreCase : Bool
  items : List Item

/-! ### Syntax -/

/-- The characters with a meaning of their own. -/
def metaChars : List Char :=
  ['\\', '.', '+', '*', '?', '(', ')', '|', '[', ']', '\x7b', '\x7d', '^', '$']

/-- The items of a text, after others, last one first; nothing for syntax beyond this part. -/
def parseItems : List Char → List Item → Option (List Item)
  | [], acc => some acc.reverse
  | '^' :: rest, acc => parseItems rest (.start :: acc)
  | '$' :: rest, acc => parseItems rest (.stop :: acc)
  | '.' :: rest, acc => parseItems rest (.one .any :: acc)
  | '*' :: rest, .one a :: acc => parseItems rest (.many a :: acc)
  | '\\' :: c :: rest, acc =>
    if c ∈ metaChars then parseItems rest (.one (.lit c) :: acc) else none
  | c :: rest, acc => if c ∈ metaChars then none else parseItems rest (.one (.lit c) :: acc)

/-- The expression that a text is. -/
def parse : List Char → Option Expr
  | '(' :: '?' :: 'i' :: ')' :: rest => (parseItems rest []).map (⟨true, ·⟩)
  | text => (parseItems text []).map (⟨false, ·⟩)

theorem parseItems_start (rest : List Char) (acc : List Item) :
    parseItems ('^' :: rest) acc = parseItems rest (.start :: acc) := rfl

theorem parseItems_escaped {c : Char} (hc : c ∈ metaChars) (rest : List Char) (acc : List Item) :
    parseItems ('\\' :: c :: rest) acc = parseItems rest (.one (.lit c) :: acc) := by
  rw [parseItems, if_pos hc]

theorem parseItems_plain {c : Char} (hc : c ∉ metaChars) (rest : List Char) (acc : List Item) :
    parseItems (c :: rest) acc = parseItems rest (.one (.lit c) :: acc) := by
  have hne {d : Char} (hd : d ∈ metaChars) : c ≠ d := ne_of_mem_of_not_mem hd hc |>.symm
  rw [parseItems, if_neg hc]
  case x_2 | x_3 | x_4 => exact hne (by decide)
  case x_5 =>
    intros
    exact absurd ‹c = '*'› (hne (by decide))
  case x_6 =>
    intros
    exact absurd ‹c = '\\'› (hne (by decide))

/-! ### Matching -/

section Matching

variable (fold : Char → Char) (ignoreCase : Bool)

/-- A character that an atom matches. -/
def Atom.accepts : Atom → Char → Bool
  | .any, x => x != '\n'
  | .lit c, x => if ignoreCase then fold x == fold c else x == c

/-- Any number of characters, and then what is asked of the rest; `first` says that nothing of the
text is before. -/
def star (a : Atom) (k : Bool → List Char → Bool) : Bool → List Char → Bool
  | first, [] => k first []
  | first, x :: s => k first (x :: s) || (a.accepts fold ignoreCase x && star a k false s)

/-- The items match what the text begins with. -/
def matchHere : List Item → Bool → List Char → Bool
  | [], _, _ => true
  | .start :: items, first, s => first && matchHere items first s
  | .stop :: items, first, s => s.isEmpty && matchHere items first s
  | .one _ :: _, _, [] => false
  | .one a :: items, _, x :: s => a.accepts fold ignoreCase x && matchHere items false s
  | .many a :: items, first, s => star fold ignoreCase a (matchHere items) first s

/-- The items match somewhere in what is left of the text. -/
def searchFrom (items : List Item) : Bool → List Char → Bool
  | first, [] => matchHere fold ignoreCase items first []
  | first, x :: s =>
    matchHere fold ignoreCase items first (x :: s) || searchFrom items false s

end Matching

variable {fold : Char → Char} {ignoreCase : Bool}

theorem star_eq_true {a : Atom} {k : Bool → List Char → Bool} {first : Bool} {s : List Char} :
    star fold ignoreCase a k first s = true ↔
      ∃ u v, s = u ++ v ∧ (∀ x ∈ u, a.accepts fold ignoreCase x = true) ∧
        k (first && u.isEmpty) v = true := by
  induction s generalizing first with
  | nil =>
    constructor
    · exact fun h ↦ ⟨[], [], rfl, nofun, by rwa [List.isEmpty_nil, Bool.and_true]⟩
    · rintro ⟨u, v, hs, -, hk⟩
      obtain ⟨rfl, rfl⟩ := List.append_eq_nil_iff.1 hs.symm
      rwa [List.isEmpty_nil, Bool.and_true] at hk
  | cons x s ih =>
    rw [star, Bool.or_eq_true, Bool.and_eq_true, ih]
    constructor
    · rintro (hk | ⟨hx, u, v, rfl, hu, hk⟩)
      · exact ⟨[], x :: s, rfl, nofun, by rwa [List.isEmpty_nil, Bool.and_true]⟩
      · exact ⟨x :: u, v, rfl, List.forall_mem_cons.2 ⟨hx, hu⟩, by simpa using hk⟩
    · rintro ⟨u, v, hs, hu, hk⟩
      cases u with
      | nil =>
        left
        rw [List.isEmpty_nil, Bool.and_true] at hk
        rwa [hs]
      | cons y u =>
        obtain ⟨rfl, rfl⟩ := List.cons.inj hs
        obtain ⟨hx, hu⟩ := List.forall_mem_cons.1 hu
        exact .inr ⟨hx, u, v, rfl, hu, by simpa using hk⟩

/-- The expression matches somewhere in a text. -/
def Expr.isMatch (fold : Char → Char) (e : Expr) (s : List Char) : Bool :=
  searchFrom fold e.ignoreCase e.items true s

theorem searchFrom_start {items : List Item} (s : List Char) :
    searchFrom fold ignoreCase (.start :: items) false s = false := by
  induction s with
  | nil => rfl
  | cons x s ih => rw [searchFrom, ih]; rfl

/-- An expression that begins at the start of the text matches there or nowhere. -/
theorem isMatch_start {items : List Item} (s : List Char) :
    Expr.isMatch fold ⟨ignoreCase, .start :: items⟩ s =
      matchHere fold ignoreCase items true s := by
  rw [Expr.isMatch]
  cases s with
  | nil => rw [searchFrom, matchHere, Bool.true_and]
  | cons x s => rw [searchFrom, searchFrom_start, Bool.or_false, matchHere, Bool.true_and]

end Text.Regex
