import Mathlib.Data.List.Basic
import Mathlib.Data.List.MinMax

/-!
# Searching for several patterns

What a search for all of some patterns finds in a text, leftmost first and of those at one place
the longest. Patterns are compared after a map of the members, such as the one that forgets the
case. `Found` says of a list of hits, by positions, that it is what such a search returns;
`Cuts` says the same without positions, as a text cut into what the search skips and what it hits,
and `cuts_of_found` leads from the one to the other. `findIter` is such a search.
-/

namespace Text

variable {α β : Type*} (f : α → β)

/-- The text begins with the pattern. -/
def Begins (p xs : List α) : Prop := (xs.take p.length).map f = p.map f

instance [DecidableEq β] (p xs : List α) : Decidable (Begins f p xs) :=
  inferInstanceAs (Decidable (_ = _))

variable {f} {p q xs ys : List α}

theorem Begins.length_le (h : Begins f p xs) : p.length ≤ xs.length := by
  have hlength := congrArg List.length h
  rw [List.length_map, List.length_map, List.length_take] at hlength
  omega

theorem begins_append_iff (h : p.length ≤ xs.length) : Begins f p (xs ++ ys) ↔ Begins f p xs := by
  rw [Begins, Begins, List.take_append_of_le_length h]

theorem Begins.append (h : Begins f p xs) (ys : List α) : Begins f p (xs ++ ys) :=
  (begins_append_iff h.length_le).2 h

theorem begins_of_map_eq (h : xs.map f = p.map f) : Begins f p xs := by
  have hlength : xs.length = p.length := by simpa using congrArg List.length h
  rwa [Begins, List.take_of_length_le (Nat.le_of_eq hlength)]

/-! ### Hits -/

/-- A place where a pattern was found. -/
structure Hit where
  pattern : Nat
  start : Nat
  stop : Nat

variable (f)

/-- What a search finds from a position on: the leftmost place where a pattern stands, there the
longest one, and then what is found after it. -/
inductive Found (patterns : List (List α)) (xs : List α) : Nat → List Hit → Prop
  | done {i : Nat} (none : ∀ j, i ≤ j → ∀ p ∈ patterns, ¬Begins f p (xs.drop j)) :
      Found patterns xs i []
  | hit {i : Nat} {h : Hit} {hits : List Hit} {p : List α} (after : i ≤ h.start)
      (leftmost : ∀ j, i ≤ j → j < h.start → ∀ q ∈ patterns, ¬Begins f q (xs.drop j))
      (pattern : patterns[h.pattern]? = some p) (begins : Begins f p (xs.drop h.start))
      (longest : ∀ q ∈ patterns, Begins f q (xs.drop h.start) → q.length ≤ p.length)
      (stop : h.stop = h.start + p.length) (rest : Found patterns xs h.stop hits) :
      Found patterns xs i (h :: hits)

/-- What a search skips, what it hits, and by which pattern. -/
structure Piece (α : Type*) where
  skipped : List α
  hit : List α
  pattern : Nat

/-- The text of some pieces. -/
def piecesText (pieces : List (Piece α)) : List α := pieces.flatMap fun c ↦ c.skipped ++ c.hit

/-- A text as a search cuts it, with what is left behind the last hit. -/
inductive Cuts (patterns : List (List α)) : List α → List (Piece α) → List α → Prop
  | done {xs : List α} (none : ∀ j, ∀ p ∈ patterns, ¬Begins f p (xs.drop j)) :
      Cuts patterns xs [] xs
  | cut {skipped hit rest last : List α} {k : Nat} {p : List α} {pieces : List (Piece α)}
      (leftmost : ∀ j < skipped.length, ∀ q ∈ patterns,
        ¬Begins f q ((skipped ++ (hit ++ rest)).drop j))
      (pattern : patterns[k]? = some p) (same : hit.map f = p.map f)
      (longest : ∀ q ∈ patterns, Begins f q (hit ++ rest) → q.length ≤ p.length)
      (more : Cuts patterns rest pieces last) :
      Cuts patterns (skipped ++ (hit ++ rest)) (⟨skipped, hit, k⟩ :: pieces) last

variable {f} {patterns : List (List α)} {pieces : List (Piece α)} {last : List α}

theorem Cuts.text (h : Cuts f patterns xs pieces last) : xs = piecesText pieces ++ last := by
  induction h with
  | done none => rfl
  | cut leftmost pattern same longest more ih => simp [piecesText, ih]

/-- Every hit is of a pattern. -/
theorem Cuts.exists_pattern (h : Cuts f patterns xs pieces last) {c : Piece α} (hc : c ∈ pieces) :
    ∃ p, patterns[c.pattern]? = some p ∧ c.hit.map f = p.map f := by
  induction h with
  | done none => exact absurd hc List.not_mem_nil
  | cut leftmost pattern same longest more ih =>
    rcases List.mem_cons.1 hc with rfl | hc
    · exact ⟨_, pattern, same⟩
    · exact ih hc

/-- **What is skipped has none of the patterns in it.** -/
theorem Cuts.not_begins (hne : ∀ p ∈ patterns, p ≠ []) (h : Cuts f patterns xs pieces last)
    {s : List α} (hs : s = last ∨ ∃ c ∈ pieces, c.skipped = s) (j : Nat) (hp : p ∈ patterns) :
    ¬Begins f p (s.drop j) := by
  induction h with
  | done none =>
    obtain rfl : s = _ := hs.resolve_right (by simp)
    exact none j p hp
  | @cut skipped hit rest last k p' pieces leftmost pattern same longest more ih =>
    obtain hs | rfl : (s = last ∨ ∃ c ∈ pieces, c.skipped = s) ∨ skipped = s := by
      rcases hs with hs | ⟨c, hc, rfl⟩
      · exact Or.inl (Or.inl hs)
      · rcases List.mem_cons.1 hc with rfl | hc
        · exact Or.inr rfl
        · exact Or.inl (Or.inr ⟨c, hc, rfl⟩)
    · exact ih hs
    · intro hbegins
      have hj : j < skipped.length := by
        have hle := hbegins.length_le
        have hpos := List.length_pos_iff.2 (hne p hp)
        rw [List.length_drop] at hle
        omega
      refine leftmost j hj p hp ?_
      rw [List.drop_append_of_le_length (Nat.le_of_lt hj)]
      exact hbegins.append _

/-- Where a piece's hit starts, and the pieces before it. -/
def startOf (before : List (Piece α)) (c : Piece α) : Nat :=
  (piecesText before).length + c.skipped.length

theorem startOf_cons (c : Piece α) (before : List (Piece α)) (d : Piece α) :
    startOf (c :: before) d = c.skipped.length + c.hit.length + startOf before d := by
  simp only [startOf, piecesText, List.flatMap_cons, List.length_append]
  omega

/-- **Wherever a pattern stands, there is a hit.** -/
theorem Cuts.exists_hit (h : Cuts f patterns xs pieces last) {j : Nat} (hp : p ∈ patterns)
    (hj : Begins f p (xs.drop j)) :
    ∃ before c after, pieces = before ++ c :: after ∧
      startOf before c ≤ j ∧ j < startOf before c + c.hit.length := by
  induction h generalizing j with
  | done none => exact absurd hj (none j p hp)
  | @cut skipped hit rest last k p' pieces leftmost pattern same longest more ih =>
    by_cases hskipped : j < skipped.length
    · exact absurd hj (leftmost j hskipped p hp)
    by_cases hhit : j < skipped.length + hit.length
    · exact ⟨[], ⟨skipped, hit, k⟩, pieces, rfl, by simp [startOf, piecesText]; omega,
        by simpa [startOf, piecesText] using hhit⟩
    · obtain ⟨i, rfl⟩ := Nat.exists_eq_add_of_le (Nat.le_of_not_lt hhit)
      have hi : Begins f p (rest.drop i) := by
        rwa [← List.append_assoc, ← List.length_append, List.drop_length_add_append] at hj
      obtain ⟨before, c, after, rfl, hle, hlt⟩ := ih hi
      refine ⟨⟨skipped, hit, k⟩ :: before, c, after, rfl, ?_, ?_⟩ <;>
        simp only [startOf_cons] <;> omega

/-- **Where a hit starts, no pattern is longer.** -/
theorem Cuts.longest (h : Cuts f patterns xs pieces last) {before after : List (Piece α)}
    {c : Piece α} (hpieces : pieces = before ++ c :: after) (hp : p ∈ patterns)
    (hj : Begins f p (xs.drop (startOf before c))) : p.length ≤ c.hit.length := by
  induction h generalizing before with
  | done none => simp at hpieces
  | @cut skipped hit rest last k p' pieces leftmost pattern same longest more ih =>
    rcases before with - | ⟨d, before⟩
    · obtain ⟨rfl, rfl⟩ := List.cons.inj hpieces
      have hlength : hit.length = p'.length := by simpa using congrArg List.length same
      rw [show startOf [] _ = skipped.length from Nat.zero_add _, List.drop_left] at hj
      exact (longest p hp hj).trans (Nat.le_of_eq hlength.symm)
    · obtain ⟨rfl, hrest⟩ := List.cons.inj hpieces
      refine ih hrest ?_
      have hstart : startOf (⟨skipped, hit, k⟩ :: before) c =
          (skipped ++ hit).length + startOf before c := by
        rw [List.length_append]
        exact startOf_cons _ before c
      rwa [hstart, ← List.append_assoc, List.drop_length_add_append] at hj

/-- Where nothing begins, the search may start one member later. -/
theorem Found.of_succ {i : Nat} {hits : List Hit} (h : Found f patterns xs (i + 1) hits)
    (hi : ∀ p ∈ patterns, ¬Begins f p (xs.drop i)) : Found f patterns xs i hits := by
  have hstart {j : Nat} (hj : i ≤ j) : j = i ∨ i + 1 ≤ j := by omega
  cases h with
  | done none =>
    refine .done fun j hj p hp ↦ ?_
    rcases hstart hj with rfl | hj
    · exact hi p hp
    · exact none j hj p hp
  | hit after leftmost pattern begins longest stop rest =>
    refine .hit (by omega) (fun j hj hlt p hp ↦ ?_) pattern begins longest stop rest
    rcases hstart hj with rfl | hj
    · exact hi p hp
    · exact leftmost j hj hlt p hp

/-- The hits of some pieces that start at a position. -/
def hitsOf (i : Nat) : List (Piece α) → List Hit
  | [] => []
  | c :: pieces =>
    let start := i + c.skipped.length
    ⟨c.pattern, start, start + c.hit.length⟩ :: hitsOf (start + c.hit.length) pieces

/-- **What is found cuts the text.** -/
theorem cuts_of_found (hne : ∀ p ∈ patterns, p ≠ []) {i : Nat} {hits : List Hit}
    (h : Found f patterns xs i hits) (hi : i ≤ xs.length) :
    ∃ pieces last, hits = hitsOf i pieces ∧ Cuts f patterns (xs.drop i) pieces last := by
  induction h with
  | @done i none =>
    refine ⟨[], xs.drop i, rfl, .done fun j p hp ↦ ?_⟩
    rw [List.drop_drop]
    exact none _ (Nat.le_add_right i j) p hp
  | @hit i h hits p after leftmost pattern begins longest stop rest ih =>
    have hfits : h.start + p.length ≤ xs.length := by
      have hle := begins.length_le
      have hpos := List.length_pos_iff.2 (hne p (List.mem_of_getElem? pattern))
      rw [List.length_drop] at hle
      omega
    obtain ⟨pieces, last, hhits, hcuts⟩ := ih (by omega)
    let skipped := (xs.drop i).take (h.start - i)
    let hit := (xs.drop h.start).take p.length
    have hskipped : skipped.length = h.start - i := by
      rw [List.length_take, List.length_drop]
      omega
    have hhit : hit.length = p.length := by
      rw [List.length_take, List.length_drop]
      omega
    have hrest : xs.drop h.start = hit ++ xs.drop h.stop := by
      rw [stop, ← List.drop_drop, List.take_append_drop]
    have htext : xs.drop i = skipped ++ (hit ++ xs.drop h.stop) := by
      have hdrop : (xs.drop i).drop (h.start - i) = xs.drop h.start := by
        rw [List.drop_drop]
        congr 1
        omega
      rw [← hrest, ← hdrop, List.take_append_drop]
    refine ⟨⟨skipped, hit, h.pattern⟩ :: pieces, last, ?_, ?_⟩
    · have hstart : i + skipped.length = h.start := by omega
      simp only [hitsOf, hstart, hhit, ← stop, ← hhits]
    · rw [htext]
      refine .cut (fun j hj q hq ↦ ?_) pattern begins (fun q hq hbegins ↦ ?_) hcuts
      · rw [← htext, List.drop_drop]
        exact leftmost _ (Nat.le_add_right i j) (by omega) q hq
      · exact longest q hq (hrest ▸ hbegins)

/-! ### A search -/

section Search

variable [DecidableEq β] (f patterns)

/-- The longest pattern that a text begins with, and its place among the patterns. -/
def longestAt (xs : List α) : Option (List α × Nat) :=
  (patterns.zipIdx.filter fun p ↦ Begins f p.1 xs).argmax fun p ↦ p.1.length

/-- The search for the patterns in a text that starts at a position, but for so many members. -/
def findFrom : Nat → Nat → List α → List Hit
  | _, _, [] => []
  | i, skip + 1, _ :: xs => findFrom (i + 1) skip xs
  | i, 0, x :: xs =>
    match longestAt f patterns (x :: xs) with
    | none => findFrom (i + 1) 0 xs
    | some (p, k) => ⟨k, i, i + p.length⟩ :: findFrom (i + 1) (p.length - 1) xs

/-- The search of a whole text, leftmost first and of those at one place the longest. -/
def findIter (xs : List α) : List Hit := findFrom f patterns 0 0 xs

variable {f patterns}

theorem mem_filter_begins {k : Nat} (hk : patterns[k]? = some p) (h : Begins f p xs) :
    (p, k) ∈ patterns.zipIdx.filter fun q ↦ Begins f q.1 xs :=
  List.mem_filter.2 ⟨List.mem_zipIdx_iff_getElem?.2 hk, decide_eq_true h⟩

theorem longestAt_eq_none (h : longestAt f patterns xs = none) (hp : p ∈ patterns) :
    ¬Begins f p xs := by
  intro hbegins
  obtain ⟨k, hk⟩ := List.mem_iff_getElem?.1 hp
  have hmem := mem_filter_begins hk hbegins
  rw [List.argmax_eq_none.1 h] at hmem
  exact absurd hmem List.not_mem_nil

theorem longestAt_eq_some {k : Nat} (h : longestAt f patterns xs = some (p, k)) :
    patterns[k]? = some p ∧ Begins f p xs ∧
      ∀ q ∈ patterns, Begins f q xs → q.length ≤ p.length := by
  have hmem := List.mem_filter.1 (List.argmax_mem h)
  refine ⟨List.mem_zipIdx_iff_getElem?.1 hmem.1, of_decide_eq_true hmem.2, fun q hq hbegins ↦ ?_⟩
  obtain ⟨l, hl⟩ := List.mem_iff_getElem?.1 hq
  exact List.le_of_mem_argmax (f := fun p : List α × Nat ↦ p.1.length)
    (mem_filter_begins hl hbegins) h

/-- **The search finds what it should.** The induction is on the text that is left, and it is said
of all that is left from the member on that is looked at next. -/
theorem found_findFrom (hne : ∀ p ∈ patterns, p ≠ []) {i skip : Nat}
    (hrest : xs = ys.drop i) (hfits : i + skip ≤ ys.length) :
    Found f patterns ys (i + skip) (findFrom f patterns i skip xs) := by
  induction xs generalizing i skip with
  | nil =>
    refine .done fun j hj p hp hbegins ↦ hne p hp ?_
    have hnil : ys.length ≤ i := List.drop_eq_nil_iff.1 hrest.symm
    have hle := hbegins.length_le
    rw [List.length_drop] at hle
    exact List.eq_nil_of_length_eq_zero (by omega)
  | cons x xs ih =>
    have hnext : xs = ys.drop (i + 1) := by
      rw [← List.drop_drop, ← hrest]
      rfl
    rcases skip with - | skip
    · rw [findFrom]
      rcases hat : longestAt f patterns (x :: xs) with - | ⟨p, k⟩
      · have hfits' : i + 1 + 0 ≤ ys.length := by
          have hlength := congrArg List.length hrest
          rw [List.length_drop, List.length_cons] at hlength
          omega
        refine (ih hnext hfits').of_succ fun p hp ↦ ?_
        rw [← hrest]
        exact longestAt_eq_none hat hp
      · obtain ⟨hk, hbegins, hlongest⟩ := longestAt_eq_some hat
        have hpos := List.length_pos_iff.2 (hne p (List.mem_of_getElem? hk))
        have hfits' : i + 1 + (p.length - 1) ≤ ys.length := by
          have hle := hbegins.length_le
          rw [hrest, List.length_drop] at hle
          omega
        have hstop : i + 1 + (p.length - 1) = i + p.length := by omega
        have hrest' := ih hnext hfits'
        rw [hstop] at hrest'
        rw [hrest] at hbegins hlongest
        exact .hit (Nat.le_refl _) (fun j hj hlt ↦ absurd hlt (Nat.not_lt.2 hj)) hk hbegins
          hlongest rfl hrest'
    · rw [findFrom]
      have hfits' : i + 1 + skip ≤ ys.length := by omega
      have hsucc : i + (skip + 1) = i + 1 + skip := by omega
      rw [hsucc]
      exact ih hnext hfits'

/-- **`findIter` is a leftmost-longest search.** -/
theorem found_findIter (hne : ∀ p ∈ patterns, p ≠ []) (xs : List α) :
    Found f patterns xs 0 (findIter f patterns xs) := by
  have hfits : 0 + 0 ≤ xs.length := Nat.zero_le _
  exact found_findFrom hne rfl hfits

end Search

end Text
