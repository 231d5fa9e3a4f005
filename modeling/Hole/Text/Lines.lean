import Mathlib.Data.List.Basic
import Mathlib.Data.List.TakeWhile

/-!
# Lines and words

A text as the words of its lines, blank lines dropped: what a line-oriented reader sees. A text is
usually put together from pieces that end their lines, and such pieces are read one by one
(`lines_append_of_ends`); a line is read as the words it was put together from (`lines_join`,
`lines_around`). `splitOnce` cuts a text in two at a separator.
-/

namespace Text

/-- A property of the members of a list, looked at one by one. -/
theorem forall_of_all {α : Type*} {p : α → Prop} [DecidablePred p] {xs : List α}
    (h : (xs.all fun x ↦ p x) = true) : ∀ x ∈ xs, p x :=
  fun x hx ↦ of_decide_eq_true (List.all_eq_true.1 h x hx)

/-- The words of a line. -/
def words (line : List Char) : List String := ((line.splitOn ' ').filter (· ≠ [])).map String.ofList

/-- The lines of a text that are not blank, as their words. -/
def lines (text : List Char) : List (List String) := ((text.splitOn '\n').map words).filter (· ≠ [])

/-- A string that is one word. -/
structure IsWord (w : String) : Prop where
  nonempty : w.toList ≠ []
  unblank : ' ' ∉ w.toList
  unbroken : '\n' ∉ w.toList

instance (w : String) : Decidable (IsWord w) :=
  decidable_of_iff ((w.toList ≠ [] ∧ ' ' ∉ w.toList) ∧ '\n' ∉ w.toList)
    ⟨fun h ↦ ⟨h.1.1, h.1.2, h.2⟩, fun h ↦ ⟨⟨h.nonempty, h.unblank⟩, h.unbroken⟩⟩

/-- A text before and after the first `c`. -/
def splitOnce (c : Char) (cs : List Char) : Option (List Char × List Char) :=
  match cs.dropWhile (· != c) with
  | [] => none
  | _ :: after => some (cs.takeWhile (· != c), after)

theorem splitOnce_append {c : Char} {before : List Char} (h : c ∉ before) (after : List Char) :
    splitOnce c (before ++ c :: after) = some (before, after) := by
  have hbefore : ∀ d ∈ before, (d != c) = true := by
    intro d hd
    rw [bne_iff_ne]
    rintro rfl
    exact h hd
  simp [splitOnce, List.takeWhile_append_of_pos hbefore, List.dropWhile_append_of_pos hbefore]

theorem splitOnce_eq_none {c : Char} {cs : List Char} (h : c ∉ cs) : splitOnce c cs = none := by
  have hdrop : cs.dropWhile (· != c) = [] := by
    refine List.dropWhile_eq_nil_iff.2 fun d hd ↦ ?_
    rw [bne_iff_ne]
    rintro rfl
    exact h hd
  rw [splitOnce, hdrop]

/-- What the pieces and the separator lack, their join lacks. -/
theorem not_mem_join {c sep : Char} {ls : List (List Char)} (hsep : c ≠ sep)
    (h : ∀ l ∈ ls, c ∉ l) : c ∉ [sep].intercalate ls := by
  induction ls with
  | nil => simp
  | cons l ls ih =>
    have hl := h l (.head _)
    have hls := ih fun l hl ↦ h l (.tail _ hl)
    rcases ls with - | ⟨l', ls⟩
    · simpa using hl
    · rw [List.intercalate_cons_cons]
      simp [hl, hls, hsep]

/-- A map that keeps the separator apart keeps the pieces apart. -/
theorem splitOn_map {c : Char} {f : Char → Char} (hf : ∀ x, f x = c ↔ x = c) (cs : List Char) :
    (cs.map f).splitOn c = (cs.splitOn c).map (List.map f) := by
  induction cs with
  | nil => rfl
  | cons x cs ih =>
    rw [List.map_cons, List.splitOn_cons_eq_if_modifyHead, List.splitOn_cons_eq_if_modifyHead, ih]
    by_cases hx : x = c
    · rw [if_pos (by simpa using (hf x).2 hx), if_pos (by simpa using hx)]
      rfl
    · rw [if_neg (by simpa using mt (hf x).1 hx), if_neg (by simpa using hx)]
      cases cs.splitOn c <;> rfl

@[simp] theorem lines_nil : lines [] = [] := rfl

theorem lines_append (xs ys : List Char) : lines (xs ++ '\n' :: ys) = lines xs ++ lines ys := by
  simp [lines, List.splitOn_append_cons_self]

/-- Pieces that end their last line are read one by one. -/
theorem lines_append_of_ends {xs : List Char} (h : xs = [] ∨ xs.getLast? = some '\n')
    (ys : List Char) : lines (xs ++ ys) = lines xs ++ lines ys := by
  rcases h with rfl | h
  · rfl
  · obtain ⟨zs, rfl⟩ := List.getLast?_eq_some_iff.1 h
    have hxs := lines_append zs []
    rw [lines_nil, List.append_nil] at hxs
    rw [List.append_assoc, List.singleton_append, lines_append, hxs]

/-- **A line reads as the words it was put together from.** -/
theorem lines_join {ws : List String} (hne : ws ≠ []) (h : ∀ w ∈ ws, IsWord w) :
    lines ([' '].intercalate (ws.map String.toList) ++ ['\n']) = [ws] := by
  have hwords : words ([' '].intercalate (ws.map String.toList)) = ws := by
    rw [words, List.splitOn_intercalate]
    · have hkeep : (ws.map String.toList).filter (· ≠ []) = ws.map String.toList := by
        refine List.filter_eq_self.2 fun cs hcs ↦ ?_
        obtain ⟨w, hw, rfl⟩ := List.mem_map.1 hcs
        exact decide_eq_true (h w hw).nonempty
      rw [hkeep, List.map_map]
      simp [Function.comp_def]
    · intro cs hcs
      obtain ⟨w, hw, rfl⟩ := List.mem_map.1 hcs
      exact (h w hw).unblank
    · simpa using hne
  have hunbroken : '\n' ∉ [' '].intercalate (ws.map String.toList) := by
    refine not_mem_join (by decide) fun cs hcs ↦ ?_
    obtain ⟨w, hw, rfl⟩ := List.mem_map.1 hcs
    exact (h w hw).unbroken
  rw [lines_append, lines_nil, List.append_nil, lines, List.splitOn_eq_singleton hunbroken]
  simp [hwords, hne]

theorem join_words (a : List String) (w : String) (b : List String) :
    [' '].intercalate ((a ++ w :: b).map String.toList) =
      a.flatMap (fun v ↦ v.toList ++ [' ']) ++ w.toList ++ b.flatMap (fun v ↦ ' ' :: v.toList) := by
  induction a with
  | nil =>
    induction b generalizing w with
    | nil => simp
    | cons v b ih =>
      have hrest := ih v
      simp only [List.nil_append, List.map_cons, List.flatMap_nil] at hrest ⊢
      rw [List.intercalate_cons_cons, hrest]
      simp
  | cons v a ih =>
    have hne : (a ++ w :: b).map String.toList ≠ [] := by simp
    rw [List.cons_append, List.map_cons, List.intercalate_cons_of_ne_nil hne, ih]
    simp

/-- A line with one word between fixed ones. -/
theorem lines_around {a b : List String} {w : String} (ha : ∀ v ∈ a, IsWord v) (hw : IsWord w)
    (hb : ∀ v ∈ b, IsWord v) :
    lines (a.flatMap (fun v ↦ v.toList ++ [' ']) ++ w.toList ++
      b.flatMap (fun v ↦ ' ' :: v.toList) ++ ['\n']) = [a ++ w :: b] := by
  have hwords : ∀ v ∈ a ++ w :: b, IsWord v := by
    intro v hv
    rcases List.mem_append.1 hv with hv | hv
    · exact ha v hv
    · rcases List.mem_cons.1 hv with rfl | hv
      · exact hw
      · exact hb v hv
  rw [← join_words, lines_join (by simp) hwords]

/-! ### `str::lines` -/

/-- A line without the carriage return that it may end with. -/
def dropCr (l : List Char) : List Char := if l.getLast? = some '\r' then l.dropLast else l

/-- `str::lines`. A text that ends its last line has no empty line after it. -/
def strLines (cs : List Char) : List (List Char) :=
  (cs.splitOn '\n').dropLast.map dropCr ++ (cs.splitOn '\n').getLast?.toList.filter (· ≠ [])

theorem dropCr_of_not_mem {l : List Char} (h : '\r' ∉ l) : dropCr l = l := by
  rw [dropCr, if_neg]
  intro hlast
  exact h (List.mem_of_getLast? hlast)

@[simp] theorem strLines_nil : strLines [] = [] := rfl

/-- A line and those after it. -/
theorem strLines_append {l : List Char} (hcr : '\r' ∉ l) (hlf : '\n' ∉ l) (cs : List Char) :
    strLines (l ++ '\n' :: cs) = l :: strLines cs := by
  have hne : cs.splitOn '\n' ≠ [] := List.splitOn_ne_nil _ _
  rw [strLines, List.splitOn_append_cons_self, List.splitOn_eq_singleton hlf,
    List.dropLast_append_of_ne_nil hne, List.getLast?_append_of_ne_nil _ hne, List.map_append,
    List.map_singleton, dropCr_of_not_mem hcr, List.append_assoc]
  rfl

/-- A last line that nothing ends. -/
theorem strLines_unbroken {l : List Char} (hne : l ≠ []) (hlf : '\n' ∉ l) : strLines l = [l] := by
  rw [strLines, List.splitOn_eq_singleton hlf]
  simp [hne]

end Text
