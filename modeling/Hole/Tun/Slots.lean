import Mathlib.Data.List.Basic
import Mathlib.Data.List.Perm.Basic

/-!
# Slots

A store of values in slots, each found by the index of its slot (its handle). A value goes into the
first slot that is free, so that a handle may come back once its value was removed. `Partition` is
what a list of handles is that has each filled slot once.
-/

namespace Hole

/-- Slots, of which some are filled. -/
structure Slots (α : Type) where
  storage : List (Option α)

namespace Slots

variable {α : Type} (s : Slots α)

/-- The value in a slot. -/
def get? (h : Nat) : Option α := s.storage[h]?.join

/-- The first slot that is free. -/
def free : Nat := s.storage.findIdx Option.isNone

/-- A value is put in the first slot that is free. -/
def add (a : α) : Slots α :=
  if s.free < s.storage.length then ⟨s.storage.set s.free (some a)⟩ else ⟨s.storage ++ [some a]⟩

/-- The value in a slot is replaced. -/
def set (h : Nat) (a : α) : Slots α := ⟨s.storage.set h (some a)⟩

/-- A slot is cleared. -/
def remove (h : Nat) : Slots α := ⟨s.storage.set h none⟩

/-- The slots that are filled, in their order. -/
def handles : List Nat := (List.range s.storage.length).filter fun h ↦ (s.get? h).isSome

theorem lt_of_get? {h : Nat} {a : α} (hget : s.get? h = some a) : h < s.storage.length := by
  rw [get?, Option.join_eq_some_iff] at hget
  exact (List.getElem?_eq_some_iff.1 hget).1

theorem get?_free : s.get? s.free = none := by
  rw [get?]
  by_cases hfree : s.free < s.storage.length
  · have hnone : s.storage[s.free].isNone = true := List.findIdx_getElem
    rw [List.getElem?_eq_getElem hfree, Option.isNone_iff_eq_none.1 hnone]
    rfl
  · rw [List.getElem?_eq_none (Nat.le_of_not_lt hfree)]
    rfl

theorem get?_add (a : α) (h : Nat) :
    (s.add a).get? h = if h = s.free then some a else s.get? h := by
  rw [add]
  by_cases hfree : s.free < s.storage.length
  · rw [if_pos hfree]
    split
    · next heq =>
      subst heq
      rw [get?, List.getElem?_set_self hfree, Option.join_some]
    · next hne => rw [get?, List.getElem?_set_ne (Ne.symm hne), get?]
  · have hlen : s.free = s.storage.length :=
      Nat.le_antisymm List.findIdx_le_length (Nat.le_of_not_lt hfree)
    rw [if_neg hfree, hlen]
    split
    · next heq => rw [heq, get?, List.getElem?_concat_length, Option.join_some]
    · next hne =>
      rw [get?, get?]
      rcases Nat.lt_or_gt_of_ne hne with hlt | hgt
      · rw [List.getElem?_append_left hlt]
      · rw [List.getElem?_eq_none (by rw [List.length_append, List.length_singleton]; omega),
          List.getElem?_eq_none (Nat.le_of_lt hgt)]

theorem get?_set {h : Nat} (hfilled : (s.get? h).isSome) (a : α) (k : Nat) :
    (s.set h a).get? k = if k = h then some a else s.get? k := by
  obtain ⟨b, hb⟩ := Option.isSome_iff_exists.1 hfilled
  rw [set, get?]
  split
  · next heq => rw [heq, List.getElem?_set_self (s.lt_of_get? hb), Option.join_some]
  · next hne => rw [List.getElem?_set_ne (Ne.symm hne), get?]

theorem get?_remove (h k : Nat) : (s.remove h).get? k = if k = h then none else s.get? k := by
  rw [remove, get?]
  split
  · next heq =>
    rw [heq, List.getElem?_set]
    split
    · split <;> rfl
    · contradiction
  · next hne => rw [List.getElem?_set_ne (Ne.symm hne), get?]

theorem mem_handles {h : Nat} : h ∈ s.handles ↔ (s.get? h).isSome := by
  rw [handles, List.mem_filter, List.mem_range]
  refine and_iff_right_of_imp fun hsome ↦ ?_
  obtain ⟨a, ha⟩ := Option.isSome_iff_exists.1 hsome
  exact s.lt_of_get? ha

/-! ### Lists of handles -/

/-- The list has each filled slot once. -/
structure Partition (s : Slots α) (book : List Nat) : Prop where
  nodup : book.Nodup
  mem : ∀ h, h ∈ book ↔ (s.get? h).isSome

namespace Partition

variable {s : Slots α} {book book' : List Nat}

theorem perm (p : s.Partition book) (h : book.Perm book') : s.Partition book' where
  nodup := h.nodup_iff.1 p.nodup
  mem k := h.mem_iff.symm.trans (p.mem k)

/-- Which slots are filled is all that counts. -/
theorem congr (p : s.Partition book) {t : Slots α}
    (h : ∀ k, (t.get? k).isSome = (s.get? k).isSome) : t.Partition book where
  nodup := p.nodup
  mem k := by rw [p.mem, h]

theorem add (p : s.Partition book) (a : α) : (s.add a).Partition (s.free :: book) where
  nodup := by
    refine List.nodup_cons.2 ⟨fun hmem ↦ ?_, p.nodup⟩
    have hfilled := (p.mem s.free).1 hmem
    rw [s.get?_free] at hfilled
    cases hfilled
  mem k := by
    rw [List.mem_cons, p.mem, get?_add]
    split
    · next heq => exact iff_of_true (.inl heq) rfl
    · next hne => exact or_iff_right hne

theorem remove {h : Nat} (p : s.Partition (h :: book)) : (s.remove h).Partition book where
  nodup := (List.nodup_cons.1 p.nodup).2
  mem k := by
    rw [get?_remove]
    split
    · next heq =>
      rw [heq]
      exact iff_of_false (List.nodup_cons.1 p.nodup).1 nofun
    · next hne => rw [← p.mem, List.mem_cons, or_iff_right hne]

/-- The value behind a handle of the list. -/
theorem get? (p : s.Partition book) {h : Nat} (hmem : h ∈ book) : ∃ a, s.get? h = some a :=
  Option.isSome_iff_exists.1 ((p.mem h).1 hmem)

end Partition

end Slots

end Hole
