import Mathlib.Data.List.Nodup
import Mathlib.Data.List.Perm.Basic
import Mathlib.Logic.Function.Basic

/-!
# Keyed lists

A list whose elements have a key each, read as a partial function of the key (`lookup`). Where no
two elements share a key, the order does not matter, and what is done at a position of the list is
an update of that function.
-/

namespace Keyed

variable {α κ β : Type} [DecidableEq κ] {key : α → κ} {val : α → β}

/-- The value of the element with a key. -/
def lookup (key : α → κ) (val : α → β) (l : List α) (k : κ) : Option β :=
  (l.find? (key · = k)).map val

variable {l l' : List α} {k : κ} {i : Nat} {x : α}

theorem lookup_eq_none : lookup key val l k = none ↔ k ∉ l.map key := by
  rw [lookup, Option.map_eq_none_iff, List.find?_eq_none, List.mem_map]
  constructor
  · rintro h ⟨x, hx, rfl⟩
    exact h x hx (decide_eq_true rfl)
  · intro h x hx hk
    exact h ⟨x, hx, of_decide_eq_true hk⟩

/-- An element is found by its key. -/
theorem lookup_of_mem (hnodup : (l.map key).Nodup) (hx : x ∈ l) :
    lookup key val l (key x) = some (val x) := by
  cases hfind : l.find? (key · = key x) with
  | none => exact absurd (decide_eq_true rfl) (List.find?_eq_none.1 hfind x hx)
  | some y =>
    have hy : key y = key x := by simpa using List.find?_some hfind
    have heq : y = x := List.inj_on_of_nodup_map hnodup (List.mem_of_find?_eq_some hfind) hx hy
    rw [lookup, hfind, heq, Option.map_some]

theorem exists_of_lookup {b : β} (h : lookup key val l k = some b) :
    ∃ x ∈ l, key x = k ∧ val x = b := by
  obtain ⟨x, hfind, hval⟩ := Option.map_eq_some_iff.1 h
  exact ⟨x, List.mem_of_find?_eq_some hfind, by simpa using List.find?_some hfind, hval⟩

/-- Lists with the same elements are read the same. -/
theorem lookup_congr (hnodup : (l'.map key).Nodup) (h : ∀ x, x ∈ l ↔ x ∈ l') :
    lookup key val l = lookup key val l' := by
  funext k
  cases hk : lookup key val l k with
  | none =>
    rw [eq_comm, lookup_eq_none, List.mem_map]
    rintro ⟨x, hx, rfl⟩
    exact lookup_eq_none.1 hk (List.mem_map_of_mem ((h x).2 hx))
  | some b =>
    obtain ⟨x, hx, rfl, rfl⟩ := exists_of_lookup hk
    exact (lookup_of_mem hnodup ((h x).1 hx)).symm

/-- The order does not matter. -/
theorem lookup_perm (hnodup : (l.map key).Nodup) (hperm : l.Perm l') :
    lookup key val l = lookup key val l' :=
  lookup_congr ((hperm.map key).nodup_iff.1 hnodup) fun _ ↦ hperm.mem_iff

@[simp] theorem lookup_cons (l : List α) (x : α) :
    lookup key val (x :: l) = Function.update (lookup key val l) (key x) (some (val x)) := by
  funext k
  by_cases hk : k = key x
  · have hpos : decide (key x = k) = true := decide_eq_true hk.symm
    rw [hk, Function.update_self, lookup, ← hk, List.find?_cons, hpos, Option.map_some]
  · have hneg : decide (key x = k) = false := decide_eq_false fun h ↦ hk h.symm
    rw [Function.update_of_ne hk, lookup, List.find?_cons, hneg, lookup]

theorem lookup_concat (hnodup : (l.map key).Nodup) (hx : key x ∉ l.map key) :
    lookup key val (l ++ [x]) = Function.update (lookup key val l) (key x) (some (val x)) := by
  have hcons : ((x :: l).map key).Nodup := List.nodup_cons.2 ⟨hx, hnodup⟩
  rw [← lookup_cons, lookup_perm hcons (List.perm_append_singleton x l).symm]

/-- The removal of an element. -/
theorem lookup_eraseIdx (hnodup : (l.map key).Nodup) (hi : l[i]? = some x) :
    lookup key val (l.eraseIdx i) = Function.update (lookup key val l) (key x) none := by
  obtain ⟨hlt, rfl⟩ := List.getElem?_eq_some_iff.1 hi
  have hperm : l.Perm (l[i] :: l.eraseIdx i) := (List.getElem_cons_eraseIdx_perm hlt).symm
  have hcons := (hperm.map key).nodup_iff.1 hnodup
  rw [lookup_perm hnodup hperm, lookup_cons, Function.update_idem,
    Function.update_eq_self_iff.2 (Eq.symm (lookup_eq_none.2 (List.nodup_cons.1 hcons).1))]

omit [DecidableEq κ] in
theorem map_key_modify {f : α → α} (hf : ∀ x, key (f x) = key x) (l : List α) (i : Nat) :
    (l.modify i f).map key = l.map key := by
  induction l generalizing i with
  | nil => rw [List.modify_nil]
  | cons y l ih =>
    cases i with
    | zero => rw [List.modify_zero_cons, List.map_cons, List.map_cons, hf]
    | succ i => rw [List.modify_succ_cons, List.map_cons, List.map_cons, ih]

/-- The change of an element whose key stays. -/
theorem lookup_modify {f : α → α} (hf : ∀ x, key (f x) = key x) (hnodup : (l.map key).Nodup)
    (hi : l[i]? = some x) : lookup key val (l.modify i f) =
      Function.update (lookup key val l) (key x) (some (val (f x))) := by
  induction l generalizing i with
  | nil => cases hi
  | cons y l ih =>
    obtain ⟨hy, hnodup⟩ := List.nodup_cons.1 hnodup
    cases i with
    | zero =>
      cases hi
      rw [List.modify_zero_cons, lookup_cons, lookup_cons, hf, Function.update_idem]
    | succ i =>
      rw [List.getElem?_cons_succ] at hi
      have hne : key x ≠ key y := fun h ↦
        hy (h ▸ List.mem_map_of_mem (List.mem_of_getElem? hi))
      rw [List.modify_succ_cons, lookup_cons, lookup_cons, ih hnodup hi, Function.update_comm hne]

/-- The change of an element whose key and value stay. -/
theorem lookup_modify_of_eq {f : α → α} (hf : ∀ x, key (f x) = key x)
    (hval : ∀ x, val (f x) = val x) (l : List α) (i : Nat) :
    lookup key val (l.modify i f) = lookup key val l := by
  induction l generalizing i with
  | nil => rw [List.modify_nil]
  | cons y l ih =>
    cases i with
    | zero => rw [List.modify_zero_cons, lookup_cons, lookup_cons, hf, hval]
    | succ i => rw [List.modify_succ_cons, lookup_cons, lookup_cons, ih]

end Keyed
