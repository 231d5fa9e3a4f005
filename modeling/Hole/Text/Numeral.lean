import Mathlib.Algebra.Group.Int.Defs
import Mathlib.Algebra.Group.Nat.Defs
import Mathlib.Data.List.Basic
import Mathlib.Data.Nat.Basic

/-!
# Numerals

Reading a positional numeral back. `readNat` accepts the digits of a base, most significant
first, and `readNat_toDigits` says that it inverts `Nat.toDigits`, for every base up to sixteen.
`readUnsigned` and `readInt64` are the decimal readers of bounded types.
-/

namespace Text

/-- The value of a digit character. -/
def readDigit (base : Nat) (c : Char) : Option Nat :=
  (List.range base).find? fun n ↦ n.digitChar = c

/-- The value of a nonempty string of digits. -/
def readNat (base : Nat) : List Char → Option Nat
  | [] => none
  | c :: cs => (c :: cs).foldlM (fun n d ↦ (readDigit base d).map (base * n + ·)) 0

theorem digitChar_inj {m n : Nat} (hm : m < 16) (hn : n < 16) (h : m.digitChar = n.digitChar) :
    m = n := by
  have hall : ∀ m < 16, ∀ n < 16, m.digitChar = n.digitChar → m = n := by decide
  exact hall m hm n hn h

theorem readDigit_digitChar {base n : Nat} (hbase : base ≤ 16) (hn : n < base) :
    readDigit base n.digitChar = some n := by
  rcases hfind : readDigit base n.digitChar with - | m
  · have hnone := List.find?_eq_none.1 hfind n (List.mem_range.2 hn)
    simp at hnone
  · have hm : m < base := List.mem_range.1 (List.mem_of_find?_eq_some hfind)
    have hchar : m.digitChar = n.digitChar := by simpa using List.find?_some hfind
    rw [digitChar_inj (by omega) (by omega) hchar]

theorem foldlM_toDigits {base : Nat} (hbase : 1 < base) (hle : base ≤ 16) (n : Nat) :
    (Nat.toDigits base n).foldlM (fun n d ↦ (readDigit base d).map (base * n + ·)) 0 =
      some n := by
  induction n using Nat.strongRecOn with
  | ind n ih =>
    rw [Nat.toDigits_eq_if hbase]
    split
    · next h => simp [readDigit_digitChar hle h]
    · next h =>
      have hdiv : n / base < n := Nat.div_lt_self (by omega) hbase
      have hmod : n % base < base := Nat.mod_lt _ (by omega)
      have hcast : base * (n / base) + n % base = n := Nat.div_add_mod n base
      simp [List.foldlM_append, ih _ hdiv, readDigit_digitChar hle hmod, hcast]

/-- **A numeral reads back as its number.** -/
theorem readNat_toDigits {base : Nat} (hbase : 1 < base) (hle : base ≤ 16) (n : Nat) :
    readNat base (Nat.toDigits base n) = some n := by
  have hfold := foldlM_toDigits hbase hle n
  rcases hdigits : Nat.toDigits base n with - | ⟨c, cs⟩
  · exact absurd hdigits Nat.toDigits_ne_nil
  · rwa [hdigits] at hfold

/-- A text without the plus sign that it may begin with. -/
def dropPlus : List Char → List Char
  | '+' :: rest => rest
  | cs => cs

/-- The value of a decimal numeral below a bound, which a plus sign may precede. -/
def readUnsigned (bound : Nat) (cs : List Char) : Option Nat :=
  (readNat 10 (dropPlus cs)).filter (· < bound)

/-- The value of a decimal numeral of 64 bits, which a sign may precede. -/
def readInt64 (cs : List Char) : Option Int :=
  let value : Option Int := match cs with
    | '-' :: rest => (readNat 10 rest).map fun n ↦ -(n : Int)
    | _ => (readNat 10 (dropPlus cs)).map fun n ↦ (n : Int)
  value.filter fun v ↦ -2 ^ 63 ≤ v ∧ v < 2 ^ 63

/-- The characters of a numeral are digits of the base. -/
theorem mem_toDigits {base : Nat} (hbase : 1 < base) {n : Nat} {c : Char}
    (hc : c ∈ Nat.toDigits base n) : ∃ d < base, c = d.digitChar := by
  induction n using Nat.strongRecOn with
  | ind n ih =>
    rw [Nat.toDigits_eq_if hbase] at hc
    split at hc
    · next h => exact ⟨n, h, List.mem_singleton.1 hc⟩
    · next h =>
      rcases List.mem_append.1 hc with hc | hc
      · exact ih _ (Nat.div_lt_self (by omega) hbase) hc
      · exact ⟨n % base, Nat.mod_lt _ (by omega), List.mem_singleton.1 hc⟩

/-- A separator that is no digit does not occur in a numeral. -/
theorem not_mem_toDigits {base n : Nat} (hbase : 1 < base) (hle : base ≤ 16) {c : Char}
    (hc : ∀ d < 16, c ≠ Nat.digitChar d) : c ∉ Nat.toDigits base n := by
  intro hmem
  obtain ⟨d, hd, rfl⟩ := mem_toDigits hbase hmem
  exact hc d (by omega) rfl

/-- A numeral of two digits or more has no leading zero. -/
theorem head?_toDigits {n : Nat} (hn : 10 ≤ n) : (Nat.toDigits 10 n).head? ≠ some '0' := by
  induction n using Nat.strongRecOn with
  | ind n ih =>
    rw [Nat.toDigits_eq_if (by decide), if_neg (by omega),
      List.head?_append_of_ne_nil _ Nat.toDigits_ne_nil]
    by_cases hlt : n / 10 < 10
    · have hdigit : ∀ d < 10, d ≠ 0 → d.digitChar ≠ '0' := by decide
      rw [Nat.toDigits_eq_if (by decide), if_pos hlt]
      simpa using hdigit (n / 10) hlt (by omega)
    · exact ih (n / 10) (by omega) (by omega)

theorem dropPlus_of_not_mem {cs : List Char} (h : '+' ∉ cs) : dropPlus cs = cs := by
  unfold dropPlus
  split
  · exact absurd (.head _) h
  · rfl

theorem readUnsigned_toDigits {bound n : Nat} (hn : n < bound) :
    readUnsigned bound (Nat.toDigits 10 n) = some n := by
  have hplus : '+' ∉ Nat.toDigits 10 n := not_mem_toDigits (by decide) (by decide) (by decide)
  rw [readUnsigned, dropPlus_of_not_mem hplus, readNat_toDigits (by decide) (by decide)]
  simp [hn]

end Text
