import Hole.Text.Lines
import Hole.Text.Numeral

/-!
# The change mark

The value that every holder of the start-type lock sets in the service's key when it begins a change
and when it ends it (`bridge/src/disable_record/change_mark.rs`, `stamp.rs`). It is
`<n>:<pid>:<created>` while a holder changes the service and `<n>/<pid>:<created>/<seq>` at rest,
where `n` counts the transitions, modulo `2 ^ 64`, and `seq` the changes that the process has ended.

A value reads back as what was written: `holderOf` finds the holder of a change and none at rest,
and `leadingCount` finds the count.
-/

namespace Hole.Service

open Text

/-- `Stamp`: a process, by id and creation time. -/
structure Stamp where
  pid : UInt32
  created : UInt64
  deriving DecidableEq

/-- The decimal digits of a number. -/
def decimal (n : Nat) : List Char := Nat.toDigits 10 n

/-- `Stamp::encode`. -/
def Stamp.encode (p : Stamp) : List Char := decimal p.pid.toNat ++ ':' :: decimal p.created.toNat

/-- Nothing but digits, and some. -/
def allDigits (cs : List Char) : Bool := !cs.isEmpty && cs.all Char.isDigit

/-- `Stamp::decode`. -/
def Stamp.decode (text : List Char) : Option Stamp :=
  match splitOnce ':' text with
  | none => none
  | some (pid, created) =>
    if allDigits pid && allDigits created then
      (readUnsigned (2 ^ 32) pid).bind fun pid ↦
        (readUnsigned (2 ^ 64) created).map fun created ↦ ⟨.ofNat pid, .ofNat created⟩
    else none

/-- The character that ends a count. -/
def endsCount (c : Char) : Bool := c = ':' || c = '/'

/-- `leading_count`: the count, and the rest of the value from its separator on. -/
def leadingCount (value : List Char) : Option (UInt64 × List Char) :=
  (readUnsigned (2 ^ 64) (value.takeWhile (!endsCount ·))).map fun n ↦
    (.ofNat n, value.dropWhile (!endsCount ·))

/-- `counted`. -/
def counted (value : List Char) : UInt64 :=
  match leadingCount value with
  | some (count, _) => count
  | none => 0

/-- `holder_of`: only `<n>:<stamp>` names a holder. -/
def holderOf (value : List Char) : Option Stamp :=
  match leadingCount value with
  | some (_, ':' :: rest) => Stamp.decode rest
  | _ => none

/-- The value of transition `n` while `holder` changes the service. -/
def begun (n : UInt64) (holder : Stamp) : List Char := decimal n.toNat ++ ':' :: holder.encode

/-- `at_rest`. -/
def atRest (count : UInt64) (holder : Stamp) (seq : UInt64) : List Char :=
  decimal count.toNat ++ '/' :: (holder.encode ++ '/' :: decimal seq.toNat)

/-! ### Reading back -/

variable {c : Char}

theorem not_mem_decimal (hc : ∀ d < 16, c ≠ Nat.digitChar d) (n : Nat) : c ∉ decimal n :=
  not_mem_toDigits (by decide) (by decide) hc

theorem ne_colon_of_mem_decimal {n : Nat} (hc : c ∈ decimal n) : c ≠ ':' := by
  rintro rfl
  exact not_mem_decimal (by decide) n hc

theorem ne_slash_of_mem_decimal {n : Nat} (hc : c ∈ decimal n) : c ≠ '/' := by
  rintro rfl
  exact not_mem_decimal (by decide) n hc

theorem not_endsCount_of_mem_decimal {n : Nat} (hc : c ∈ decimal n) : (!endsCount c) = true := by
  simp [endsCount, ne_colon_of_mem_decimal hc, ne_slash_of_mem_decimal hc]

theorem allDigits_decimal (n : Nat) : allDigits (decimal n) = true := by
  have hne : decimal n ≠ [] := Nat.toDigits_ne_nil
  have hall : ∀ c ∈ decimal n, c.isDigit = true := by
    intro c hc
    obtain ⟨d, hd, rfl⟩ := mem_toDigits (by decide) hc
    have hdigit : ∀ d < 10, (Nat.digitChar d).isDigit = true := by decide
    exact hdigit d hd
  simpa [allDigits, hne] using hall

/-- A stamp reads back. -/
theorem decode_encode (p : Stamp) : Stamp.decode p.encode = some p := by
  have hsplit : splitOnce ':' p.encode = some (decimal p.pid.toNat, decimal p.created.toNat) :=
    splitOnce_append (not_mem_decimal (by decide) _) _
  have hread : readUnsigned (2 ^ 32) (decimal p.pid.toNat) = some p.pid.toNat :=
    readUnsigned_toDigits p.pid.toNat_lt
  have hread' : readUnsigned (2 ^ 64) (decimal p.created.toNat) = some p.created.toNat :=
    readUnsigned_toDigits p.created.toNat_lt
  simp only [Stamp.decode, hsplit, allDigits_decimal, Bool.and_self, if_true, hread, hread']
  simp

/-- A count reads back, whichever separator ends it. -/
theorem leadingCount_decimal (n : UInt64) (hc : endsCount c = true) (rest : List Char) :
    leadingCount (decimal n.toNat ++ c :: rest) = some (n, c :: rest) := by
  have hdigits : ∀ d ∈ decimal n.toNat, (!endsCount d) = true := fun d hd ↦
    not_endsCount_of_mem_decimal hd
  have hread : readUnsigned (2 ^ 64) (decimal n.toNat) = some n.toNat :=
    readUnsigned_toDigits n.toNat_lt
  have htake : (decimal n.toNat ++ c :: rest).takeWhile (!endsCount ·) = decimal n.toNat := by
    simp [List.takeWhile_append_of_pos hdigits, hc]
  have hdrop : (decimal n.toNat ++ c :: rest).dropWhile (!endsCount ·) = c :: rest := by
    simp [List.dropWhile_append_of_pos hdigits, hc]
  rw [leadingCount, htake, hdrop, hread, Option.map_some, UInt64.ofNat_toNat]

theorem leadingCount_begun (n : UInt64) (p : Stamp) :
    leadingCount (begun n p) = some (n, ':' :: p.encode) :=
  leadingCount_decimal n rfl _

theorem leadingCount_atRest (n : UInt64) (p : Stamp) (seq : UInt64) :
    leadingCount (atRest n p seq) = some (n, '/' :: (p.encode ++ '/' :: decimal seq.toNat)) :=
  leadingCount_decimal n rfl _

/-- The value of a change names its holder. -/
theorem holderOf_begun (n : UInt64) (p : Stamp) : holderOf (begun n p) = some p := by
  rw [holderOf, leadingCount_begun]
  exact decode_encode p

/-- The value at rest names none. -/
theorem holderOf_atRest (n : UInt64) (p : Stamp) (seq : UInt64) :
    holderOf (atRest n p seq) = none := by
  rw [holderOf, leadingCount_atRest]
  rfl

@[simp] theorem counted_begun (n : UInt64) (p : Stamp) : counted (begun n p) = n := by
  rw [counted, leadingCount_begun]

@[simp] theorem counted_atRest (n : UInt64) (p : Stamp) (seq : UInt64) :
    counted (atRest n p seq) = n := by
  rw [counted, leadingCount_atRest]

end Hole.Service
