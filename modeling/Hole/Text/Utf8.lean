import Mathlib.Data.List.Basic

/-!
# Bytes of a text

The UTF-8 bytes of a text. A character below `0x80` is one byte (`utf8EncodeChar_ascii`) that is in
the bytes of no other (`le_of_mem_utf8EncodeChar`), so what is found in a text by bytes is found by
characters.
-/

namespace Text

/-- The bytes of a text. -/
def utf8 (s : List Char) : List UInt8 := s.flatMap String.utf8EncodeChar

@[simp] theorem utf8_nil : utf8 [] = [] := rfl

@[simp] theorem utf8_cons (c : Char) (s : List Char) :
    utf8 (c :: s) = String.utf8EncodeChar c ++ utf8 s := rfl

/-- The bytes say which text they are of. -/
theorem utf8_injective : Function.Injective utf8 := by
  intro s t h
  have hencode : s.utf8Encode = t.utf8Encode := congrArg List.toByteArray h
  have hdecode := congrArg ByteArray.utf8Decode? hencode
  rw [List.utf8Decode?_utf8Encode, List.utf8Decode?_utf8Encode] at hdecode
  simpa using hdecode

/-- The text of bytes, empty if they are of none. -/
def fromUtf8 (b : List UInt8) : List Char := (b.toByteArray.utf8Decode?.map Array.toList).getD []

@[simp] theorem fromUtf8_utf8 (s : List Char) : fromUtf8 (utf8 s) = s := by
  have hencode : (utf8 s).toByteArray = s.utf8Encode := rfl
  rw [fromUtf8, hencode, List.utf8Decode?_utf8Encode]
  rfl

/-- The text of bytes, if they are of one. -/
def readUtf8 (bytes : List UInt8) : Option (List Char) :=
  bytes.toByteArray.utf8Decode?.map Array.toList

@[simp] theorem readUtf8_utf8 (s : List Char) : readUtf8 (utf8 s) = some s := by
  have hencode : (utf8 s).toByteArray = s.utf8Encode := rfl
  rw [readUtf8, hencode, List.utf8Decode?_utf8Encode]
  rfl

/-- The bytes of a text that is read are those that it is read of. -/
theorem utf8_of_readUtf8 {bytes : List UInt8} {s : List Char} (h : readUtf8 bytes = some s) :
    utf8 s = bytes := by
  obtain ⟨chars, hdecode, rfl⟩ := Option.map_eq_some_iff.1 h
  have hencode : chars.toList.utf8Encode = bytes.toByteArray := by
    have hget := ByteArray.utf8Encode_get_utf8Decode? (h := by rw [hdecode]; rfl)
    simpa [hdecode] using hget
  exact List.toByteArray_inj.1 hencode

/-- `to_ascii_lowercase`. -/
def toAsciiLowercase (s : List Char) : List Char := s.map fun c ↦ if c.isUpper then c.toLower else c

variable {c : Char}

/-- A character of one byte is that byte. -/
theorem utf8EncodeChar_ascii (hc : c.toNat < 0x80) :
    String.utf8EncodeChar c = [UInt8.ofNat c.toNat] := by
  have hle : c.val.toNat ≤ 0x7f := Nat.le_of_lt_succ hc
  simp only [String.utf8EncodeChar, if_pos hle]
  rfl

/-- The letters in upper case are those of ASCII. -/
theorem isUpper_iff : c.isUpper = true ↔ 65 ≤ c.toNat ∧ c.toNat ≤ 90 :=
  decide_eq_true_iff

theorem toLower_of_not_isUpper (h : c.isUpper = false) : c.toLower = c :=
  dif_neg fun hupper ↦ absurd (isUpper_iff.2 hupper) (by rw [h]; exact Bool.false_ne_true)

/-- A letter in upper case is `32` before the one in lower case. -/
theorem toNat_toLower (h : c.isUpper = true) : c.toLower.toNat = c.toNat + 32 := by
  obtain ⟨hlo, hhi⟩ := isUpper_iff.1 h
  have hval : c.toLower.val = c.val + 32 := congrArg Char.val (dif_pos ⟨hlo, hhi⟩)
  show c.toLower.val.toNat = c.toNat + 32
  rw [hval, UInt32.toNat_add]
  exact Nat.mod_eq_of_lt (by change c.toNat + 32 < _; omega)

theorem toNat_of_isUpper (h : c.isUpper = true) : c.toNat < 0x80 ∧ c.toLower.toNat < 0x80 := by
  have hc := isUpper_iff.1 h
  rw [toNat_toLower h]
  omega

theorem toLower_toLower (c : Char) : c.toLower.toLower = c.toLower := by
  rcases hupper : c.isUpper with - | -
  · rw [toLower_of_not_isUpper hupper, toLower_of_not_isUpper hupper]
  · have hc := isUpper_iff.1 hupper
    have hlower := toNat_toLower hupper
    refine toLower_of_not_isUpper (Bool.eq_false_iff.2 fun h ↦ ?_)
    have hle := (isUpper_iff.1 h).2
    omega

/-- A text is as many bytes in lower case. -/
theorem length_utf8_toAsciiLowercase (s : List Char) :
    (utf8 (toAsciiLowercase s)).length = (utf8 s).length := by
  induction s with
  | nil => rfl
  | cons c s ih =>
    have hc : (String.utf8EncodeChar (if c.isUpper then c.toLower else c)).length =
        (String.utf8EncodeChar c).length := by
      split
      · next hupper =>
        obtain ⟨hbefore, hafter⟩ := toNat_of_isUpper hupper
        rw [utf8EncodeChar_ascii hbefore, utf8EncodeChar_ascii hafter]
        rfl
      · rfl
    rw [toAsciiLowercase, List.map_cons, utf8_cons, utf8_cons, List.length_append,
      List.length_append, hc]
    exact congrArg _ ih

theorem le_ofNat {n : Nat} (hlo : 0x80 ≤ n) (hhi : n < 0x100) : 0x80 ≤ UInt8.ofNat n := by
  rw [UInt8.le_iff_toNat_le, UInt8.toNat_ofNat', Nat.mod_eq_of_lt hhi]
  exact hlo

/-- The bytes of any other are not those of one. -/
theorem le_of_mem_utf8EncodeChar (hc : 0x80 ≤ c.toNat) {b : UInt8}
    (hb : b ∈ String.utf8EncodeChar c) : 0x80 ≤ b := by
  have hle : ¬c.val.toNat ≤ 0x7f := Nat.not_le_of_gt hc
  simp only [String.utf8EncodeChar, if_neg hle] at hb
  split at hb
  · simp only [List.mem_cons, List.not_mem_nil, or_false] at hb
    obtain rfl | rfl := hb <;> exact le_ofNat (by omega) (by omega)
  · split at hb
    · simp only [List.mem_cons, List.not_mem_nil, or_false] at hb
      obtain rfl | rfl | rfl := hb <;> exact le_ofNat (by omega) (by omega)
    · simp only [List.mem_cons, List.not_mem_nil, or_false] at hb
      obtain rfl | rfl | rfl | rfl := hb <;> exact le_ofNat (by omega) (by omega)

/-- A byte below `0x80` is in the bytes of one character only. -/
theorem eq_of_mem_utf8EncodeChar {n : Nat} (hn : n < 0x80)
    (h : UInt8.ofNat n ∈ String.utf8EncodeChar c) : c.toNat = n := by
  have hnot : ¬0x80 ≤ UInt8.ofNat n := by
    rw [UInt8.le_iff_toNat_le, UInt8.toNat_ofNat', Nat.mod_eq_of_lt (by omega)]
    exact Nat.not_le_of_gt hn
  have hc : c.toNat < 0x80 := by
    by_contra hle
    exact hnot (le_of_mem_utf8EncodeChar (Nat.le_of_not_lt hle) h)
  rw [utf8EncodeChar_ascii hc, List.mem_singleton] at h
  have hnat := congrArg UInt8.toNat h
  rw [UInt8.toNat_ofNat', UInt8.toNat_ofNat', Nat.mod_eq_of_lt (by omega),
    Nat.mod_eq_of_lt (by omega)] at hnat
  exact hnat.symm

end Text
