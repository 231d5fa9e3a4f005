import Hole.Text.Utf8

/-!
# Slices of a text

Where the bytes of a text can be cut. A byte that is not the first of its character is a
continuation (`Encoded`), so a cut in front of any other byte is a cut between characters
(`isCharBoundary_utf8`). Bytes that are a text but for the case of ASCII letters are a text
themselves (`exists_utf8_of_map`), and where they stand in a text they are a slice of it
(`exists_slice`).
-/

namespace Text

theorem utf8_append (s t : List Char) : utf8 (s ++ t) = utf8 s ++ utf8 t := List.flatMap_append

/-- What is before some bytes of a text is the beginning of the text. -/
theorem exists_append_of_utf8 {s t : List Char} {bs : List UInt8} (h : utf8 s ++ bs = utf8 t) :
    ∃ u, t = s ++ u ∧ utf8 u = bs := by
  have hencode : s.utf8Encode ++ bs.toByteArray = t.utf8Encode := by
    have happend : (utf8 s ++ bs).toByteArray = s.utf8Encode ++ bs.toByteArray :=
      List.toByteArray_append
    rw [← happend, h]
    rfl
  obtain ⟨u, rfl⟩ := List.isPrefix_of_utf8Encode_append_eq_utf8Encode _ hencode
  rw [utf8_append] at h
  exact ⟨u, rfl, (List.append_cancel_left h).symm⟩

/-! ### Cuts -/

/-- A byte that is not the first of its character. -/
def isContinuation (b : UInt8) : Bool := 0x80 ≤ b && b < 0xc0

/-- `is_char_boundary`. -/
def isCharBoundary (bs : List UInt8) (i : Nat) : Bool :=
  if i = 0 then true
  else
    match bs[i]? with
    | some b => !isContinuation b
    | none => i = bs.length

/-- The slice of a text from a cut on. Anywhere else it panics. -/
def sliceFrom (bs : List UInt8) (i : Nat) : Option (List UInt8) :=
  if isCharBoundary bs i then some (bs.drop i) else none

/-- The bytes of one character. -/
structure Encoded (bs : List UInt8) : Prop where
  starts : ∃ b rest, bs = b :: rest ∧ isContinuation b = false
  continues : ∀ b ∈ bs.tail, isContinuation b = true

theorem isContinuation_ofNat {n : Nat} (h : n < 0x100) :
    isContinuation (UInt8.ofNat n) = true ↔ 0x80 ≤ n ∧ n < 0xc0 := by
  simp only [isContinuation, Bool.and_eq_true, decide_eq_true_eq, UInt8.le_iff_toNat_le,
    UInt8.lt_iff_toNat_lt, UInt8.toNat_ofNat', Nat.mod_eq_of_lt h]
  rfl

theorem encoded_utf8EncodeChar (c : Char) : Encoded (String.utf8EncodeChar c) := by
  have hc : c.val.toNat < 0x110000 := by
    have hvalid : c.val.toNat < 0xd800 ∨ 0xdfff < c.val.toNat ∧ c.val.toNat < 0x110000 := c.valid
    omega
  have hstart {n : Nat} (hn : n < 0x100) (h : n < 0x80 ∨ 0xc0 ≤ n) :
      isContinuation (UInt8.ofNat n) = false := by
    rw [← Bool.not_eq_true, isContinuation_ofNat hn]
    omega
  have hrest {n : Nat} (h : 0x80 ≤ n ∧ n < 0xc0) : isContinuation (UInt8.ofNat n) = true :=
    (isContinuation_ofNat (by omega)).2 h
  unfold String.utf8EncodeChar
  dsimp only
  split
  · exact ⟨⟨_, _, rfl, hstart (by omega) (by omega)⟩, by simp⟩
  · split
    · refine ⟨⟨_, _, rfl, hstart (by omega) (by omega)⟩, ?_⟩
      simp only [List.tail_cons, List.mem_singleton, forall_eq]
      exact hrest (by omega)
    · split
      · refine ⟨⟨_, _, rfl, hstart (by omega) (by omega)⟩, ?_⟩
        simp only [List.tail_cons, List.mem_cons, List.not_mem_nil, or_false, forall_eq_or_imp,
          forall_eq]
        exact ⟨hrest (by omega), hrest (by omega)⟩
      · refine ⟨⟨_, _, rfl, hstart (by omega) (by omega)⟩, ?_⟩
        simp only [List.tail_cons, List.mem_cons, List.not_mem_nil, or_false, forall_eq_or_imp,
          forall_eq]
        exact ⟨hrest (by omega), hrest (by omega), hrest (by omega)⟩

theorem Encoded.length_pos {bs : List UInt8} (h : Encoded bs) : 0 < bs.length := by
  obtain ⟨b, rest, rfl, -⟩ := h.starts
  exact Nat.succ_pos _

theorem utf8_ne_nil {s : List Char} (h : s ≠ []) : utf8 s ≠ [] := by
  obtain ⟨c, s, rfl⟩ := List.exists_cons_of_ne_nil h
  rw [utf8_cons]
  exact List.append_ne_nil_of_left_ne_nil
    (List.ne_nil_of_length_pos (encoded_utf8EncodeChar c).length_pos) _

/-- Bytes can be cut in front of those of a text. -/
theorem isCharBoundary_append (bs : List UInt8) (s : List Char) :
    isCharBoundary (bs ++ utf8 s) bs.length = true := by
  rw [isCharBoundary]
  split
  · rfl
  · cases s with
    | nil => simp
    | cons c s =>
      obtain ⟨b, rest, hcons, hstart⟩ := (encoded_utf8EncodeChar c).starts
      simp [utf8_cons, hcons, hstart]

/-- **A text is cut between its characters.** -/
theorem isCharBoundary_utf8 {s : List Char} {i : Nat} :
    isCharBoundary (utf8 s) i = true ↔ ∃ a b, s = a ++ b ∧ (utf8 a).length = i := by
  constructor
  · intro h
    induction s generalizing i with
    | nil =>
      by_cases hi : i = 0
      · exact ⟨[], [], rfl, hi.symm⟩
      · simp [isCharBoundary, hi] at h
    | cons c s ih =>
      have hencoded := encoded_utf8EncodeChar c
      by_cases hi : i = 0
      · exact ⟨[], c :: s, rfl, hi.symm⟩
      · rw [isCharBoundary, if_neg hi, utf8_cons] at h
        by_cases hlt : i < (String.utf8EncodeChar c).length
        · -- the cut is inside the character
          rw [List.getElem?_append_left hlt, List.getElem?_eq_getElem hlt] at h
          have hmem : (String.utf8EncodeChar c)[i] ∈ (String.utf8EncodeChar c).tail := by
            obtain ⟨j, rfl⟩ := Nat.exists_eq_succ_of_ne_zero hi
            refine List.mem_iff_getElem.2 ⟨j, by rw [List.length_tail]; omega, ?_⟩
            rw [List.getElem_tail]
          simp [hencoded.continues _ hmem] at h
        · have hle := Nat.le_of_not_lt hlt
          obtain ⟨j, rfl⟩ := Nat.exists_eq_add_of_le hle
          have hboundary : isCharBoundary (utf8 s) j = true := by
            rw [isCharBoundary]
            split
            · rfl
            · rw [List.getElem?_append_right hle, Nat.add_sub_cancel_left, List.length_append] at h
              simpa using h
          obtain ⟨a, b, rfl, ha⟩ := ih hboundary
          exact ⟨c :: a, b, rfl, by rw [utf8_cons, List.length_append, ha]⟩
  · rintro ⟨a, b, rfl, rfl⟩
    rw [utf8_append]
    exact isCharBoundary_append _ _

/-- A cut of a text is one of its characters. -/
theorem exists_append_of_isCharBoundary {s : List Char} {bs rest : List UInt8}
    (h : utf8 s = bs ++ rest) (hcut : isCharBoundary (utf8 s) bs.length = true) :
    ∃ a b, s = a ++ b ∧ utf8 a = bs ∧ utf8 b = rest := by
  obtain ⟨a, b, rfl, ha⟩ := isCharBoundary_utf8.1 hcut
  rw [utf8_append] at h
  obtain ⟨hbs, hrest⟩ := List.append_inj h ha
  exact ⟨a, b, rfl, hbs, hrest⟩

/-! ### The case of letters -/

section Map

/-- What a map of bytes does that only changes the case of letters. -/
structure OnAscii (f : UInt8 → UInt8) : Prop where
  ascii : ∀ b, b < 0x80 → f b < 0x80
  other : ∀ b, 0x80 ≤ b → f b = b

variable {f : UInt8 → UInt8}

theorem OnAscii.lt_iff (hf : OnAscii f) {b : UInt8} : f b < 0x80 ↔ b < 0x80 := by
  refine ⟨fun h ↦ ?_, hf.ascii b⟩
  by_contra hle
  rw [hf.other b (UInt8.not_lt.1 hle)] at h
  exact hle h

/-- A byte that stands for another is that, unless both are of ASCII. -/
theorem OnAscii.eq_of_le (hf : OnAscii f) {b b' : UInt8} (h : f b = f b') (hb : 0x80 ≤ b') :
    b = b' := by
  have hle : 0x80 ≤ b := by
    rw [← UInt8.not_lt, ← hf.lt_iff, h, hf.lt_iff]
    exact UInt8.not_lt.2 hb
  rwa [hf.other b hle, hf.other b' hb] at h

theorem OnAscii.eq_of_map (hf : OnAscii f) {bs bs' : List UInt8} (hbs : ∀ b ∈ bs', 0x80 ≤ b)
    (h : bs.map f = bs'.map f) : bs = bs' := by
  induction bs' generalizing bs with
  | nil => exact List.map_eq_nil_iff.1 h
  | cons b' bs' ih =>
    obtain ⟨hb', hbs'⟩ := List.forall_mem_cons.1 hbs
    obtain ⟨b, bs, rfl, hb, hrest⟩ := List.map_eq_cons_iff.1 h
    rw [hf.eq_of_le hb hb', ih hbs' hrest]

theorem exists_utf8_of_lt {b : UInt8} (hb : b < 0x80) : ∃ c, String.utf8EncodeChar c = [b] := by
  have hlt : b.toNat < 0x80 := hb
  refine ⟨Char.ofNat b.toNat, ?_⟩
  have hvalid : b.toNat.isValidChar := .inl (by omega)
  have hnat : (Char.ofNat b.toNat).toNat = b.toNat := by
    rw [Char.ofNat, dif_pos hvalid]
    rfl
  rw [utf8EncodeChar_ascii (by omega), hnat, UInt8.ofNat_toNat]

/-- Bytes that are a text but for the case of letters are a text. -/
theorem exists_utf8_of_map (hf : OnAscii f) {l : List Char} {bs : List UInt8}
    (h : bs.map f = (utf8 l).map f) : ∃ s, utf8 s = bs := by
  induction l generalizing bs with
  | nil =>
    rw [utf8_nil, List.map_nil, List.map_eq_nil_iff] at h
    exact ⟨[], h.symm⟩
  | cons c l ih =>
    rw [utf8_cons, List.map_append] at h
    obtain ⟨b₁, b₂, rfl, h₁, h₂⟩ := List.map_eq_append_iff.1 h
    obtain ⟨s, rfl⟩ := ih h₂
    suffices ∃ c', String.utf8EncodeChar c' = b₁ by
      obtain ⟨c', rfl⟩ := this
      exact ⟨c' :: s, rfl⟩
    by_cases hc : c.toNat < 0x80
    · rw [utf8EncodeChar_ascii hc] at h₁
      obtain ⟨b, rfl, hb⟩ := List.map_eq_singleton_iff.1 h₁
      refine exists_utf8_of_lt (hf.lt_iff.1 ?_)
      rw [hb]
      refine hf.ascii _ (UInt8.lt_iff_toNat_lt.2 ?_)
      rw [UInt8.toNat_ofNat', Nat.mod_eq_of_lt (by omega)]
      exact hc
    · refine ⟨c, (hf.eq_of_map ?_ h₁).symm⟩
      exact fun b ↦ le_of_mem_utf8EncodeChar (Nat.le_of_not_lt hc)

/-- **Where bytes are a text but for the case of letters, there is a slice of the text they are
in.** -/
theorem exists_slice (hf : OnAscii f) {s l : List Char} {before bs after : List UInt8}
    (hl : l ≠ []) (hs : utf8 s = before ++ bs ++ after) (h : bs.map f = (utf8 l).map f) :
    ∃ a b c, s = a ++ b ++ c ∧ utf8 a = before ∧ utf8 b = bs ∧ utf8 c = after := by
  obtain ⟨b, rfl⟩ := exists_utf8_of_map hf h
  have hb : b ≠ [] := by
    rintro rfl
    exact utf8_ne_nil hl (List.map_eq_nil_iff.1 h.symm)
  obtain ⟨d, b, rfl⟩ := List.exists_cons_of_ne_nil hb
  have hcut : isCharBoundary (utf8 s) before.length = true := by
    obtain ⟨x, rest, hcons, hstart⟩ := (encoded_utf8EncodeChar d).starts
    rw [hs, isCharBoundary, utf8_cons, hcons]
    split
    · rfl
    · simp [hstart]
  rw [List.append_assoc] at hs
  obtain ⟨a, s', rfl, rfl, hs'⟩ := exists_append_of_isCharBoundary hs hcut
  obtain ⟨c, rfl, hc⟩ := exists_append_of_utf8 hs'.symm
  exact ⟨a, d :: b, c, by rw [List.append_assoc], rfl, rfl, hc⟩

end Map

theorem onAscii_id : OnAscii id := ⟨fun _ hb ↦ hb, fun _ _ ↦ rfl⟩

/-- Where the bytes of a text are in those of another, the one is in the other. -/
theorem exists_slice_utf8 {s l : List Char} {before after : List UInt8} (hl : l ≠ [])
    (hs : utf8 s = before ++ utf8 l ++ after) :
    ∃ a c, s = a ++ l ++ c ∧ utf8 a = before ∧ utf8 c = after := by
  obtain ⟨a, b, c, rfl, ha, hb, hc⟩ := exists_slice onAscii_id hl hs rfl
  obtain rfl := utf8_injective hb
  exact ⟨a, c, rfl, ha, hc⟩

end Text
