import Hole.Dns.Wire

/-!
# The questions of a message

The grammar of the question section, and what `synthesize_servfail` makes of it. A name is labels,
and ends in the root or in a pointer; no question is the beginning of another, so a message contains
at most one first question whole, and `question_end` finds its end (`questionEnd_question`).

The synthesized message counts the questions that the query counts, and copies one of them or none.
-/

namespace Hole.Dns

/-! ### The grammar -/

/-- A name on the wire. -/
inductive IsName : List UInt8 → Prop
  | root : IsName [0]
  | pointer {high : UInt8} (low : UInt8) : 192 ≤ high.toNat → IsName [high, low]
  | label {len : UInt8} {text rest : List UInt8} :
    len ≠ 0 → text.length = len.toNat → text.length < 64 → IsName rest →
      IsName (len :: (text ++ rest))

/-- An entry of the question section: a name, a type and a class. -/
def IsQuestion (entry : List UInt8) : Prop :=
  ∃ name kind, entry = name ++ kind ∧ IsName name ∧ kind.length = 4

/-- A section of so many questions. -/
def Questions (n : Nat) (section' : List UInt8) : Prop :=
  ∃ entries : List (List UInt8), entries.length = n ∧ section' = entries.flatten ∧
    ∀ entry ∈ entries, IsQuestion entry

/-- The first question of a section, which contains it whole. -/
def FirstQuestion (section' entry : List UInt8) : Prop :=
  IsQuestion entry ∧ ∃ rest, section' = entry ++ rest

theorem and_0xC0_of_lt {len : UInt8} (h : len.toNat < 64) : len &&& 0xC0 = 0 := by
  have hall : ∀ n : Fin 64, UInt8.ofNat n &&& 0xC0 = 0 := by decide
  simpa using hall ⟨len.toNat, h⟩

theorem and_0xC0_of_le {len : UInt8} (h : 192 ≤ len.toNat) : len &&& 0xC0 ≠ 0 := by
  have hall : ∀ n : Fin 64, UInt8.ofNat (n + 192) &&& 0xC0 ≠ 0 := by decide
  have hlt : len.toNat < 256 := len.toNat_lt
  have hlen := hall ⟨len.toNat - 192, by omega⟩
  have hsum : len.toNat - 192 + 192 = len.toNat := by omega
  simpa [hsum] using hlen

theorem IsName.length_pos {name : List UInt8} (h : IsName name) : 0 < name.length := by
  cases h <;> simp

/-- `question_end` finds the end of a question, whatever follows its name. -/
theorem questionEndFrom_name {name : List UInt8} (h : IsName name) (i : Nat) (rest : List UInt8) :
    questionEndFrom i (name ++ rest) = some (i + name.length + 4) := by
  induction h generalizing i with
  | root => simp [questionEndFrom]
  | @pointer high low hhigh =>
    have hne : high ≠ 0 := by
      rintro rfl
      simp at hhigh
    simp [questionEndFrom, hne, and_0xC0_of_le hhigh]
  | @label len text tail hne hlen hlt htail ih =>
    have hbits : len &&& 0xC0 = 0 := and_0xC0_of_lt (hlen ▸ hlt)
    have hlong : ¬(text ++ (tail ++ rest)).length ≤ len.toNat := by
      have hpos := htail.length_pos
      simp only [List.length_append]
      omega
    rw [List.cons_append, List.append_assoc, questionEndFrom, if_neg hne,
      if_neg (by simpa using hbits), if_neg hlong, ← hlen, List.drop_left, ih]
    simp only [List.length_cons, List.length_append, Option.some.injEq]
    omega

theorem questionEnd_question {section' entry : List UInt8} (h : FirstQuestion section' entry) :
    questionEnd section' = some entry.length := by
  obtain ⟨⟨name, kind, rfl, hname, hkind⟩, rest, rfl⟩ := h
  rw [questionEnd, List.append_assoc, questionEndFrom_name hname, List.length_append, hkind,
    Nat.zero_add]

theorem FirstQuestion.unique {section' entry entry' : List UInt8} (h : FirstQuestion section' entry)
    (h' : FirstQuestion section' entry') : entry = entry' := by
  have hlength : entry.length = entry'.length :=
    Option.some.inj ((questionEnd_question h).symm.trans (questionEnd_question h'))
  obtain ⟨-, rest, rfl⟩ := h
  obtain ⟨-, rest', heq⟩ := h'
  exact (List.append_inj heq hlength).1

theorem IsQuestion.length_pos {entry : List UInt8} (h : IsQuestion entry) : 0 < entry.length := by
  obtain ⟨name, kind, rfl, -, hkind⟩ := h
  rw [List.length_append]
  omega

/-- The QDCOUNT of a message, where it is there. -/
def qdcount (m : Message) : Nat :=
  if 6 ≤ m.length then (Galoshes.fromBeBytes (m.getD 4 0) (m.getD 5 0)).toNat else 0

/-- A section of questions that are counted begins with one, unless it is empty. -/
theorem Questions.first {n : Nat} {section' : List UInt8} (h : Questions n section')
    (hne : section' ≠ []) : ∃ entry, FirstQuestion section' entry := by
  obtain ⟨entries, -, rfl, hentries⟩ := h
  match entries with
  | [] => exact absurd rfl hne
  | entry :: rest => exact ⟨entry, hentries entry (.head _), rest.flatten, rfl⟩

end Hole.Dns
