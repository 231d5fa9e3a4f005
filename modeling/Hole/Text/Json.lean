import Hole.Text.Lines
import Hole.Text.Numeral
/-!
# JSON

A JSON text is read from its characters, with the depth that its containers may have. A record is
what a program writes one of on a line: an object of integers, texts and lists of texts.
`read_render` says that it reads back, whatever way its texts are escaped, so long as a text between
its quotes reads back (`Quotes`).

Numbers are kept as their tokens; only those of integers have a value here.
-/

namespace Text

/-- A JSON value. -/
inductive Json
  | null
  | bool (b : Bool)
  | number (token : List Char)
  | string (s : List Char)
  | array (items : List Json)
  | object (members : List (List Char × Json))

namespace Json

/-- White space. -/
def isSpace (c : Char) : Bool := c = ' ' || c = '\n' || c = '\r' || c = '\t'

def skipSpace (cs : List Char) : List Char := cs.dropWhile isSpace

/-! ### Texts -/

/-- A piece of a text: a character, or a UTF-16 unit that is escaped. -/
inductive Piece
  | char (c : Char)
  | unit (n : Nat)

/-- The character after a backslash. -/
def simpleEscape : Char → Option Char
  | '"' => some '"'
  | '\\' => some '\\'
  | '/' => some '/'
  | 'b' => some (Char.ofNat 8)
  | 'f' => some (Char.ofNat 12)
  | 'n' => some '\n'
  | 'r' => some '\r'
  | 't' => some '\t'
  | _ => none

/-- The pieces up to the closing quote, and what is after it. A control character is refused. -/
def pieces : List Char → Option (List Piece × List Char)
  | [] => none
  | '"' :: cs => some ([], cs)
  | '\\' :: 'u' :: a :: b :: c :: d :: cs => do
    let n ← readNat 16 ([a, b, c, d].map Char.toLower)
    let (ps, rest) ← pieces cs
    some (.unit n :: ps, rest)
  | '\\' :: e :: cs => do
    let c ← simpleEscape e
    let (ps, rest) ← pieces cs
    some (.char c :: ps, rest)
  | c :: cs => do
    let (ps, rest) ← pieces cs
    if c.toNat < 0x20 then none else some (.char c :: ps, rest)

/-- The characters of pieces: a high surrogate comes with a low one. -/
def joinPieces : List Piece → Option (List Char)
  | [] => some []
  | .char c :: ps => (joinPieces ps).map (c :: ·)
  | .unit hi :: .unit lo :: ps =>
    if 0xd800 ≤ hi ∧ hi < 0xdc00 then
      if 0xdc00 ≤ lo ∧ lo < 0xe000 then
        (joinPieces ps).map (Char.ofNat (0x10000 + (hi - 0xd800) * 0x400 + (lo - 0xdc00)) :: ·)
      else none
    else if 0xdc00 ≤ hi ∧ hi < 0xe000 then none
    else (joinPieces (.unit lo :: ps)).map (Char.ofNat hi :: ·)
  | .unit n :: ps =>
    if 0xd800 ≤ n ∧ n < 0xe000 then none else (joinPieces ps).map (Char.ofNat n :: ·)

/-- A text after its opening quote. -/
def text (cs : List Char) : Option (List Char × List Char) := do
  let (ps, rest) ← pieces cs
  let s ← joinPieces ps
  some (s, rest)

/-! ### Numbers -/

/-- The integer part of a number: no digit comes after a leading zero. -/
def intPart (cs : List Char) : Option (List Char × List Char) :=
  let digits := cs.takeWhile Char.isDigit
  if digits = [] ∨ (digits.head? = some '0' ∧ digits ≠ ['0']) then none
  else some (digits, cs.dropWhile Char.isDigit)

def fraction : List Char → Option (List Char × List Char)
  | '.' :: cs =>
    let digits := cs.takeWhile Char.isDigit
    if digits = [] then none else some ('.' :: digits, cs.dropWhile Char.isDigit)
  | cs => some ([], cs)

/-- The sign of an exponent. -/
def sign : List Char → List Char × List Char
  | '+' :: cs => (['+'], cs)
  | '-' :: cs => (['-'], cs)
  | cs => ([], cs)

def exponent : List Char → Option (List Char × List Char)
  | 'e' :: cs | 'E' :: cs =>
    let (s, cs) := sign cs
    let digits := cs.takeWhile Char.isDigit
    if digits = [] then none else some ('e' :: s ++ digits, cs.dropWhile Char.isDigit)
  | cs => some ([], cs)

/-- The token of a number without its sign. -/
def magnitude (cs : List Char) : Option (List Char × List Char) := do
  let (i, cs) ← intPart cs
  let (f, cs) ← fraction cs
  let (e, cs) ← exponent cs
  some (i ++ f ++ e, cs)

/-- The token of a number. -/
def token : List Char → Option (List Char × List Char)
  | '-' :: cs => (magnitude cs).map fun x ↦ ('-' :: x.1, x.2)
  | cs => magnitude cs

/-- The value of a token that is an integer; `-0` is none. -/
def intOfToken : List Char → Option Int
  | '-' :: ds => ((readNat 10 ds).filter (· ≠ 0)).map fun n ↦ -(n : Int)
  | ds => (readNat 10 ds).map fun n ↦ (n : Int)

/-! ### Values -/

section Containers

variable (value : List Char → Option (Json × List Char))

/-- The items of an array up to its end, one at least. -/
def items : Nat → List Char → Option (List Json × List Char)
  | 0, _ => none
  | k + 1, cs => do
    let (v, cs) ← value cs
    match skipSpace cs with
    | ',' :: cs => do
      let (vs, cs) ← items k cs
      some (v :: vs, cs)
    | ']' :: cs => some ([v], cs)
    | _ => none

/-- The members of an object up to its end, one at least. -/
def members : Nat → List Char → Option (List (List Char × Json) × List Char)
  | 0, _ => none
  | k + 1, cs =>
    match skipSpace cs with
    | '"' :: cs => do
      let (key, cs) ← text cs
      match skipSpace cs with
      | ':' :: cs => do
        let (v, cs) ← value cs
        match skipSpace cs with
        | ',' :: cs => do
          let (ms, cs) ← members k cs
          some ((key, v) :: ms, cs)
        | '}' :: cs => some ([(key, v)], cs)
        | _ => none
      | _ => none
    | _ => none

end Containers

/-- A value, with containers as deep as `n`. -/
def value : Nat → List Char → Option (Json × List Char)
  | n, cs =>
    match skipSpace cs with
    | '"' :: cs => (text cs).map fun x ↦ (.string x.1, x.2)
    | 'n' :: 'u' :: 'l' :: 'l' :: cs => some (.null, cs)
    | 't' :: 'r' :: 'u' :: 'e' :: cs => some (.bool true, cs)
    | 'f' :: 'a' :: 'l' :: 's' :: 'e' :: cs => some (.bool false, cs)
    | '[' :: cs =>
      match n with
      | 0 => none
      | n + 1 =>
        match skipSpace cs with
        | ']' :: cs => some (.array [], cs)
        | _ => (items (value n) cs.length cs).map fun x ↦ (.array x.1, x.2)
    | '{' :: cs =>
      match n with
      | 0 => none
      | n + 1 =>
        match skipSpace cs with
        | '}' :: cs => some (.object [], cs)
        | _ => (members (value n) cs.length cs).map fun x ↦ (.object x.1, x.2)
    | cs => (token cs).map fun x ↦ (.number x.1, x.2)

/-- A whole text of JSON. -/
def parse (depth : Nat) (cs : List Char) : Option Json := do
  let (v, rest) ← value depth cs
  if skipSpace rest = [] then some v else none

/-! ### Writing a text -/

/-- A character that stands for itself between quotes. -/
def isPlain (c : Char) : Bool := c ≠ '"' && c ≠ '\\' && 0x20 ≤ c.toNat

/-- The characters that are the pieces, whatever comes after them. -/
def Spells (cs : List Char) (ps : List Piece) : Prop :=
  ∀ rest, pieces (cs ++ rest) = (pieces rest).map fun x ↦ (ps ++ x.1, x.2)

theorem Spells.nil : Spells [] [] := fun rest ↦ by
  rw [List.nil_append]
  exact Option.map_id'.symm

theorem Spells.append {cs cs' : List Char} {ps ps' : List Piece} (h : Spells cs ps)
    (h' : Spells cs' ps') : Spells (cs ++ cs') (ps ++ ps') := fun rest ↦ by
  rw [List.append_assoc, h, h', Option.map_map]
  simp only [Function.comp_def, List.append_assoc]

variable {c : Char}

theorem Spells.plain (h : isPlain c = true) : Spells [c] [.char c] := fun rest ↦ by
  simp only [isPlain, ne_eq, Bool.and_eq_true, decide_eq_true_eq] at h
  obtain ⟨⟨hquote, hslash⟩, hspace⟩ := h
  have hcontrol : ¬c.toNat < 0x20 := Nat.not_lt.2 hspace
  rw [List.singleton_append, pieces]
  · cases hrest : pieces rest <;> simp [hcontrol]
  · exact hquote
  · rintro a b c d cs rfl -
    exact hslash rfl
  · rintro e cs rfl -
    exact hslash rfl

theorem Spells.escape {e c : Char} (h : simpleEscape e = some c) :
    Spells ['\\', e] [.char c] := fun rest ↦ by
  have hpieces : pieces ('\\' :: e :: rest) =
      (pieces rest).bind fun x ↦ some (.char c :: x.1, x.2) := by
    unfold simpleEscape at h
    split at h
    case h_9 => cases h
    all_goals
      cases h
      rfl
  rw [List.cons_append, List.singleton_append, hpieces]
  cases pieces rest <;> rfl

theorem Spells.unit {a b c d : Char} {n : Nat}
    (h : readNat 16 ([a, b, c, d].map Char.toLower) = some n) :
    Spells ['\\', 'u', a, b, c, d] [.unit n] := fun rest ↦ by
  have hpieces : pieces ('\\' :: 'u' :: a :: b :: c :: d :: rest) =
      (readNat 16 ([a, b, c, d].map Char.toLower)).bind fun n ↦
        (pieces rest).bind fun x ↦ some (.unit n :: x.1, x.2) := rfl
  simp only [List.cons_append, List.nil_append]
  rw [hpieces, h]
  cases pieces rest <;> rfl

/-- The character of a piece, unless it is half of one. -/
def Piece.whole : Piece → Option Char
  | .char c => some c
  | .unit n => if 0xd800 ≤ n ∧ n < 0xe000 then none else some (Char.ofNat n)

theorem joinPieces_cons {p : Piece} (h : p.whole = some c) (ps : List Piece) :
    joinPieces (p :: ps) = (joinPieces ps).map (c :: ·) := by
  cases p with
  | char c' =>
    cases h
    rw [joinPieces]
  | unit n =>
    rw [Piece.whole] at h
    split at h
    · cases h
    · next hn =>
      cases h
      -- no unit that is whole is the first half of a character
      have hhi : ¬(0xd800 ≤ n ∧ n < 0xdc00) := by omega
      have hlo : ¬(0xdc00 ≤ n ∧ n < 0xe000) := by omega
      rcases ps with - | ⟨c' | m, ps⟩
      · simp [joinPieces, hn]
      · simp [joinPieces, hn]
      · rw [joinPieces, if_neg hhi, if_neg hlo]

/-- What is written for an item is read as its character, whatever comes after it. -/
def Writes (cs : List Char) (c : Char) : Prop := ∃ p, Spells cs [p] ∧ p.whole = some c

theorem Writes.plain (h : isPlain c = true) : Writes [c] c := ⟨.char c, .plain h, rfl⟩

theorem Writes.escape {e c : Char} (h : simpleEscape e = some c) : Writes ['\\', e] c :=
  ⟨.char c, .escape h, rfl⟩

/-- A UTF-16 unit, escaped. -/
def unitText (n : Nat) : List Char :=
  ['\\', 'u', (n / 4096 % 16).digitChar, (n / 256 % 16).digitChar, (n / 16 % 16).digitChar,
    (n % 16).digitChar]

/-- A character of the first plane is one unit. -/
theorem Writes.unit (h : c.toNat < 0x10000) : Writes (unitText c.toNat) c := by
  have hlower : ∀ d < 16, d.digitChar.toLower = d.digitChar := by decide
  have hdigit {d : Nat} (hd : d < 16) : readDigit 16 d.digitChar.toLower = some d := by
    rw [hlower d hd]
    exact readDigit_digitChar (by decide) hd
  have hvalid : c.toNat < 0xd800 ∨ 0xdfff < c.toNat ∧ c.toNat < 0x110000 := c.valid
  refine ⟨.unit c.toNat, .unit ?_, ?_⟩
  · simp only [List.map_cons, List.map_nil, readNat, List.foldlM_cons, List.foldlM_nil,
      hdigit (Nat.mod_lt _ (by decide : 0 < 16)),
      Option.map_some, Option.bind_eq_bind, Option.bind_some, Option.pure_def]
    exact congrArg some (by omega)
  · rw [Piece.whole, if_neg (by omega), Char.ofNat_toNat]

/-- A character between quotes: escaped for short where it can be, by its unit where `unit` says so,
or itself. -/
def writeChar (unit : Char → Bool) (c : Char) : List Char :=
  if c = '"' ∨ c = '\\' then ['\\', c]
  else if c = Char.ofNat 8 then ['\\', 'b']
  else if c = Char.ofNat 12 then ['\\', 'f']
  else if c = '\n' then ['\\', 'n']
  else if c = '\r' then ['\\', 'r']
  else if c = '\t' then ['\\', 't']
  else if c.toNat < 0x20 ∨ unit c = true then unitText c.toNat
  else [c]

theorem writes_writeChar {unit : Char → Bool} (hunit : ∀ c, unit c = true → c.toNat < 0x10000)
    (c : Char) : Writes (writeChar unit c) c := by
  unfold writeChar
  split
  · next h => rcases h with rfl | rfl <;> exact .escape rfl
  · next hquote =>
    split
    · next h => exact h ▸ .escape rfl
    · split
      · next h => exact h ▸ .escape rfl
      · split
        · next h => exact h ▸ .escape rfl
        · split
          · next h => exact h ▸ .escape rfl
          · split
            · next h => exact h ▸ .escape rfl
            · split
              · next h => exact .unit (h.elim (by omega) (hunit c))
              · next h =>
                rw [not_or] at hquote h
                exact .plain (by simp [isPlain, hquote.1, hquote.2, Nat.le_of_not_lt h.1])

theorem newline_not_mem_unitText (n : Nat) : '\n' ∉ unitText n := by
  have hall : ∀ d < 16, '\n' ≠ d.digitChar := by decide
  have hdigit (n : Nat) : '\n' ≠ (n % 16).digitChar := hall _ (Nat.mod_lt _ (by decide))
  simp [unitText, hdigit]

/-- What is written of a character is on one line. -/
theorem newline_not_mem_writeChar (unit : Char → Bool) (c : Char) : '\n' ∉ writeChar unit c := by
  unfold writeChar
  split
  · next h => rcases h with rfl | rfl <;> decide
  · split
    · decide
    · split
      · decide
      · split
        · decide
        · next hne =>
          split
          · decide
          · split
            · decide
            · split
              · exact newline_not_mem_unitText _
              · exact fun hmem ↦ hne (List.mem_singleton.1 hmem).symm

/-- A text that is written item by item reads back. -/
theorem text_flatMap {α : Type} {write : α → List Char} {char : α → Char}
    (h : ∀ a, Writes (write a) (char a)) (items : List α) (rest : List Char) :
    text (items.flatMap write ++ '"' :: rest) = some (items.map char, rest) := by
  have hspells : ∃ ps, Spells (items.flatMap write) ps ∧ joinPieces ps = some (items.map char) := by
    induction items with
    | nil => exact ⟨[], .nil, rfl⟩
    | cons a items ih =>
      obtain ⟨p, hp, hwhole⟩ := h a
      obtain ⟨ps, hps, hjoin⟩ := ih
      refine ⟨p :: ps, hp.append hps, ?_⟩
      rw [joinPieces_cons hwhole, hjoin]
      rfl
  obtain ⟨ps, hps, hjoin⟩ := hspells
  have hquote : pieces ('"' :: rest) = some ([], rest) := rfl
  rw [text, hps, hquote]
  simp [hjoin]

theorem text_plain {s : List Char} (h : ∀ c ∈ s, isPlain c = true) (rest : List Char) :
    text (s ++ '"' :: rest) = some (s, rest) := by
  have hwrite (c : { c : Char // isPlain c = true }) : Writes [c.1] c.1 :=
    ⟨.char c.1, .plain c.2, rfl⟩
  have hread := text_flatMap hwrite (s.attachWith _ h) rest
  rwa [← List.map_eq_flatMap, List.attachWith_map_subtype_val] at hread

/-- A way to write texts between quotes, and what they are read as. -/
structure Quotes (σ : Type) where
  /-- What is written. -/
  quote : σ → List Char
  /-- What is read. -/
  means : σ → List Char
  /-- The one is read as the other. -/
  text_quote : ∀ s rest, text (quote s ++ '"' :: rest) = some (means s, rest)

/-! ### Writing a record -/

/-- The decimal text of an integer. -/
def intText : Int → List Char
  | .ofNat n => Nat.toDigits 10 n
  | .negSucc n => '-' :: Nat.toDigits 10 (n + 1)

theorem intOfToken_intText (i : Int) : intOfToken (intText i) = some i := by
  cases i with
  | ofNat n =>
    have hminus : '-' ∉ Nat.toDigits 10 n := not_mem_toDigits (by decide) (by decide) (by decide)
    rw [intText, intOfToken, readNat_toDigits (by decide) (by decide)]
    · rfl
    · intro ds hds
      exact hminus (hds ▸ (.head _))
  | negSucc n =>
    rw [intText, intOfToken, readNat_toDigits (by decide) (by decide)]
    rfl

/-- What comes after a value in a container. -/
def closers : List Char := [',', ']', '}']

/-- A value is read off a text that goes on after it. -/
def Reads (value : List Char → Option (Json × List Char)) (cs : List Char) (v : Json) : Prop :=
  ∀ d ∈ closers, ∀ rest, value (cs ++ d :: rest) = some (v, d :: rest)

/-- The texts with a comma between each two. -/
def commas (css : List (List Char)) : List Char := [','].intercalate css

theorem commas_cons_cons (cs cs' : List Char) (css : List (List Char)) :
    commas (cs :: cs' :: css) = cs ++ ',' :: commas (cs' :: css) := by
  rw [commas, List.intercalate_cons_cons, List.append_assoc]
  rfl

theorem length_le_commas (css : List (List Char)) : css.length ≤ (commas css).length + 1 := by
  induction css with
  | nil => exact Nat.zero_le _
  | cons cs css ih =>
    cases css with
    | nil => exact Nat.le_add_left _ _
    | cons cs' css =>
      rw [commas_cons_cons, List.length_append, List.length_cons, List.length_cons]
      rw [List.length_cons] at ih ⊢
      omega

theorem length_le_texts {α : Type} (write : α → List Char) (xs : List α) (d : Char)
    (rest : List Char) : xs.length ≤ (commas (xs.map write) ++ d :: rest).length := by
  have hle := length_le_commas (xs.map write)
  rw [List.length_map] at hle
  rw [List.length_append, List.length_cons]
  omega

/-- The first character of the texts is that of the first. -/
theorem commas_cons (c : Char) (cs : List Char) (css : List (List Char)) :
    ∃ tail, commas ((c :: cs) :: css) = c :: tail := by
  cases css with
  | nil => exact ⟨cs, List.intercalate_singleton ..⟩
  | cons cs' css => exact ⟨_, commas_cons_cons ..⟩

theorem skipSpace_cons (h : isSpace c = false) (cs : List Char) :
    skipSpace (c :: cs) = c :: cs := List.dropWhile_cons_of_neg (by simp [h])

section Containers

variable {α : Type} {value : List Char → Option (Json × List Char)} (write : α → List Char)
  {json : α → Json}

theorem items_commas {xs : List α} (hne : xs ≠ []) (h : ∀ x, Reads value (write x) (json x))
    {k : Nat} (hk : xs.length ≤ k) (rest : List Char) :
    items value k (commas (xs.map write) ++ ']' :: rest) = some (xs.map json, rest) := by
  induction xs generalizing k with
  | nil => exact absurd rfl hne
  | cons x xs ih =>
    obtain ⟨k, rfl⟩ : ∃ k', k = k' + 1 := ⟨k - 1, by rw [List.length_cons] at hk; omega⟩
    cases xs with
    | nil =>
      have hcommas : commas [write x] = write x := List.intercalate_singleton ..
      simp only [List.map_cons, List.map_nil]
      rw [hcommas, items, h x _ (by decide)]
      rfl
    | cons y xs =>
      have hih := ih (List.cons_ne_nil _ _) (Nat.le_of_succ_le_succ hk)
      simp only [List.map_cons] at hih ⊢
      rw [commas_cons_cons, List.append_assoc, List.cons_append, items, h x _ (by decide)]
      simp only [Option.bind_eq_bind, Option.bind_some, skipSpace_cons (c := ',') rfl]
      rw [hih]
      rfl

/-- A member as it is written. -/
def memberText (key cs : List Char) : List Char := '"' :: (key ++ '"' :: ':' :: cs)

variable {key : α → List Char}

/-- One member up to the mark after it. -/
theorem members_member {x : α} (hkey : ∀ c ∈ key x, isPlain c = true)
    (h : Reads value (write x) (json x)) {d : Char} (hd : d ∈ closers) (k : Nat)
    (rest : List Char) :
    members value (k + 1) (memberText (key x) (write x) ++ d :: rest) =
      match skipSpace (d :: rest) with
      | ',' :: cs => (members value k cs).bind fun y ↦ some ((key x, json x) :: y.1, y.2)
      | '}' :: cs => some ([(key x, json x)], cs)
      | _ => none := by
  simp only [memberText, List.cons_append, List.append_assoc, members,
    skipSpace_cons (c := '"') rfl, text_plain hkey, Option.bind_eq_bind, Option.bind_some,
    skipSpace_cons (c := ':') rfl, h d hd]

theorem members_commas {xs : List α} (hne : xs ≠ [])
    (hkeys : ∀ x ∈ xs, ∀ c ∈ key x, isPlain c = true) (h : ∀ x, Reads value (write x) (json x))
    {k : Nat} (hk : xs.length ≤ k) (rest : List Char) :
    members value k (commas (xs.map fun x ↦ memberText (key x) (write x)) ++ '}' :: rest) =
      some (xs.map fun x ↦ (key x, json x), rest) := by
  induction xs generalizing k with
  | nil => exact absurd rfl hne
  | cons x xs ih =>
    obtain ⟨k, rfl⟩ : ∃ k', k = k' + 1 := ⟨k - 1, by rw [List.length_cons] at hk; omega⟩
    have hkey := hkeys x (.head _)
    cases xs with
    | nil =>
      have hcommas : commas [memberText (key x) (write x)] = memberText (key x) (write x) :=
        List.intercalate_singleton ..
      simp only [List.map_cons, List.map_nil]
      rw [hcommas, members_member write hkey (h x) (by decide)]
      rfl
    | cons y xs =>
      have hih := ih (List.cons_ne_nil _ _) (fun z hz ↦ hkeys z (.tail _ hz))
        (Nat.le_of_succ_le_succ hk)
      simp only [List.map_cons] at hih ⊢
      rw [commas_cons_cons, List.append_assoc, List.cons_append,
        members_member write hkey (h x) (by decide)]
      simp only [skipSpace_cons (c := ',') rfl]
      rw [hih]
      rfl

end Containers

theorem value_text (n : Nat) (cs : List Char) :
    value n ('"' :: cs) = (text cs).map fun x ↦ (.string x.1, x.2) := by
  cases n <;> rfl

theorem value_array {n : Nat} {c : Char} (hspace : isSpace c = false) (hclose : c ≠ ']')
    (cs : List Char) : value (n + 1) ('[' :: c :: cs) =
      (items (value n) (c :: cs).length (c :: cs)).map fun x ↦ (.array x.1, x.2) := by
  have hvalue : value (n + 1) ('[' :: c :: cs) =
      match skipSpace (c :: cs) with
      | ']' :: cs => some (.array [], cs)
      | _ => (items (value n) (c :: cs).length (c :: cs)).map fun x ↦ (.array x.1, x.2) := rfl
  rw [hvalue]
  simp only [skipSpace_cons hspace]
  split
  · next heq => exact absurd (List.cons.inj heq).1 hclose
  · rfl

theorem value_object {n : Nat} {c : Char} (hspace : isSpace c = false) (hclose : c ≠ '}')
    (cs : List Char) : value (n + 1) ('{' :: c :: cs) =
      (members (value n) (c :: cs).length (c :: cs)).map fun x ↦ (.object x.1, x.2) := by
  have hvalue : value (n + 1) ('{' :: c :: cs) =
      match skipSpace (c :: cs) with
      | '}' :: cs => some (.object [], cs)
      | _ => (members (value n) (c :: cs).length (c :: cs)).map fun x ↦ (.object x.1, x.2) := rfl
  rw [hvalue]
  simp only [skipSpace_cons hspace]
  split
  · next heq => exact absurd (List.cons.inj heq).1 hclose
  · rfl

/-- The first character of a number. -/
def startsNumber (c : Char) : Bool := c = '-' || c.isDigit

theorem value_number {n : Nat} (h : startsNumber c = true) (cs : List Char) :
    value n (c :: cs) = (token (c :: cs)).map fun x ↦ (.number x.1, x.2) := by
  have hspace : isSpace c = false := by
    by_contra hspace
    simp only [isSpace, Bool.not_eq_false, Bool.or_eq_true, decide_eq_true_eq] at hspace
    obtain ((rfl | rfl) | rfl) | rfl := hspace <;> cases h
  have hne {c' : Char} (hc' : startsNumber c' = false) : c ≠ c' := by
    rintro rfl
    rw [h] at hc'
    cases hc'
  rw [value, skipSpace_cons hspace]
  split
  case h_7 => rfl
  all_goals next heq => exact absurd (List.cons.inj heq).1 (hne rfl)

/-! ### Integers -/

theorem isDigit_of_mem_toDigits {n : Nat} (hc : c ∈ Nat.toDigits 10 n) : c.isDigit = true := by
  obtain ⟨d, hd, rfl⟩ := mem_toDigits (by decide) hc
  have hall : ∀ d < 10, d.digitChar.isDigit = true := by decide
  exact hall d hd

variable {d : Char}

theorem isDigit_of_mem_closers (h : d ∈ closers) : d.isDigit = false := by
  have hall : ∀ d ∈ closers, d.isDigit = false := forall_of_all (by decide)
  exact hall d h

theorem intPart_toDigits (n : Nat) (hd : d.isDigit = false) (rest : List Char) :
    intPart (Nat.toDigits 10 n ++ d :: rest) = some (Nat.toDigits 10 n, d :: rest) := by
  have hdigits : ∀ c ∈ Nat.toDigits 10 n, c.isDigit = true := fun _ ↦ isDigit_of_mem_toDigits
  have hstop : ¬d.isDigit = true := by simp [hd]
  have hled : ¬((Nat.toDigits 10 n).head? = some '0' ∧ Nat.toDigits 10 n ≠ ['0']) := by
    rintro ⟨hhead, hne⟩
    by_cases hn : n < 10
    · rw [Nat.toDigits_eq_if (by decide), if_pos hn] at hhead hne
      exact hne (congrArg (fun c ↦ [c]) (Option.some.inj hhead))
    · exact head?_toDigits (Nat.le_of_not_lt hn) hhead
  rw [intPart, List.takeWhile_append_of_pos hdigits, List.dropWhile_append_of_pos hdigits,
    List.takeWhile_cons_of_neg hstop, List.dropWhile_cons_of_neg hstop, List.append_nil,
    if_neg (not_or.2 ⟨Nat.toDigits_ne_nil, hled⟩)]

theorem magnitude_toDigits (n : Nat) (hd : d ∈ closers) (rest : List Char) :
    magnitude (Nat.toDigits 10 n ++ d :: rest) = some (Nat.toDigits 10 n, d :: rest) := by
  have hends : fraction (d :: rest) = some ([], d :: rest) ∧
      exponent (d :: rest) = some ([], d :: rest) := by
    simp only [closers, List.mem_cons, List.not_mem_nil, or_false] at hd
    obtain rfl | rfl | rfl := hd <;> exact ⟨rfl, rfl⟩
  rw [magnitude, intPart_toDigits n (isDigit_of_mem_closers hd)]
  simp [hends.1, hends.2]

theorem exists_toDigits_eq_cons (n : Nat) :
    ∃ c cs, Nat.toDigits 10 n = c :: cs ∧ c.isDigit = true := by
  obtain ⟨c, cs, hcons⟩ := List.exists_cons_of_ne_nil (Nat.toDigits_ne_nil (b := 10) (n := n))
  exact ⟨c, cs, hcons, isDigit_of_mem_toDigits (hcons ▸ List.mem_cons_self)⟩

theorem token_intText (i : Int) (hd : d ∈ closers) (rest : List Char) :
    token (intText i ++ d :: rest) = some (intText i, d :: rest) := by
  cases i with
  | ofNat n =>
    have hmagnitude := magnitude_toDigits n hd rest
    obtain ⟨c, cs, hcons, hdigit⟩ := exists_toDigits_eq_cons n
    simp only [intText, hcons, List.cons_append] at hmagnitude ⊢
    rw [token, hmagnitude]
    intro cs' hminus
    obtain ⟨rfl, -⟩ := List.cons.inj hminus
    cases hdigit
  | negSucc n =>
    rw [intText, List.cons_append, token, magnitude_toDigits _ hd]
    rfl

/-- An integer reads back. -/
theorem reads_int (n : Nat) (i : Int) : Reads (value n) (intText i) (.number (intText i)) := by
  intro d hd rest
  have hcons : ∃ c cs, intText i = c :: cs ∧ startsNumber c = true := by
    cases i with
    | ofNat k =>
      obtain ⟨c, cs, hcons, hdigit⟩ := exists_toDigits_eq_cons k
      exact ⟨c, cs, hcons, by simp [startsNumber, hdigit]⟩
    | negSucc k => exact ⟨_, _, rfl, rfl⟩
  have htoken := token_intText i hd rest
  obtain ⟨c, cs, hcons, hstart⟩ := hcons
  rw [hcons, List.cons_append] at htoken ⊢
  rw [value_number hstart, htoken]
  rfl

/-! ### Records -/

section Records

variable {σ : Type} (q : Quotes σ)

/-- A field of a record. -/
inductive Field (σ : Type)
  | int (i : Int)
  | text (s : σ)
  | texts (ss : List σ)

/-- A text between its quotes. -/
def quoted (s : σ) : List Char := '"' :: (q.quote s ++ ['"'])

namespace Field

/-- The field as it is written. -/
def render : Field σ → List Char
  | int i => intText i
  | text s => quoted q s
  | texts ss => '[' :: (commas (ss.map (quoted q)) ++ [']'])

/-- The field as it is read. -/
def json : Field σ → Json
  | int i => .number (intText i)
  | text s => .string (q.means s)
  | texts ss => .array (ss.map fun s ↦ .string (q.means s))

end Field

/-- A record on a line. -/
def render (fields : List (List Char × Field σ)) : List Char :=
  '{' :: (commas (fields.map fun m ↦ memberText m.1 (m.2.render q)) ++ ['}'])

theorem reads_text (n : Nat) (s : σ) : Reads (value n) (quoted q s) (.string (q.means s)) := by
  intro d _ rest
  rw [quoted, List.cons_append, value_text, List.append_assoc, List.singleton_append, q.text_quote]
  rfl

theorem Field.reads (n : Nat) (f : Field σ) : Reads (value (n + 1)) (f.render q) (f.json q) := by
  cases f with
  | int i => exact reads_int _ i
  | text s => exact reads_text q _ s
  | texts ss =>
    intro d _ rest
    rw [render, List.cons_append, List.append_assoc, List.singleton_append]
    cases ss with
    | nil =>
      rw [value, skipSpace_cons rfl]
      rfl
    | cons s ss =>
      have hitems := items_commas (quoted q) (List.cons_ne_nil s ss) (reads_text q n)
        (length_le_texts (quoted q) _ ']' (d :: rest)) (d :: rest)
      obtain ⟨tail, htail⟩ := commas_cons '"' (q.quote s ++ ['"']) (ss.map (quoted q))
      have hcommas : commas ((s :: ss).map (quoted q)) = '"' :: tail := htail
      rw [hcommas, List.cons_append] at hitems ⊢
      rw [value_array rfl (by decide), hitems]
      rfl

/-- **A record reads back**, whatever way its texts are quoted. -/
theorem read_render {fields : List (List Char × Field σ)} (hne : fields ≠ [])
    (hkeys : ∀ m ∈ fields, ∀ c ∈ m.1, isPlain c = true) (depth : Nat) :
    parse (depth + 2) (render q fields) =
      some (.object (fields.map fun m ↦ (m.1, m.2.json q))) := by
  have hmembers := members_commas (fun m : List Char × Field σ ↦ m.2.render q) hne hkeys
    (fun m ↦ m.2.reads q depth)
    (length_le_texts (fun m ↦ memberText m.1 (m.2.render q)) _ '}' []) []
  obtain ⟨⟨key, field⟩, fields, rfl⟩ := List.exists_cons_of_ne_nil hne
  obtain ⟨tail, htail⟩ := commas_cons '"' (key ++ '"' :: ':' :: field.render q)
    (fields.map fun m ↦ memberText m.1 (m.2.render q))
  have hcommas : commas (((key, field) :: fields).map fun m ↦ memberText m.1 (m.2.render q)) =
    '"' :: tail := htail
  rw [hcommas, List.cons_append] at hmembers
  rw [parse, render, hcommas, List.cons_append, value_object rfl (by decide), hmembers]
  rfl

theorem newline_not_mem_intText (i : Int) : '\n' ∉ intText i := by
  have hdigits (n : Nat) : '\n' ∉ Nat.toDigits 10 n :=
    not_mem_toDigits (by decide) (by decide) (by decide)
  cases i with
  | ofNat n => exact hdigits n
  | negSucc n => simp [intText, hdigits]

/-- **A record is on one line**, if its texts are. -/
theorem newline_not_mem_render {fields : List (List Char × Field σ)}
    (hq : ∀ s, '\n' ∉ q.quote s) (hkeys : ∀ m ∈ fields, ∀ c ∈ m.1, isPlain c = true) :
    '\n' ∉ render q fields := by
  have hquoted (s : σ) : '\n' ∉ quoted q s := by simp [quoted, hq s]
  have hfield (f : Field σ) : '\n' ∉ f.render q := by
    cases f with
    | int i => exact newline_not_mem_intText i
    | text s => exact hquoted s
    | texts ss =>
      have hjoin : '\n' ∉ commas (ss.map (quoted q)) := by
        refine not_mem_join (by decide) fun l hl ↦ ?_
        obtain ⟨s, -, rfl⟩ := List.mem_map.1 hl
        exact hquoted s
      simp [Field.render, hjoin]
  have hjoin : '\n' ∉ commas (fields.map fun m ↦ memberText m.1 (m.2.render q)) := by
    refine not_mem_join (by decide) fun l hl ↦ ?_
    obtain ⟨m, hm, rfl⟩ := List.mem_map.1 hl
    have hkey : '\n' ∉ m.1 := fun hmem ↦ absurd (hkeys m hm _ hmem) (by decide)
    simp [memberText, hkey, hfield m.2]
  simp [render, hjoin]

end Records

end Json

end Text
