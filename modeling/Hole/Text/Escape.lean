import Mathlib.Data.List.Basic

/-!
# Escaped texts

Texts over any alphabet in which one symbol escapes the next. `spanEscaped` cuts a text at the first
symbol that stops it and is not escaped, and `unescape` drops the escapes. On top of that, lists of
options: a key, or a key and a value, separated by a mark (`options`). Whatever reads options can
be compared with this one reader, and a list of options that is read back is the one written
(`options_join`).

Symbols may be encoded by several symbols of another alphabet, if the marks have one each and no
other has one of them in its code. Reading commutes with such an encoding (`options_encode`).
-/

namespace Text

variable {α β : Type} [DecidableEq α] [DecidableEq β]

/-! ### Cutting a text -/

/-- The text before the first symbol that stops it and is not escaped, and the text from there on.
`none` if the text ends in an escape that escapes nothing first. -/
def spanEscaped (esc : α) (stop : α → Bool) : List α → Option (List α × List α)
  | [] => some ([], [])
  | a :: s =>
    if stop a then some ([], a :: s)
    else if a = esc then
      match s with
      | [] => none
      | b :: s => (spanEscaped esc stop s).map fun x ↦ (a :: b :: x.1, x.2)
    else (spanEscaped esc stop s).map fun x ↦ (a :: x.1, x.2)

/-- A text without its escapes. -/
def unescape (esc : α) : List α → Option (List α)
  | [] => some []
  | a :: s =>
    if a = esc then
      match s with
      | [] => none
      | b :: s => (unescape esc s).map (b :: ·)
    else (unescape esc s).map (a :: ·)

section Span

variable {esc : α} {stop stop' : α → Bool} {s p r : List α} {a b : α}

@[simp] theorem spanEscaped_nil : spanEscaped esc stop [] = some ([], []) := rfl

theorem spanEscaped_cons (a : α) (s : List α) : spanEscaped esc stop (a :: s) =
    if stop a then some ([], a :: s)
    else if a = esc then
      match s with
      | [] => none
      | b :: s => (spanEscaped esc stop s).map fun x ↦ (a :: b :: x.1, x.2)
    else (spanEscaped esc stop s).map fun x ↦ (a :: x.1, x.2) := by
  rw [spanEscaped.eq_def]

theorem spanEscaped_stop (h : stop a = true) :
    spanEscaped esc stop (a :: s) = some ([], a :: s) := by
  rw [spanEscaped_cons, if_pos h]

theorem spanEscaped_escape (h : stop esc = false) :
    spanEscaped esc stop (esc :: b :: s) =
      (spanEscaped esc stop s).map fun x ↦ (esc :: b :: x.1, x.2) := by
  rw [spanEscaped_cons, if_neg (by simp [h]), if_pos rfl]

theorem spanEscaped_dangling (h : stop esc = false) : spanEscaped esc stop [esc] = none := by
  rw [spanEscaped_cons, if_neg (by simp [h]), if_pos rfl]

theorem spanEscaped_plain (hstop : stop a = false) (hesc : a ≠ esc) :
    spanEscaped esc stop (a :: s) = (spanEscaped esc stop s).map fun x ↦ (a :: x.1, x.2) := by
  rw [spanEscaped_cons, if_neg (by simp [hstop]), if_neg hesc]

theorem unescape_nil : unescape esc [] = some [] := rfl

theorem unescape_cons (a : α) (s : List α) : unescape esc (a :: s) =
    if a = esc then
      match s with
      | [] => none
      | b :: s => (unescape esc s).map (b :: ·)
    else (unescape esc s).map (a :: ·) := by
  rw [unescape.eq_def]

theorem unescape_escape : unescape esc (esc :: b :: s) = (unescape esc s).map (b :: ·) := by
  rw [unescape_cons, if_pos rfl]

theorem unescape_plain (hesc : a ≠ esc) :
    unescape esc (a :: s) = (unescape esc s).map (a :: ·) := by
  rw [unescape_cons, if_neg hesc]

/-- The ways a text can begin. -/
theorem escaped_induction {P : List α → Prop} (esc : α) (nil : P []) (dangling : P [esc])
    (escape : ∀ b s, P s → P (esc :: b :: s)) (plain : ∀ a s, a ≠ esc → P s → P (a :: s)) :
    ∀ s, P s
  | [] => nil
  | [a] => if h : a = esc then h ▸ dangling else plain a [] h nil
  | a :: b :: s =>
    if h : a = esc then h ▸ escape b s (escaped_induction esc nil dangling escape plain s)
    else plain a (b :: s) h (escaped_induction esc nil dangling escape plain (b :: s))

/-- How a text was cut. -/
theorem spanEscaped_induction {P : List α → List α → List α → Prop} (hesc : stop esc = false)
    (nil : P [] [] []) (stopped : ∀ a s, stop a = true → P (a :: s) [] (a :: s))
    (escape : ∀ b s p r, P s p r → P (esc :: b :: s) (esc :: b :: p) r)
    (plain : ∀ a s p r, stop a = false → a ≠ esc → P s p r → P (a :: s) (a :: p) r)
    (h : spanEscaped esc stop s = some (p, r)) : P s p r := by
  induction s using escaped_induction esc generalizing p with
  | nil =>
    cases h
    exact nil
  | dangling =>
    rw [spanEscaped_dangling hesc] at h
    cases h
  | escape b s ih =>
    rw [spanEscaped_escape hesc] at h
    obtain ⟨⟨p', r'⟩, h', hx⟩ := Option.map_eq_some_iff.1 h
    cases hx
    exact escape b s p' _ (ih h')
  | plain a s ha ih =>
    cases hstop : stop a with
    | true =>
      rw [spanEscaped_stop hstop] at h
      cases h
      exact stopped a s hstop
    | false =>
      rw [spanEscaped_plain hstop ha] at h
      obtain ⟨⟨p', r'⟩, h', hx⟩ := Option.map_eq_some_iff.1 h
      cases hx
      exact plain a s p' _ hstop ha (ih h')

/-- The two parts make up the text, and the second begins with a symbol that stops it. -/
theorem spanEscaped_eq_some (hesc : stop esc = false) (h : spanEscaped esc stop s = some (p, r)) :
    s = p ++ r ∧ ∀ a t, r = a :: t → stop a = true := by
  refine spanEscaped_induction (P := fun s p r ↦ s = p ++ r ∧ ∀ a t, r = a :: t → stop a = true)
    hesc ⟨rfl, nofun⟩ (fun a s hstop ↦ ⟨rfl, fun a' t hat ↦ ?_⟩) (fun b s p r ih ↦ ?_)
    (fun a s p r _ _ ih ↦ ?_) h
  · cases hat
    exact hstop
  · exact ⟨congrArg (esc :: b :: ·) ih.1, ih.2⟩
  · exact ⟨congrArg (a :: ·) ih.1, ih.2⟩

/-- A text that nothing stops and that ends in no open escape. -/
def Whole (esc : α) (stop : α → Bool) (s : List α) : Prop := spanEscaped esc stop s = some (s, [])

theorem Whole.escape (hesc : stop esc = false) (h : Whole esc stop s) (b : α) :
    Whole esc stop (esc :: b :: s) := by
  rw [Whole, spanEscaped_escape hesc, h]
  rfl

theorem Whole.plain (hstop : stop a = false) (ha : a ≠ esc) (h : Whole esc stop s) :
    Whole esc stop (a :: s) := by
  rw [Whole, spanEscaped_plain hstop ha, h]
  rfl

/-- How a whole text is made up. -/
theorem Whole.induction {P : List α → Prop} (hesc : stop esc = false) (nil : P [])
    (escape : ∀ b s, P s → P (esc :: b :: s))
    (plain : ∀ a s, stop a = false → a ≠ esc → P s → P (a :: s)) (h : Whole esc stop s) : P s :=
  spanEscaped_induction (P := fun _ p r ↦ r = [] → P p) hesc (fun _ ↦ nil)
    (fun _ _ _ hnil ↦ nomatch hnil) (fun b _ p _ ih hr ↦ escape b p (ih hr))
    (fun a _ p _ hstop ha ih hr ↦ plain a p hstop ha (ih hr)) h rfl

/-- A whole text is cut where it ends. -/
theorem Whole.append (hesc : stop esc = false) (h : Whole esc stop s)
    (hr : ∀ a t, r = a :: t → stop a = true) : spanEscaped esc stop (s ++ r) = some (s, r) := by
  refine Whole.induction (P := fun s ↦ spanEscaped esc stop (s ++ r) = some (s, r)) hesc ?_
    (fun b s ih ↦ ?_) (fun a s hstop ha ih ↦ ?_) h
  · cases r with
    | nil => exact spanEscaped_nil
    | cons a t => exact spanEscaped_stop (hr a t rfl)
  · rw [List.cons_append, List.cons_append, spanEscaped_escape hesc, ih]
    rfl
  · rw [List.cons_append, spanEscaped_plain hstop ha, ih]
    rfl

/-- What is cut off is whole. -/
theorem whole_of_spanEscaped (hesc : stop esc = false) (h : spanEscaped esc stop s = some (p, r)) :
    Whole esc stop p :=
  spanEscaped_induction (P := fun _ p _ ↦ Whole esc stop p) hesc spanEscaped_nil
    (fun _ _ _ ↦ spanEscaped_nil) (fun b _ _ _ ih ↦ ih.escape hesc b)
    (fun _ _ _ _ hstop ha ih ↦ ih.plain hstop ha) h

/-- Cutting at fewer symbols: cut at more of them first, and go on where the cut was too early. -/
theorem spanEscaped_of_le (hesc : stop' esc = false) (hle : ∀ a, stop a = true → stop' a = true) :
    spanEscaped esc stop s =
      match spanEscaped esc stop' s with
      | none => none
      | some (p, []) => some (p, [])
      | some (p, a :: r) =>
        if stop a then some (p, a :: r)
        else (spanEscaped esc stop r).map fun x ↦ (p ++ a :: x.1, x.2) := by
  have hesc' : stop esc = false := by
    by_contra h
    rw [hle esc (Bool.not_eq_false _ ▸ h)] at hesc
    cases hesc
  induction s using escaped_induction esc with
  | nil => rw [spanEscaped_nil, spanEscaped_nil]
  | dangling => rw [spanEscaped_dangling hesc, spanEscaped_dangling hesc']
  | escape b s ih =>
    rw [spanEscaped_escape hesc, spanEscaped_escape hesc', ih]
    rcases spanEscaped esc stop' s with - | ⟨p, - | ⟨a, r⟩⟩
    · rfl
    · rfl
    · cases hstop : stop a with
      | true => simp [hstop]
      | false => simp [hstop, Function.comp_def]
  | plain a s ha ih =>
    cases hstop' : stop' a with
    | true =>
      rw [spanEscaped_stop hstop']
      dsimp only
      split
      · rename_i hstop
        rw [spanEscaped_stop hstop]
      · rename_i hstop
        rw [spanEscaped_plain (Bool.not_eq_true _ ▸ hstop) ha]
        rfl
    | false =>
      have hstop : stop a = false := by
        by_contra h
        rw [hle a (Bool.not_eq_false _ ▸ h)] at hstop'
        cases hstop'
      rw [spanEscaped_plain hstop' ha, spanEscaped_plain hstop ha, ih]
      rcases spanEscaped esc stop' s with - | ⟨p, - | ⟨a', r⟩⟩
      · rfl
      · rfl
      · cases hstop' : stop a' with
        | true => simp [hstop']
        | false => simp [hstop', Function.comp_def]

/-- A text that is whole for more stops is whole for fewer. -/
theorem Whole.of_le (hesc : stop' esc = false) (hle : ∀ a, stop a = true → stop' a = true)
    (h : Whole esc stop' s) : Whole esc stop s := by
  rw [Whole, spanEscaped_of_le hesc hle, h]

/-- A whole text has no open escape. -/
theorem exists_unescape (hesc : stop esc = false) (h : Whole esc stop s) :
    ∃ u, unescape esc s = some u ∧ (u = [] ↔ s = []) := by
  refine Whole.induction (P := fun s ↦ ∃ u, unescape esc s = some u ∧ (u = [] ↔ s = [])) hesc
    ⟨[], unescape_nil, Iff.rfl⟩ (fun b s ih ↦ ?_) (fun a s _ ha ih ↦ ?_) h
  · obtain ⟨u, hu, -⟩ := ih
    exact ⟨b :: u, by rw [unescape_escape, hu]; rfl, by simp⟩
  · obtain ⟨u, hu, -⟩ := ih
    exact ⟨a :: u, by rw [unescape_plain ha, hu]; rfl, by simp⟩

/-- Symbols that neither stop nor escape are kept. -/
theorem spanEscaped_append (hp : ∀ b ∈ p, b ≠ esc ∧ stop b = false) :
    spanEscaped esc stop (p ++ s) = (spanEscaped esc stop s).map fun x ↦ (p ++ x.1, x.2) := by
  induction p with
  | nil => simp
  | cons b p ih =>
    obtain ⟨⟨hesc, hstop⟩, hp⟩ := List.forall_mem_cons.1 hp
    rw [List.cons_append, spanEscaped_plain hstop hesc, ih hp, Option.map_map]
    rfl

theorem unescape_append (hp : ∀ b ∈ p, b ≠ esc) :
    unescape esc (p ++ s) = (unescape esc s).map (p ++ ·) := by
  induction p with
  | nil => simp
  | cons b p ih =>
    obtain ⟨hesc, hp⟩ := List.forall_mem_cons.1 hp
    rw [List.cons_append, unescape_plain hesc, ih hp, Option.map_map]
    rfl

/-- A text of such symbols is whole, and is its own unescaped text. -/
theorem whole_of_plain (hp : ∀ b ∈ p, b ≠ esc ∧ stop b = false) : Whole esc stop p := by
  have happend := spanEscaped_append (s := []) hp
  simpa [Whole] using happend

theorem unescape_of_plain (hp : ∀ b ∈ p, b ≠ esc) : unescape esc p = some p := by
  have happend := unescape_append (s := []) hp
  simpa [unescape_nil] using happend

end Span

/-! ### Options -/

/-- The marks of a list of options. -/
structure Marks (α : Type) where
  esc : α
  sep : α
  eq : α
  esc_ne_sep : esc ≠ sep
  esc_ne_eq : esc ≠ eq
  eq_ne_sep : eq ≠ sep

/-- An option as it is written: a key, and a value if there is one. -/
structure RawOption (α : Type) where
  key : List α
  value : Option (List α)

namespace Marks

variable (m : Marks α)

/-- The symbols that end a key. -/
def endsKey (a : α) : Bool := a = m.eq || a = m.sep

/-- The symbols that end a value. -/
def endsValue (a : α) : Bool := a = m.sep

/-- The text of an option. -/
def raw (o : RawOption α) : List α :=
  match o.value with
  | none => o.key
  | some value => o.key ++ m.eq :: value

/-- The text of a list of options. -/
def join (os : List (RawOption α)) : List α := [m.sep].intercalate (os.map m.raw)

/-- The first option of a text, and the text after it. No key may be empty. -/
def firstOption (s : List α) : Option (RawOption α × List α) :=
  match spanEscaped m.esc m.endsKey s with
  | none => none
  | some (key, r) =>
    if key = [] then none
    else
      match r with
      | [] => some (⟨key, none⟩, [])
      | a :: r =>
        if a = m.eq then
          (spanEscaped m.esc m.endsValue r).map fun x ↦ (⟨key, some x.1⟩, x.2)
        else some (⟨key, none⟩, a :: r)

/-- The options of a text, for a text no longer than the bound. -/
def readOptions : Nat → List α → Option (List (RawOption α))
  | _, [] => some []
  | 0, _ :: _ => none
  | n + 1, a :: s =>
    match firstOption m (a :: s) with
    | none => none
    | some (o, r) => (readOptions n r.tail).map (o :: ·)

/-- The options of a text. -/
def options (s : List α) : Option (List (RawOption α)) := m.readOptions s.length s

/-- An option that reads as it is written. -/
structure Fits (o : RawOption α) : Prop where
  nonempty : o.key ≠ []
  key : Whole m.esc m.endsKey o.key
  value : ∀ value, o.value = some value → Whole m.esc m.endsValue value

end Marks

section Options

variable {m : Marks α} {o : RawOption α} {os : List (RawOption α)} {s r key : List α} {n k : Nat}

theorem Marks.endsKey_iff (m : Marks α) {a : α} : m.endsKey a = true ↔ a = m.eq ∨ a = m.sep := by
  simp [Marks.endsKey]

theorem Marks.endsValue_iff (m : Marks α) {a : α} : m.endsValue a = true ↔ a = m.sep := by
  simp [Marks.endsValue]

theorem Marks.not_endsKey_esc (m : Marks α) : m.endsKey m.esc = false := by
  simp [Marks.endsKey, m.esc_ne_sep, m.esc_ne_eq]

theorem Marks.not_endsValue_esc (m : Marks α) : m.endsValue m.esc = false := by
  simp [Marks.endsValue, m.esc_ne_sep]

theorem Marks.endsKey_of_endsValue (m : Marks α) {a : α} (h : m.endsValue a = true) :
    m.endsKey a = true := by
  simp_all [Marks.endsKey, Marks.endsValue]

/-- What is left after a separator. -/
def Marks.Ends (m : Marks α) (r : List α) : Prop := r = [] ∨ ∃ t, r = m.sep :: t

theorem Marks.Ends.stops (hr : m.Ends r) : ∀ a t, r = a :: t → m.endsValue a = true := by
  intro a t hat
  obtain rfl | ⟨t', rfl⟩ := hr
  · cases hat
  · obtain ⟨rfl, -⟩ := List.cons.inj hat
    simp [Marks.endsValue]

theorem Marks.ends_of_stops (h : ∀ a t, r = a :: t → m.endsValue a = true) : m.Ends r := by
  cases r with
  | nil => exact .inl rfl
  | cons a t =>
    obtain rfl : a = m.sep := by simpa [Marks.endsValue] using h a t rfl
    exact .inr ⟨t, rfl⟩

@[simp] theorem readOptions_nil (n : Nat) : m.readOptions n [] = some [] := by
  rw [Marks.readOptions.eq_def]

/-- What follows the key of an option. -/
def RawOption.rest (m : Marks α) (o : RawOption α) : List α :=
  match o.value with
  | none => []
  | some value => m.eq :: value

omit [DecidableEq α] in
theorem Marks.raw_eq (m : Marks α) (o : RawOption α) : m.raw o = o.key ++ o.rest m := by
  obtain ⟨key, - | value⟩ := o
  · exact (List.append_nil key).symm
  · rfl

/-- The key of an option is cut off the text that begins with the option. -/
theorem Marks.Fits.span_key (ho : m.Fits o) (hr : m.Ends r) :
    spanEscaped m.esc m.endsKey (m.raw o ++ r) = some (o.key, o.rest m ++ r) := by
  rw [m.raw_eq, List.append_assoc]
  refine ho.key.append m.not_endsKey_esc fun a t hat ↦ ?_
  unfold RawOption.rest at hat
  split at hat
  · exact m.endsKey_of_endsValue (hr.stops a t hat)
  · obtain ⟨rfl, -⟩ := List.cons.inj hat
    simp [Marks.endsKey]

/-- The value of an option is cut off the text that begins with the value. -/
theorem Marks.Fits.span_value (ho : m.Fits o) (hr : m.Ends r) {value : List α}
    (hvalue : o.value = some value) :
    spanEscaped m.esc m.endsValue (value ++ r) = some (value, r) :=
  (ho.value value hvalue).append m.not_endsValue_esc hr.stops

/-- An option has no separator in it. -/
theorem Marks.Fits.whole_raw (ho : m.Fits o) : Whole m.esc m.endsValue (m.raw o) := by
  have hspan := ho.span_key (m := m) (.inl rfl)
  rw [List.append_nil, List.append_nil] at hspan
  obtain ⟨key, - | value⟩ := o
  · exact ho.key.of_le m.not_endsKey_esc fun _ ↦ m.endsKey_of_endsValue
  · have hvalue : Whole m.esc m.endsValue value := ho.value value rfl
    have hstop : m.endsValue m.eq = false := decide_eq_false m.eq_ne_sep
    unfold Whole at hvalue ⊢
    rw [spanEscaped_of_le m.not_endsKey_esc fun _ ↦ m.endsKey_of_endsValue, hspan]
    simp [RawOption.rest, hstop, hvalue, Marks.raw]

/-- An option is read off the text that begins with it. -/
theorem firstOption_raw (ho : m.Fits o) (hr : m.Ends r) :
    m.firstOption (m.raw o ++ r) = some (o, r) := by
  unfold Marks.firstOption
  rw [ho.span_key hr]
  obtain ⟨key, - | value⟩ := o
  · obtain rfl | ⟨t, rfl⟩ := hr
    · simp [RawOption.rest, ho.nonempty]
    · simp [RawOption.rest, ho.nonempty, m.eq_ne_sep.symm]
  · simp [RawOption.rest, ho.nonempty, ho.span_value hr rfl]

/-- What is read off a text is what it begins with. -/
theorem firstOption_eq_some (h : m.firstOption s = some (o, r)) :
    m.Fits o ∧ m.Ends r ∧ s = m.raw o ++ r := by
  unfold Marks.firstOption at h
  split at h
  · cases h
  · rename_i key r' hspan
    obtain ⟨rfl, hstops⟩ := spanEscaped_eq_some m.not_endsKey_esc hspan
    have hkey := whole_of_spanEscaped m.not_endsKey_esc hspan
    split at h
    · cases h
    · rename_i hne
      split at h
      · cases h
        exact ⟨⟨hne, hkey, nofun⟩, .inl rfl, rfl⟩
      · rename_i a t
        have ha := m.endsKey_iff.1 (hstops a t rfl)
        split at h
        · rename_i heq
          obtain ⟨⟨value, r'⟩, hvalue, hx⟩ := Option.map_eq_some_iff.1 h
          cases hx
          obtain ⟨rfl, hstops'⟩ := spanEscaped_eq_some m.not_endsValue_esc hvalue
          refine ⟨⟨hne, hkey, fun v hv ↦ ?_⟩, Marks.ends_of_stops hstops', ?_⟩
          · cases hv
            exact whole_of_spanEscaped m.not_endsValue_esc hvalue
          · simp [Marks.raw, heq]
        · rename_i heq
          cases h
          obtain rfl := ha.resolve_left heq
          exact ⟨⟨hne, hkey, nofun⟩, .inr ⟨t, rfl⟩, rfl⟩

/-- A text that begins with no option has no key first, or an open escape before the separator. -/
theorem firstOption_eq_none (hs : s ≠ []) (h : m.firstOption s = none) :
    spanEscaped m.esc m.endsValue s = none ∨ ∃ a t, s = a :: t ∧ m.endsKey a = true := by
  have hle (a : α) : m.endsValue a = true → m.endsKey a = true := m.endsKey_of_endsValue
  unfold Marks.firstOption at h
  split at h
  · rename_i hspan
    exact .inl (by rw [spanEscaped_of_le m.not_endsKey_esc hle, hspan])
  · rename_i key r hspan
    obtain ⟨rfl, hstops⟩ := spanEscaped_eq_some m.not_endsKey_esc hspan
    by_cases hkey : key = []
    · subst hkey
      obtain ⟨a, t, rfl⟩ := List.exists_cons_of_ne_nil hs
      exact .inr ⟨a, t, rfl, hstops a t rfl⟩
    · rw [if_neg hkey] at h
      split at h
      · cases h
      · rename_i a t
        split at h
        · rename_i heq
          have hvalue : spanEscaped m.esc m.endsValue t = none := Option.map_eq_none_iff.1 h
          refine .inl ?_
          rw [spanEscaped_of_le m.not_endsKey_esc hle, hspan]
          simp [heq, Marks.endsValue, m.eq_ne_sep]
          exact hvalue
        · cases h

theorem Marks.Fits.raw_ne_nil (ho : m.Fits o) : m.raw o ≠ [] := by
  unfold Marks.raw
  split
  · exact ho.nonempty
  · exact List.append_ne_nil_of_left_ne_nil ho.nonempty _

/-- The options of a text are its first option and those of the rest. -/
theorem readOptions_cons (hs : s ≠ []) (n : Nat) :
    m.readOptions (n + 1) s =
      match m.firstOption s with
      | none => none
      | some (o, r) => (m.readOptions n r.tail).map (o :: ·) := by
  cases s with
  | nil => exact absurd rfl hs
  | cons a s => rw [Marks.readOptions]

/-- What is read after an option is shorter. -/
theorem length_tail_le (ho : m.Fits o) (h : (m.raw o ++ r).length ≤ n + 1) : r.tail.length ≤ n := by
  have hpos := List.length_pos_of_ne_nil ho.raw_ne_nil
  rw [List.length_append] at h
  rw [List.length_tail]
  omega

/-- The bound does not matter, if it bounds the text. -/
theorem readOptions_bound (hn : s.length ≤ n) (hk : s.length ≤ k) :
    m.readOptions n s = m.readOptions k s := by
  induction n generalizing s k with
  | zero =>
    obtain rfl : s = [] := List.eq_nil_of_length_eq_zero (Nat.le_zero.1 hn)
    rw [readOptions_nil, readOptions_nil]
  | succ n ih =>
    by_cases hs : s = []
    · subst hs
      rw [readOptions_nil, readOptions_nil]
    · have hpos := List.length_pos_of_ne_nil hs
      obtain ⟨k, rfl⟩ : ∃ k', k = k' + 1 := Nat.exists_eq_succ_of_ne_zero (by omega)
      rw [readOptions_cons hs, readOptions_cons hs]
      cases hfirst : m.firstOption s with
      | none => rfl
      | some x =>
        obtain ⟨ho, -, rfl⟩ := firstOption_eq_some (o := x.1) (r := x.2) hfirst
        dsimp only
        rw [ih (length_tail_le ho hn) (length_tail_le ho hk)]

theorem readOptions_eq_options (hn : s.length ≤ n) : m.readOptions n s = m.options s :=
  readOptions_bound hn (Nat.le_refl _)

@[simp] theorem options_nil : m.options [] = some [] := readOptions_nil 0

/-- The options of a text are its first option and those of the rest. -/
theorem options_cons (hs : s ≠ []) :
    m.options s =
      match m.firstOption s with
      | none => none
      | some (o, r) => (m.options r.tail).map (o :: ·) := by
  have hpos := List.length_pos_of_ne_nil hs
  obtain ⟨n, hn⟩ := Nat.exists_eq_succ_of_ne_zero (Nat.pos_iff_ne_zero.1 hpos)
  rw [Marks.options, hn, readOptions_cons hs]
  cases hfirst : m.firstOption s with
  | none => rfl
  | some x =>
    obtain ⟨ho, -, rfl⟩ := firstOption_eq_some (o := x.1) (r := x.2) hfirst
    dsimp only
    rw [readOptions_eq_options (length_tail_le ho (Nat.le_of_eq hn))]

/-- A text is empty, begins with no option, or with one. -/
theorem options_induction {P : List α → Prop} (m : Marks α) (nil : P [])
    (none : ∀ s, s ≠ [] → m.firstOption s = none → P s)
    (cons : ∀ o r, m.Fits o → m.Ends r → P r.tail → P (m.raw o ++ r)) (s : List α) : P s := by
  induction hn : s.length using Nat.strongRecOn generalizing s with
  | ind n ih =>
    by_cases hs : s = []
    · exact hs ▸ nil
    · cases hfirst : m.firstOption s with
      | none => exact none s hs hfirst
      | some x =>
        obtain ⟨ho, hr, rfl⟩ := firstOption_eq_some (o := x.1) (r := x.2) hfirst
        refine cons x.1 x.2 ho hr (ih x.2.tail.length ?_ x.2.tail rfl)
        have hpos := List.length_pos_of_ne_nil ho.raw_ne_nil
        rw [List.length_append] at hn
        rw [List.length_tail]
        omega

/-- An option is read, and then the rest. -/
theorem options_raw (ho : m.Fits o) (hr : m.Ends r) :
    m.options (m.raw o ++ r) = (m.options r.tail).map (o :: ·) := by
  rw [options_cons (List.append_ne_nil_of_left_ne_nil ho.raw_ne_nil _), firstOption_raw ho hr]

omit [DecidableEq α] in
@[simp] theorem join_nil : m.join [] = [] := rfl

omit [DecidableEq α] in
@[simp] theorem join_singleton : m.join [o] = m.raw o := by simp [Marks.join]

omit [DecidableEq α] in
theorem join_cons (hos : os ≠ []) : m.join (o :: os) = m.raw o ++ m.sep :: m.join os := by
  cases os with
  | nil => exact absurd rfl hos
  | cons o' os => simp [Marks.join, List.intercalate_cons_cons]

/-- **Options that are written read back.** -/
theorem options_join (hos : ∀ o ∈ os, m.Fits o) : m.options (m.join os) = some os := by
  induction os with
  | nil => exact options_nil
  | cons o os ih =>
    obtain ⟨ho, hos⟩ := List.forall_mem_cons.1 hos
    by_cases hnil : os = []
    · subst hnil
      have hraw := options_raw (m := m) ho (.inl rfl)
      simpa using hraw
    · rw [join_cons hnil, options_raw ho (.inr ⟨_, rfl⟩), List.tail_cons, ih hos]
      rfl

/-- Only the empty text has no options. -/
theorem eq_nil_of_options (h : m.options s = some []) : s = [] := by
  by_contra hs
  rw [options_cons hs] at h
  split at h
  · cases h
  · obtain ⟨os, -, hcons⟩ := Option.map_eq_some_iff.1 h
    cases hcons

/-- **What reads as options was written as them**, up to a separator at the end. -/
theorem join_of_options (h : m.options s = some os) :
    (∀ o ∈ os, m.Fits o) ∧ (s = m.join os ∨ s = m.join os ++ [m.sep]) := by
  induction s using options_induction m generalizing os with
  | nil =>
    obtain rfl : [] = os := by simpa using h
    exact ⟨nofun, .inl rfl⟩
  | none s hs hfirst =>
    rw [options_cons hs, hfirst] at h
    cases h
  | cons o r ho hr ih =>
    rw [options_raw ho hr] at h
    obtain ⟨os', hos', rfl⟩ := Option.map_eq_some_iff.1 h
    obtain ⟨hfits, hjoin⟩ := ih hos'
    refine ⟨List.forall_mem_cons.2 ⟨ho, hfits⟩, ?_⟩
    obtain rfl | ⟨t, rfl⟩ := hr
    · obtain rfl : [] = os' := by simpa using hos'
      exact .inl (by simp)
    · rw [List.tail_cons] at hos' hjoin
      by_cases hnil : os' = []
      · subst hnil
        -- Nothing is left, so the separator was the last symbol.
        rw [eq_nil_of_options hos']
        exact .inr (by simp)
      · rw [join_cons hnil]
        exact hjoin.imp (fun ht ↦ by rw [ht]) fun ht ↦ by rw [ht]; simp

end Options

/-! ### Encodings -/

/-- An alphabet encoded by another: the marks have one symbol each, and no other symbol has one of
the other's marks in its code. -/
structure Encoding (m : Marks α) (m' : Marks β) where
  code : α → List β
  code_esc : code m.esc = [m'.esc]
  code_sep : code m.sep = [m'.sep]
  code_eq : code m.eq = [m'.eq]
  code_ne_nil : ∀ a, code a ≠ []
  code_plain : ∀ a, a ≠ m.esc → a ≠ m.sep → a ≠ m.eq →
    ∀ b ∈ code a, b ≠ m'.esc ∧ b ≠ m'.sep ∧ b ≠ m'.eq

namespace Encoding

variable {m : Marks α} {m' : Marks β} (E : Encoding m m')

/-- The code of a text. -/
def text (s : List α) : List β := s.flatMap E.code

/-- The code of an option. -/
def option (o : RawOption α) : RawOption β := ⟨E.text o.key, o.value.map E.text⟩

omit [DecidableEq α] [DecidableEq β] in
@[simp] theorem text_nil : E.text [] = [] := rfl

omit [DecidableEq α] [DecidableEq β] in
@[simp] theorem text_cons (a : α) (s : List α) : E.text (a :: s) = E.code a ++ E.text s := rfl

omit [DecidableEq α] [DecidableEq β] in
@[simp] theorem text_append (s t : List α) : E.text (s ++ t) = E.text s ++ E.text t :=
  List.flatMap_append

/-- The code's stops are the codes of the stops. -/
structure Stops (stop : α → Bool) (stop' : β → Bool) : Prop where
  esc : stop' m'.esc = false
  plain : ∀ b, b ≠ m'.sep → b ≠ m'.eq → stop' b = false
  of_true : ∀ a, stop a = true → ∃ b, E.code a = [b] ∧ stop' b = true
  of_false : ∀ a, stop a = false → a ≠ m.esc → ∀ b ∈ E.code a, b ≠ m'.esc ∧ stop' b = false

theorem stops_endsKey : E.Stops m.endsKey m'.endsKey where
  esc := m'.not_endsKey_esc
  plain b hsep heq := by simp [Marks.endsKey, hsep, heq]
  of_true a ha := by
    obtain rfl | rfl := m.endsKey_iff.1 ha
    · exact ⟨m'.eq, E.code_eq, by simp [Marks.endsKey]⟩
    · exact ⟨m'.sep, E.code_sep, by simp [Marks.endsKey]⟩
  of_false a ha hesc b hb := by
    obtain ⟨hneq, hnsep⟩ : a ≠ m.eq ∧ a ≠ m.sep := by simpa [Marks.endsKey] using ha
    obtain ⟨hbesc, hbsep, hbeq⟩ := E.code_plain a hesc hnsep hneq b hb
    exact ⟨hbesc, by simp [Marks.endsKey, hbsep, hbeq]⟩

theorem stops_endsValue : E.Stops m.endsValue m'.endsValue where
  esc := m'.not_endsValue_esc
  plain b hsep _ := by simp [Marks.endsValue, hsep]
  of_true a ha := by
    obtain rfl : a = m.sep := by simpa [Marks.endsValue] using ha
    exact ⟨m'.sep, E.code_sep, by simp [Marks.endsValue]⟩
  of_false a ha hesc b hb := by
    have hnsep : a ≠ m.sep := by simpa [Marks.endsValue] using ha
    by_cases heq : a = m.eq
    · subst heq
      rw [E.code_eq, List.mem_singleton] at hb
      subst hb
      exact ⟨m'.esc_ne_eq.symm, by simp [Marks.endsValue, m'.eq_ne_sep]⟩
    · obtain ⟨hbesc, hbsep, -⟩ := E.code_plain a hesc hnsep heq b hb
      exact ⟨hbesc, by simp [Marks.endsValue, hbsep]⟩

omit [DecidableEq β] in
/-- Only the first symbol of a code can be a mark. -/
theorem exists_code_eq_cons (a : α) :
    ∃ b bs, E.code a = b :: bs ∧ ∀ b' ∈ bs, b' ≠ m'.esc ∧ b' ≠ m'.sep ∧ b' ≠ m'.eq := by
  by_cases hesc : a = m.esc
  · exact ⟨m'.esc, [], hesc ▸ E.code_esc, nofun⟩
  by_cases hsep : a = m.sep
  · exact ⟨m'.sep, [], hsep ▸ E.code_sep, nofun⟩
  by_cases heq : a = m.eq
  · exact ⟨m'.eq, [], heq ▸ E.code_eq, nofun⟩
  obtain ⟨b, bs, hcode⟩ := List.exists_cons_of_ne_nil (E.code_ne_nil a)
  refine ⟨b, bs, hcode, fun b' hb' ↦ E.code_plain a hesc hsep heq b' ?_⟩
  rw [hcode]
  exact .tail _ hb'

end Encoding

section Encode

variable {m : Marks α} {m' : Marks β} {E : Encoding m m'} {stop : α → Bool} {stop' : β → Bool}

/-- Cutting commutes with the code. -/
theorem spanEscaped_encode (hstops : E.Stops stop stop') (hesc : stop m.esc = false) (s : List α) :
    spanEscaped m'.esc stop' (E.text s) =
      (spanEscaped m.esc stop s).map fun x ↦ (E.text x.1, E.text x.2) := by
  induction s using escaped_induction m.esc with
  | nil => simp
  | dangling => simp [E.code_esc, spanEscaped_dangling hesc, spanEscaped_dangling hstops.esc]
  | escape b s ih =>
    obtain ⟨c, cs, hcode, hcs⟩ := E.exists_code_eq_cons b
    have hplain : ∀ b ∈ cs, b ≠ m'.esc ∧ stop' b = false := fun b hb ↦
      ⟨(hcs b hb).1, hstops.plain b (hcs b hb).2.1 (hcs b hb).2.2⟩
    have htext : E.text (m.esc :: b :: s) = m'.esc :: c :: (cs ++ E.text s) := by
      simp [E.code_esc, hcode]
    rw [htext, spanEscaped_escape hstops.esc, spanEscaped_append hplain, ih,
      spanEscaped_escape hesc]
    simp [Function.comp_def, E.code_esc, hcode]
  | plain a s ha ih =>
    cases hstop : stop a with
    | true =>
      obtain ⟨b, hcode, hb⟩ := hstops.of_true a hstop
      rw [spanEscaped_stop hstop, Encoding.text_cons, hcode, List.singleton_append,
        spanEscaped_stop hb]
      simp [hcode]
    | false =>
      rw [spanEscaped_plain hstop ha, Encoding.text_cons,
        spanEscaped_append (hstops.of_false a hstop ha), ih, Option.map_map, Option.map_map]
      rfl

/-- Dropping escapes commutes with the code. -/
theorem unescape_encode (s : List α) :
    unescape m'.esc (E.text s) = (unescape m.esc s).map E.text := by
  induction s using escaped_induction m.esc with
  | nil => simp [unescape_nil]
  | dangling => simp [E.code_esc, unescape_cons]
  | escape b s ih =>
    obtain ⟨c, cs, hcode, hcs⟩ := E.exists_code_eq_cons b
    have htext : E.text (m.esc :: b :: s) = m'.esc :: c :: (cs ++ E.text s) := by
      simp [E.code_esc, hcode]
    rw [htext, unescape_escape, unescape_escape, unescape_append fun b hb ↦ (hcs b hb).1, ih]
    simp [Function.comp_def, hcode]
  | plain a s ha ih =>
    have hplain : ∀ b ∈ E.code a, b ≠ m'.esc := by
      intro b hb
      cases hstop : m.endsKey a with
      | true =>
        obtain ⟨b', hcode, hb'⟩ := E.stops_endsKey.of_true a hstop
        rw [hcode, List.mem_singleton] at hb
        rintro rfl
        subst hb
        rw [m'.not_endsKey_esc] at hb'
        cases hb'
      | false => exact (E.stops_endsKey.of_false a hstop ha b hb).1
    rw [Encoding.text_cons, unescape_append hplain, ih, unescape_plain ha]
    simp [Function.comp_def]

theorem firstOption_encode (s : List α) :
    m'.firstOption (E.text s) = (m.firstOption s).map fun x ↦ (E.option x.1, E.text x.2) := by
  have htext {t : List α} : E.text t = [] ↔ t = [] := by
    cases t <;> simp [E.code_ne_nil]
  unfold Marks.firstOption
  rw [spanEscaped_encode E.stops_endsKey m.not_endsKey_esc]
  cases hspan : spanEscaped m.esc m.endsKey s with
  | none => rfl
  | some x =>
    obtain ⟨key, r⟩ := x
    by_cases hkey : key = []
    · simp [hkey]
    · cases r with
      | nil => simp [hkey, htext, Encoding.option]
      | cons a r =>
        obtain ⟨-, hstops⟩ := spanEscaped_eq_some m.not_endsKey_esc hspan
        have ha := m.endsKey_iff.1 (hstops a r rfl)
        obtain rfl | rfl := ha
        · simp only [Option.map_some, Encoding.text_cons, E.code_eq, List.singleton_append, htext,
            hkey, if_false, if_true]
          rw [spanEscaped_encode E.stops_endsValue m.not_endsValue_esc, Option.map_map,
            Option.map_map]
          rfl
        · simp [hkey, htext, Encoding.option, E.code_sep, m.eq_ne_sep.symm, m'.eq_ne_sep.symm]

/-- **Reading options commutes with the code.** -/
theorem options_encode (s : List α) :
    m'.options (E.text s) = (m.options s).map (·.map E.option) := by
  have htext {t : List α} (ht : t ≠ []) : E.text t ≠ [] := by
    cases t <;> simp_all [E.code_ne_nil]
  induction s using options_induction m with
  | nil => simp
  | none s hs hfirst =>
    rw [options_cons hs, hfirst, options_cons (htext hs), firstOption_encode, hfirst]
    rfl
  | cons o r ho hr ih =>
    have hs : m.raw o ++ r ≠ [] := List.append_ne_nil_of_left_ne_nil ho.raw_ne_nil _
    have htail : (E.text r).tail = E.text r.tail := by
      obtain rfl | ⟨t, rfl⟩ := hr
      · rfl
      · simp [E.code_sep]
    rw [options_raw ho hr, options_cons (htext hs), firstOption_encode, firstOption_raw ho hr]
    dsimp only [Option.map_some]
    rw [htail, ih, Option.map_map, Option.map_map]
    rfl

end Encode

end Text
