import Mathlib.Data.List.Basic
import Hole.Text.Escape
import Hole.Text.Utf8

/-!
# Plugin options

A plugin takes its options as one string, `key=value;key;…`, in which a backslash escapes what
follows it. Two programs read that string: Hole (`splitPluginOptions`, by characters: first the
segments, then in each the first `=`, and then the escapes) and ex-ray (`parsePluginOptions`, by
bytes, in one pass). Hole appends directives of its own to the operator's options, and judges what
the plugin does with them by its own reading.

The two readings are compared through `Marks.options`, which both turn out to be: Hole's over the
characters, ex-ray's over the bytes of their UTF-8, and the options of a text are kept by that
encoding. So both accept the same strings and read the same pairs of them, and what is appended to a
string that is accepted is read after what it held.
-/

namespace Hole.Plugin

open Text

scoped instance lawfulBEqText : LawfulBEq (List Char) := inferInstance

/-! ### Hole's reading -/

/-- Why Hole rejects a string of options. -/
inductive MalformedOptions
  | danglingEscape
  | emptyKey (index : Nat)
  deriving DecidableEq

/-- One segment of a string of options. -/
structure OptionSegment where
  /-- The segment exactly as written. -/
  raw : List Char
  key : List Char
  /-- Empty for a bare key too. -/
  value : List Char
  /-- Whether there was an unescaped `=` at all. -/
  hasValue : Bool
  deriving DecidableEq

/-- The value that ex-ray reads: a bare key means `1`. -/
def OptionSegment.exrayValue (segment : OptionSegment) : List Char :=
  if segment.hasValue then segment.value else ['1']

/-- The loop of `split_on_unescaped_borrowed`: the segments pushed so far, and the slice from
`start` to the next character. -/
def splitFrom (delimiter : Char) (segments : List (List Char)) (slice : List Char) :
    List Char → Except MalformedOptions (List (List Char))
  | [] => .ok (if slice = [] then segments else segments ++ [slice])
  | ch :: chars =>
    if ch = '\\' then
      match chars with
      | [] => .error .danglingEscape
      | escaped :: chars => splitFrom delimiter segments (slice ++ [ch, escaped]) chars
    else if ch = delimiter then splitFrom delimiter (segments ++ [slice]) [] chars
    else splitFrom delimiter segments (slice ++ [ch]) chars

def splitOnUnescapedBorrowed (s : List Char) (delimiter : Char) :
    Except MalformedOptions (List (List Char)) :=
  splitFrom delimiter [] [] s

/-- The loop of `walk_escaped`. -/
def walkEscaped (onEscaped : Char → List Char → List Char) (out : List Char) :
    List Char → Except MalformedOptions (List Char)
  | [] => .ok out
  | ch :: chars =>
    if ch = '\\' then
      match chars with
      | [] => .error .danglingEscape
      | escaped :: chars => walkEscaped onEscaped (onEscaped escaped out) chars
    else walkEscaped onEscaped (out ++ [ch]) chars

def unescapeAny (s : List Char) : Except MalformedOptions (List Char) :=
  walkEscaped (fun c out ↦ out ++ [c]) [] s

/-- The loop of `find_unescaped`, at index `i`. -/
def findFrom (target : Char) (i : Nat) : List Char → Option Nat
  | [] => none
  | ch :: chars =>
    if ch = '\\' then
      match chars with
      | [] => none
      | _ :: chars => findFrom target (i + 2) chars
    else if ch = target then some i
    else findFrom target (i + 1) chars

def findUnescaped (s : List Char) (target : Char) : Option Nat := findFrom target 0 s

/-- The part of a segment before its `=`. -/
def keySlice (raw : List Char) : Option Nat → List Char
  | some eq => raw.take eq
  | none => raw

/-- The value after the `=` of a segment. -/
def readValue (raw : List Char) : Option Nat → Except MalformedOptions (List Char)
  | some eq => unescapeAny (raw.drop (eq + 1))
  | none => .ok []

/-- The closure that `split_plugin_options` maps over the segments. -/
def readSegment (index : Nat) (raw : List Char) : Except MalformedOptions OptionSegment := do
  let eq := findUnescaped raw '='
  let key ← unescapeAny (keySlice raw eq)
  if key = [] then .error (.emptyKey index)
  else
    let value ← readValue raw eq
    .ok ⟨raw, key, value, eq.isSome⟩

def splitPluginOptions (opts : List Char) : Except MalformedOptions (List OptionSegment) := do
  let segments ← splitOnUnescapedBorrowed opts ';'
  segments.zipIdx.mapM fun (raw, index) ↦ readSegment index raw

def joinPluginOptions (segments : List (List Char)) : List Char := [';'].intercalate segments

/-- What galoshes hands to the ex-ray it embeds. -/
def exRayOptions (pluginOptions : Option (List Char)) : Except MalformedOptions (List Char) :=
  match pluginOptions.filter (· ≠ []) with
  | none => .ok "mux=0".toList
  | some opts => do
    let segments ← splitPluginOptions opts
    .ok (joinPluginOptions (segments.map (·.raw) ++ ["mux=0".toList]))

/-! ### The reading of ex-ray -/

/-- Why ex-ray rejects a string of options. -/
inductive OptionsError
  | unpairedBackslash
  | noKey (segmentIndex : Nat)
  deriving DecidableEq

/-- The arguments, as the calls of `Add` that made them: the values of a key are those added under
it, in that order. -/
abbrev Args := List (List UInt8 × List UInt8)

namespace Args

def add (args : Args) (key value : List UInt8) : Args := args ++ [(key, value)]

end Args

/-- The loop of `indexUnescaped`, at index `i` and with `unesc` unescaped so far. -/
def indexFrom (term : List UInt8) (i : Nat) (unesc : List UInt8) :
    List UInt8 → Except OptionsError (Nat × List UInt8)
  | [] => .ok (i, unesc)
  | b :: s =>
    if b ∈ term then .ok (i, unesc)
    else if b = 0x5c then
      match s with
      | [] => .error .unpairedBackslash
      | b :: s => indexFrom term (i + 2) (unesc ++ [b]) s
    else indexFrom term (i + 1) (unesc ++ [b]) s

def indexUnescaped (s term : List UInt8) : Except OptionsError (Nat × List UInt8) :=
  indexFrom term 0 [] s

/-- The loop of `parsePluginOptions` on what is left of the string, `s[i:]`. -/
def parseFrom (segmentIndex : Nat) (opts : Args) (s : List UInt8) : Except OptionsError Args :=
  if s = [] then .ok opts
  else
    match indexUnescaped s [0x3d, 0x3b] with
    | .error e => .error e
    | .ok (offset, key) =>
      if key = [] then .error (.noKey segmentIndex)
      else
        match _ : s.drop offset with
        | [] => .ok (opts.add key [0x31])
        | c :: rest =>
          if c ≠ 0x3d then parseFrom (segmentIndex + 1) (opts.add key [0x31]) rest
          else
            match indexUnescaped rest [0x3b] with
            | .error e => .error e
            | .ok (offset, value) =>
              parseFrom (segmentIndex + 1) (opts.add key value) (rest.drop (offset + 1))
  termination_by s.length
  decreasing_by
    all_goals
      have hlen := congrArg List.length ‹s.drop _ = _›
      simp only [List.length_drop, List.length_cons] at hlen
    · omega
    · rw [List.length_drop]
      omega

def parsePluginOptions (s : List UInt8) : Except OptionsError Args := parseFrom 0 [] s

/-! ### Hole's reading by marks -/

/-- The marks of an options string. -/
def charMarks : Marks Char where
  esc := '\\'
  sep := ';'
  eq := '='
  esc_ne_sep := by decide
  esc_ne_eq := by decide
  eq_ne_sep := by decide

/-- The segment that an option is read as. -/
def segmentOf (o : RawOption Char) : OptionSegment where
  raw := charMarks.raw o
  key := (unescape '\\' o.key).getD []
  value := (o.value.bind (unescape '\\')).getD []
  hasValue := o.value.isSome

variable {delimiter target : Char} {stop : Char → Bool} {segments : List (List Char)}
  {slice out s r : List Char} {o : RawOption Char} {os : List (RawOption Char)}

/-- Splitting cuts at the first delimiter and goes on after it. -/
theorem splitFrom_eq (hesc : stop '\\' = false) (hstop : ∀ ch, stop ch = decide (ch = delimiter)) :
    splitFrom delimiter segments slice s =
      match spanEscaped '\\' stop s with
      | none => .error .danglingEscape
      | some (p, []) => .ok (if slice ++ p = [] then segments else segments ++ [slice ++ p])
      | some (p, _ :: r) => splitFrom delimiter (segments ++ [slice ++ p]) [] r := by
  induction s using escaped_induction '\\' generalizing slice with
  | nil => simp [splitFrom]
  | dangling =>
    rw [spanEscaped_dangling hesc, splitFrom]
    rfl
  | escape b s ih =>
    rw [spanEscaped_escape hesc, splitFrom, if_pos rfl, ih]
    rcases spanEscaped '\\' stop s with - | ⟨p, - | ⟨a, r⟩⟩ <;> simp
  | plain a s ha ih =>
    rw [splitFrom.eq_def]
    dsimp only
    rw [if_neg ha]
    by_cases heq : a = delimiter
    · rw [spanEscaped_stop ((hstop a).trans (decide_eq_true heq)), if_pos heq]
      simp
    · rw [spanEscaped_plain ((hstop a).trans (decide_eq_false heq)) ha, if_neg heq, ih]
      rcases spanEscaped '\\' stop s with - | ⟨p, - | ⟨a, r⟩⟩ <;> simp

/-- Unescaping drops the escapes. -/
theorem toOption_walkEscaped :
    (walkEscaped (fun c out ↦ out ++ [c]) out s).toOption =
      (unescape '\\' s).map (out ++ ·) := by
  induction s using escaped_induction '\\' generalizing out with
  | nil => simp [walkEscaped, unescape, Except.toOption]
  | dangling =>
    rw [walkEscaped, unescape]
    rfl
  | escape b s ih =>
    rw [walkEscaped, if_pos rfl, unescape_escape, ih]
    simp [Function.comp_def]
  | plain a s ha ih =>
    rw [walkEscaped.eq_def, unescape_plain ha]
    dsimp only
    rw [if_neg ha, ih]
    simp [Function.comp_def]

theorem toOption_unescapeAny : (unescapeAny s).toOption = unescape '\\' s := by
  rw [unescapeAny, toOption_walkEscaped]
  simp

/-- Searching finds where the text before the first target ends. -/
theorem findFrom_eq {i : Nat} (hesc : stop '\\' = false)
    (hstop : ∀ ch, stop ch = decide (ch = target)) :
    findFrom target i s =
      match spanEscaped '\\' stop s with
      | some (p, _ :: _) => some (i + p.length)
      | _ => none := by
  induction s using escaped_induction '\\' generalizing i with
  | nil => simp [findFrom]
  | dangling =>
    rw [spanEscaped_dangling hesc, findFrom]
    rfl
  | escape b s ih =>
    rw [spanEscaped_escape hesc, findFrom, if_pos rfl, ih]
    rcases spanEscaped '\\' stop s with - | ⟨p, - | ⟨a, r⟩⟩ <;> simp
    omega
  | plain a s ha ih =>
    rw [findFrom.eq_def]
    dsimp only
    rw [if_neg ha]
    by_cases heq : a = target
    · rw [spanEscaped_stop ((hstop a).trans (decide_eq_true heq)), if_pos heq]
      simp
    · rw [spanEscaped_plain ((hstop a).trans (decide_eq_false heq)) ha, if_neg heq, ih]
      rcases spanEscaped '\\' stop s with - | ⟨p, - | ⟨a, r⟩⟩ <;> simp
      omega

theorem ok_bind {ε α β : Type} (a : α) (f : α → Except ε β) : (Except.ok a >>= f) = f a := rfl

theorem toOption_ok {ε α : Type} (a : α) : (Except.ok a : Except ε α).toOption = some a :=
  rfl

theorem toOption_eq_some {ε α : Type} {x : Except ε α} {a : α} :
    x.toOption = some a ↔ x = .ok a := by
  cases x <;> simp [Except.toOption]

theorem toOption_eq_none {ε α : Type} {x : Except ε α} : x.toOption = none ↔ ∃ e, x = .error e := by
  cases x <;> simp [Except.toOption]

/-- The segments pushed so far do not matter to those to come. -/
theorem splitFrom_segments :
    splitFrom delimiter segments slice s =
      (splitFrom delimiter [] slice s).map (segments ++ ·) := by
  induction s using escaped_induction '\\' generalizing segments slice with
  | nil =>
    simp only [splitFrom]
    split <;> simp [Except.map]
  | dangling => rfl
  | escape b s ih =>
    rw [splitFrom, splitFrom, if_pos rfl, ih]
    rfl
  | plain a s ha ih =>
    rw [splitFrom.eq_def, splitFrom.eq_def]
    dsimp only
    rw [if_neg ha, if_neg ha]
    split
    · rw [ih, @ih ([] ++ [slice])]
      cases splitFrom delimiter [] [] s <;> simp [Except.map]
    · exact ih

/-- The index of a segment only shows in an error. -/
theorem toOption_readSegment (i j : Nat) (raw : List Char) :
    (readSegment i raw).toOption = (readSegment j raw).toOption := by
  unfold readSegment
  dsimp only
  cases unescapeAny (keySlice raw (findUnescaped raw '=')) with
  | error e => rfl
  | ok key =>
    by_cases hkey : key = []
    · simp [hkey, bind, Except.bind, Except.toOption]
    · simp [hkey, bind, Except.bind]

theorem toOption_mapM (raws : List (List Char)) (i : Nat) :
    ((raws.zipIdx i).mapM fun (raw, index) ↦ readSegment index raw).toOption =
      raws.mapM fun raw ↦ (readSegment 0 raw).toOption := by
  induction raws generalizing i with
  | nil => rfl
  | cons raw raws ih =>
    rw [List.zipIdx_cons, List.mapM_cons, List.mapM_cons, ← ih (i + 1), toOption_readSegment 0 i]
    dsimp only
    cases readSegment i raw with
    | error e => rfl
    | ok segment =>
      cases (raws.zipIdx (i + 1)).mapM fun (raw, index) ↦ readSegment index raw <;> rfl

theorem toOption_splitPluginOptions (s : List Char) :
    (splitPluginOptions s).toOption =
      (splitFrom ';' [] [] s).toOption.bind (·.mapM fun raw ↦ (readSegment 0 raw).toOption) := by
  unfold splitPluginOptions splitOnUnescapedBorrowed
  cases splitFrom ';' [] [] s with
  | error e => rfl
  | ok raws => exact toOption_mapM raws 0

/-- The segments of a text are its first segment and those of the rest. -/
theorem splitPluginOptions_cons (hs : s ≠ []) :
    (splitPluginOptions s).toOption =
      match spanEscaped '\\' charMarks.endsValue s with
      | none => none
      | some (p, r) => (readSegment 0 p).toOption.bind fun segment ↦
          (splitPluginOptions r.tail).toOption.map (segment :: ·) := by
  have hesc : charMarks.endsValue '\\' = false := charMarks.not_endsValue_esc
  have hstop (ch : Char) : charMarks.endsValue ch = decide (ch = ';') := rfl
  rw [toOption_splitPluginOptions, splitFrom_eq hesc hstop]
  rcases hspan : spanEscaped '\\' charMarks.endsValue s with - | ⟨p, - | ⟨a, r⟩⟩
  · rfl
  · obtain ⟨rfl, -⟩ := spanEscaped_eq_some hesc hspan
    have hp : p ≠ [] := by simpa using hs
    dsimp only
    rw [List.nil_append, if_neg hp]
    cases hread : (readSegment 0 p).toOption with
    | none => simp [toOption_ok, hread]
    | some segment => simp [toOption_ok, hread, toOption_splitPluginOptions, splitFrom]
  · dsimp only [List.tail_cons]
    rw [splitFrom_segments, toOption_splitPluginOptions]
    cases splitFrom ';' [] [] r with
    | error e => cases (readSegment 0 p).toOption <;> rfl
    | ok raws =>
      cases hread : (readSegment 0 p).toOption with
      | none => simp [Except.map, toOption_ok, hread]
      | some segment =>
        cases hraws : raws.mapM fun raw ↦ (readSegment 0 raw).toOption <;>
          simp [Except.map, toOption_ok, hread, hraws]

theorem unescapeAny_eq_ok {u : List Char} (h : unescape '\\' s = some u) :
    unescapeAny s = .ok u :=
  toOption_eq_some.1 (toOption_unescapeAny.trans h)

/-- The `=` of an option is where its key ends. -/
theorem findUnescaped_raw (ho : charMarks.Fits o) :
    findUnescaped (charMarks.raw o) '=' = o.value.map fun _ ↦ o.key.length := by
  have hesc : (fun ch : Char ↦ decide (ch = '=')) '\\' = false := rfl
  have hkey : Whole '\\' (fun ch ↦ decide (ch = '=')) o.key := by
    refine ho.key.of_le charMarks.not_endsKey_esc fun a ha ↦ ?_
    simp_all [Marks.endsKey, charMarks]
  have hspan : spanEscaped '\\' (fun ch ↦ decide (ch = '=')) (charMarks.raw o) =
      some (o.key, o.rest charMarks) := by
    rw [Marks.raw_eq]
    refine hkey.append hesc fun a t hat ↦ ?_
    unfold RawOption.rest at hat
    split at hat
    · cases hat
    · obtain ⟨rfl, -⟩ := List.cons.inj hat
      rfl
  rw [findUnescaped, findFrom_eq hesc fun _ ↦ rfl, hspan]
  obtain ⟨key, - | value⟩ := o
  · rfl
  · simp [RawOption.rest]

/-- An option is read from its own text. -/
theorem readSegment_raw (ho : charMarks.Fits o) (index : Nat) :
    readSegment index (charMarks.raw o) = .ok (segmentOf o) := by
  obtain ⟨key, hkey, hnil⟩ := exists_unescape charMarks.not_endsKey_esc ho.key
  have hne : key ≠ [] := fun h ↦ ho.nonempty (hnil.1 h)
  unfold readSegment
  rw [findUnescaped_raw ho]
  obtain ⟨rawKey, - | value⟩ := o
  · replace hkey : unescape '\\' rawKey = some key := hkey
    simp [keySlice, Marks.raw, unescapeAny_eq_ok hkey, ok_bind, hne, readValue, segmentOf, hkey]
  · replace hkey : unescape '\\' rawKey = some key := hkey
    obtain ⟨u, hu, -⟩ := exists_unescape charMarks.not_endsValue_esc (ho.value value rfl)
    replace hu : unescape '\\' value = some u := hu
    simp [keySlice, Marks.raw, unescapeAny_eq_ok hkey, ok_bind, hne, readValue, segmentOf, hkey,
      unescapeAny_eq_ok hu, hu]

/-- A segment that begins with no key is rejected. -/
theorem readSegment_noKey (index : Nat) (h : s = [] ∨ ∃ t, s = '=' :: t) :
    readSegment index s = .error (.emptyKey index) := by
  obtain rfl | ⟨t, rfl⟩ := h
  · rfl
  · have hfind : findUnescaped ('=' :: t) '=' = some 0 := by
      rw [findUnescaped, findFrom.eq_def]
      simp
    rw [readSegment, hfind]
    rfl

/-- **Hole reads the options of a text.** -/
theorem splitPluginOptions_eq (s : List Char) :
    (splitPluginOptions s).toOption = (charMarks.options s).map (·.map segmentOf) := by
  induction s using options_induction charMarks with
  | nil => simp [toOption_splitPluginOptions, splitFrom, toOption_ok]
  | none s hs hfirst =>
    rw [options_cons hs, hfirst, splitPluginOptions_cons hs]
    obtain hspan | ⟨a, t, rfl, ha⟩ := firstOption_eq_none hs hfirst
    · replace hspan : spanEscaped '\\' charMarks.endsValue s = none := hspan
      rw [hspan]
      rfl
    · obtain rfl | rfl : a = '=' ∨ a = ';' := charMarks.endsKey_iff.1 ha
      · rw [spanEscaped_plain (by decide) (by decide)]
        cases spanEscaped '\\' charMarks.endsValue t with
        | none => rfl
        | some x =>
          dsimp only [Option.map_some]
          rw [readSegment_noKey 0 (.inr ⟨x.1, rfl⟩)]
          rfl
      · rw [spanEscaped_stop (by decide)]
        rfl
  | cons o r ho hr ih =>
    have hs : charMarks.raw o ++ r ≠ [] := List.append_ne_nil_of_left_ne_nil ho.raw_ne_nil _
    have hspan : spanEscaped '\\' charMarks.endsValue (charMarks.raw o ++ r) =
        some (charMarks.raw o, r) := ho.whole_raw.append charMarks.not_endsValue_esc hr.stops
    rw [splitPluginOptions_cons hs, hspan, options_raw ho hr]
    dsimp only
    rw [readSegment_raw ho, ih, toOption_ok, Option.bind_some, Option.map_map, Option.map_map]
    rfl

/-! ### The reading of ex-ray by marks -/

/-- The marks of an options string, as bytes. -/
def byteMarks : Marks UInt8 where
  esc := 0x5c
  sep := 0x3b
  eq := 0x3d
  esc_ne_sep := by decide
  esc_ne_eq := by decide
  eq_ne_sep := by decide

/-- What an option is added as. -/
def addOf (o : RawOption UInt8) : List UInt8 × List UInt8 :=
  ((unescape 0x5c o.key).getD [],
    match o.value with
    | none => [0x31]
    | some value => (unescape 0x5c value).getD [])

section Bytes

variable {term unesc b : List UInt8} {stop : UInt8 → Bool} {args : Args}

/-- Indexing cuts at the first terminator, and unescapes what comes before it. -/
theorem toOption_indexFrom {i : Nat} (hesc : stop 0x5c = false)
    (hstop : ∀ c, stop c = decide (c ∈ term)) :
    (indexFrom term i unesc b).toOption = (spanEscaped 0x5c stop b).bind fun x ↦
      (unescape 0x5c x.1).map fun u ↦ (i + x.1.length, unesc ++ u) := by
  induction b using escaped_induction (0x5c : UInt8) generalizing i unesc with
  | nil => simp [indexFrom, unescape, toOption_ok]
  | dangling =>
    have hterm : (0x5c : UInt8) ∉ term := of_decide_eq_false ((hstop _).symm.trans hesc)
    rw [spanEscaped_dangling hesc, indexFrom, if_neg hterm]
    rfl
  | escape c s ih =>
    have hterm : (0x5c : UInt8) ∉ term := of_decide_eq_false ((hstop _).symm.trans hesc)
    rw [spanEscaped_escape hesc, indexFrom, if_neg hterm, if_pos rfl, ih]
    cases spanEscaped 0x5c stop s with
    | none => rfl
    | some x =>
      rw [Option.map_some, Option.bind_some, Option.bind_some, unescape_escape, Option.map_map]
      refine Option.map_congr fun u _ ↦ ?_
      simp
      omega
  | plain a s ha ih =>
    rw [indexFrom.eq_def]
    dsimp only
    by_cases hterm : a ∈ term
    · rw [spanEscaped_stop ((hstop a).trans (decide_eq_true hterm)), if_pos hterm]
      simp [unescape, toOption_ok]
    · rw [spanEscaped_plain ((hstop a).trans (decide_eq_false hterm)) ha, if_neg hterm, if_neg ha,
        ih]
      cases spanEscaped 0x5c stop s with
      | none => rfl
      | some x =>
        rw [Option.map_some, Option.bind_some, Option.bind_some, unescape_plain ha, Option.map_map]
        refine Option.map_congr fun u _ ↦ ?_
        simp
        omega

/-- Indexing what can be cut finds where the cut is. -/
theorem indexUnescaped_eq_ok {p r : List UInt8} (hesc : stop 0x5c = false)
    (hstop : ∀ c, stop c = decide (c ∈ term)) (h : spanEscaped 0x5c stop b = some (p, r)) :
    indexUnescaped b term = .ok (p.length, (unescape 0x5c p).getD []) := by
  obtain ⟨u, hu, -⟩ := exists_unescape hesc (whole_of_spanEscaped hesc h)
  refine toOption_eq_some.1 ?_
  rw [indexUnescaped, toOption_indexFrom hesc hstop, h, Option.bind_some, hu]
  simp

theorem indexUnescaped_eq_error (hesc : stop 0x5c = false)
    (hstop : ∀ c, stop c = decide (c ∈ term)) (h : spanEscaped 0x5c stop b = none) :
    ∃ e, indexUnescaped b term = .error e := by
  refine toOption_eq_none.1 ?_
  rw [indexUnescaped, toOption_indexFrom hesc hstop, h]
  rfl

theorem parseFrom_cons (hb : b ≠ []) (i : Nat) :
    parseFrom i args b =
      match indexUnescaped b [0x3d, 0x3b] with
      | .error e => .error e
      | .ok (offset, key) =>
        if key = [] then .error (.noKey i)
        else
          match b.drop offset with
          | [] => .ok (args.add key [0x31])
          | c :: rest =>
            if c ≠ 0x3d then parseFrom (i + 1) (args.add key [0x31]) rest
            else
              match indexUnescaped rest [0x3b] with
              | .error e => .error e
              | .ok (offset, value) =>
                parseFrom (i + 1) (args.add key value) (rest.drop (offset + 1)) := by
  rw [parseFrom, if_neg hb]
  split
  · rfl
  · split
    · rfl
    · split
      · rename_i hdrop
        rw [hdrop]
      · rename_i hdrop
        rw [hdrop]

/-- **ex-ray reads the options of a text.** -/
theorem toOption_parseFrom (b : List UInt8) (i : Nat) (args : Args) :
    (parseFrom i args b).toOption = (byteMarks.options b).map fun os ↦ args ++ os.map addOf := by
  have hkey (c : UInt8) : byteMarks.endsKey c = decide (c ∈ [0x3d, 0x3b]) := by
    rw [Bool.eq_iff_iff, byteMarks.endsKey_iff]
    simp [byteMarks]
  have hvalue (c : UInt8) : byteMarks.endsValue c = decide (c ∈ [0x3b]) := by
    rw [Bool.eq_iff_iff, byteMarks.endsValue_iff]
    simp [byteMarks]
  induction b using options_induction byteMarks generalizing i args with
  | nil =>
    rw [parseFrom, if_pos rfl]
    simp [toOption_ok]
  | none b hb hfirst =>
    -- The first option is refused: its key does not end or is empty, or its value does not end.
    rw [options_cons hb, hfirst, parseFrom_cons hb]
    unfold Marks.firstOption at hfirst
    split at hfirst
    · rename_i hspan
      obtain ⟨e, he⟩ := indexUnescaped_eq_error byteMarks.not_endsKey_esc hkey hspan
      rw [he]
      rfl
    · rename_i key r hspan
      obtain ⟨rfl, -⟩ := spanEscaped_eq_some byteMarks.not_endsKey_esc hspan
      obtain ⟨u, hu, hnil⟩ := exists_unescape byteMarks.not_endsKey_esc
        (whole_of_spanEscaped byteMarks.not_endsKey_esc hspan)
      replace hu : unescape 0x5c key = some u := hu
      rw [indexUnescaped_eq_ok byteMarks.not_endsKey_esc hkey hspan]
      dsimp only
      rw [hu, Option.getD_some, List.drop_left]
      by_cases hempty : key = []
      · rw [if_pos (hnil.2 hempty)]
        rfl
      · rw [if_neg fun h ↦ hempty (hnil.1 h)]
        rw [if_neg hempty] at hfirst
        split at hfirst
        · cases hfirst
        · rename_i c t
          split at hfirst
          · rename_i hc
            obtain ⟨e, he⟩ := indexUnescaped_eq_error byteMarks.not_endsValue_esc hvalue
              (Option.map_eq_none_iff.1 hfirst)
            simp [show c = 0x3d from hc, he, Except.toOption]
          · cases hfirst
  | cons o r ho hr ih =>
    -- The first option is read whole, and the rest behind its separator.
    have hb : byteMarks.raw o ++ r ≠ [] := List.append_ne_nil_of_left_ne_nil ho.raw_ne_nil _
    have hdrop : (byteMarks.raw o ++ r).drop o.key.length = o.rest byteMarks ++ r := by
      rw [byteMarks.raw_eq, List.append_assoc, List.drop_left]
    obtain ⟨u, hu, hnil⟩ := exists_unescape byteMarks.not_endsKey_esc ho.key
    replace hu : unescape 0x5c o.key = some u := hu
    have hne : u ≠ [] := fun h ↦ ho.nonempty (hnil.1 h)
    rw [options_raw ho hr, parseFrom_cons hb,
      indexUnescaped_eq_ok byteMarks.not_endsKey_esc hkey (ho.span_key hr), Option.map_map]
    dsimp only
    rw [hdrop, hu, Option.getD_some, if_neg hne]
    obtain ⟨key, - | value⟩ := o
    · obtain rfl | ⟨t, rfl⟩ := hr
      · simp [RawOption.rest, Args.add, addOf, toOption_ok, hu]
      · have hsep : byteMarks.sep ≠ 0x3d := by decide
        dsimp only [RawOption.rest, List.nil_append]
        rw [if_pos hsep]
        rw [List.tail_cons] at ih
        rw [List.tail_cons, ih]
        simp [Args.add, addOf, hu, Function.comp_def]
    · have heq : byteMarks.eq = 0x3d := rfl
      have htail : (value ++ r).drop (value.length + 1) = r.tail := by
        rw [← List.drop_drop, List.drop_left, List.drop_one]
      dsimp only [RawOption.rest, List.cons_append]
      rw [if_neg (not_not_intro heq),
        indexUnescaped_eq_ok byteMarks.not_endsValue_esc hvalue (ho.span_value hr rfl)]
      dsimp only
      rw [htail, ih]
      simp [Args.add, addOf, hu, Function.comp_def]

theorem parsePluginOptions_eq (b : List UInt8) :
    (parsePluginOptions b).toOption = (byteMarks.options b).map (·.map addOf) :=
  toOption_parseFrom b 0 []

end Bytes

/-! ### The two readings -/

/-- The bytes of a text, as a code of its characters. -/
def utf8Encoding : Encoding charMarks byteMarks where
  code := String.utf8EncodeChar
  code_esc := by decide
  code_sep := by decide
  code_eq := by decide
  code_ne_nil _ := String.utf8EncodeChar_ne_nil
  code_plain c hesc hsep heq b hb := by
    refine ⟨?_, ?_, ?_⟩
    · rintro rfl
      exact hesc (Char.toNat_inj.1 (eq_of_mem_utf8EncodeChar (n := 0x5c) (by decide) hb))
    · rintro rfl
      exact hsep (Char.toNat_inj.1 (eq_of_mem_utf8EncodeChar (n := 0x3b) (by decide) hb))
    · rintro rfl
      exact heq (Char.toNat_inj.1 (eq_of_mem_utf8EncodeChar (n := 0x3d) (by decide) hb))

/-- The pairs that Hole expects ex-ray to read. -/
def addsOf (segments : List OptionSegment) : Args :=
  segments.map fun segment ↦ (utf8 segment.key, utf8 segment.exrayValue)

theorem getD_unescape_utf8 (s : List Char) :
    (unescape 0x5c (utf8 s)).getD [] = utf8 ((unescape '\\' s).getD []) := by
  have hencode : unescape 0x5c (utf8 s) = (unescape '\\' s).map utf8 :=
    unescape_encode (E := utf8Encoding) s
  rw [hencode]
  cases unescape '\\' s <;> rfl

/-- An option is added as it is expected to be. -/
theorem addOf_option (o : RawOption Char) :
    addOf (utf8Encoding.option o) =
      (utf8 (segmentOf o).key, utf8 (segmentOf o).exrayValue) := by
  obtain ⟨key, - | value⟩ := o
  · exact Prod.ext (getD_unescape_utf8 key) rfl
  · exact Prod.ext (getD_unescape_utf8 key) (getD_unescape_utf8 value)

/-- ex-ray reads what Hole expects it to read. -/
theorem parsePluginOptions_utf8 (s : List Char) :
    (parsePluginOptions (utf8 s)).toOption = (splitPluginOptions s).toOption.map addsOf := by
  have hoptions : byteMarks.options (utf8 s) =
      (charMarks.options s).map (·.map utf8Encoding.option) := options_encode (E := utf8Encoding) s
  rw [parsePluginOptions_eq, splitPluginOptions_eq, hoptions, Option.map_map, Option.map_map]
  refine Option.map_congr fun os _ ↦ ?_
  simp [addsOf, addOf_option]

/-- A segment that reads as it is written. -/
def OptionSegment.WellFormed (segment : OptionSegment) : Prop :=
  ∃ o, charMarks.Fits o ∧ segmentOf o = segment

variable {pieces : List OptionSegment}

theorem joinPluginOptions_raw (os : List (RawOption Char)) :
    joinPluginOptions ((os.map segmentOf).map (·.raw)) = charMarks.join os := by
  simp only [joinPluginOptions, Marks.join, List.map_map]
  rfl

/-- The segments of a string are well formed and make up the string. -/
theorem wellFormed_of_split (h : splitPluginOptions s = .ok pieces) :
    (∀ segment ∈ pieces, segment.WellFormed) ∧
      (s = joinPluginOptions (pieces.map (·.raw)) ∨
        s = joinPluginOptions (pieces.map (·.raw)) ++ [';']) := by
  have htoOption := splitPluginOptions_eq s
  rw [h] at htoOption
  obtain ⟨os, hos, hmap⟩ := Option.map_eq_some_iff.1 htoOption.symm
  obtain ⟨hfits, hjoin⟩ := join_of_options hos
  subst hmap
  rw [joinPluginOptions_raw]
  exact ⟨List.forall_mem_map.2 fun o ho ↦ ⟨o, hfits o ho, rfl⟩, hjoin⟩

/-- Well-formed segments are read back from their text. -/
theorem split_join (h : ∀ segment ∈ pieces, segment.WellFormed) :
    splitPluginOptions (joinPluginOptions (pieces.map (·.raw))) = .ok pieces := by
  obtain ⟨os, hos, rfl⟩ : ∃ os : List (RawOption Char),
      (∀ o ∈ os, charMarks.Fits o) ∧ os.map segmentOf = pieces := by
    induction pieces with
    | nil => exact ⟨[], List.forall_mem_nil _, rfl⟩
    | cons segment pieces ih =>
      obtain ⟨⟨o, ho, rfl⟩, hrest⟩ := List.forall_mem_cons.1 h
      obtain ⟨os, hos, rfl⟩ := ih hrest
      exact ⟨o :: os, List.forall_mem_cons.2 ⟨ho, hos⟩, rfl⟩
  refine toOption_eq_some.1 ?_
  rw [joinPluginOptions_raw, splitPluginOptions_eq, options_join hos]
  rfl

/-- Segments can be appended to those of a string. -/
theorem split_append {more : List OptionSegment} (h : splitPluginOptions s = .ok pieces)
    (hmore : ∀ segment ∈ more, segment.WellFormed) :
    splitPluginOptions (joinPluginOptions (pieces.map (·.raw) ++ more.map (·.raw))) =
      .ok (pieces ++ more) := by
  rw [← List.map_append]
  exact split_join (List.forall_mem_append.2 ⟨(wellFormed_of_split h).1, hmore⟩)

/-- **The two readings agree.** ex-ray accepts the string that Hole accepts, and adds the pairs that
Hole expects. The segments make up the string, up to a `;` at its end; they are read back from their
text, and so is a segment that is appended to them. -/
theorem options_agree (s : List Char) :
    (parsePluginOptions (utf8 s)).toOption = (splitPluginOptions s).toOption.map addsOf ∧
    ∀ segments, splitPluginOptions s = .ok segments →
      (s = joinPluginOptions (segments.map (·.raw)) ∨
        s = joinPluginOptions (segments.map (·.raw)) ++ [';']) ∧
      splitPluginOptions (joinPluginOptions (segments.map (·.raw))) = .ok segments ∧
      ∀ t segment, splitPluginOptions t = .ok [segment] → segment.raw = t →
        splitPluginOptions (joinPluginOptions (segments.map (·.raw) ++ [t])) =
          .ok (segments ++ [segment]) := by
  refine ⟨parsePluginOptions_utf8 s, fun segments h ↦ ?_⟩
  obtain ⟨hpieces, hjoin⟩ := wellFormed_of_split h
  refine ⟨hjoin, split_join hpieces, fun t segment ht hraw ↦ ?_⟩
  subst hraw
  exact split_append h (wellFormed_of_split ht).1

/-- An escaped `;`, a bare key and a `;` at the end. -/
theorem options_agree_escaped :
    (parsePluginOptions (utf8 "a\\;b=c;tls;".toList)).toOption =
      some (addsOf [⟨"a\\;b=c".toList, "a;b".toList, "c".toList, true⟩,
        ⟨"tls".toList, "tls".toList, [], false⟩]) ∧
    splitPluginOptions "a\\;b=c;tls;mux=0".toList =
      .ok [⟨"a\\;b=c".toList, "a;b".toList, "c".toList, true⟩,
        ⟨"tls".toList, "tls".toList, [], false⟩,
        ⟨"mux=0".toList, "mux".toList, "0".toList, true⟩] := by
  obtain ⟨hparse, hsplit⟩ := options_agree "a\\;b=c;tls;".toList
  obtain ⟨-, -, happend⟩ := hsplit [⟨"a\\;b=c".toList, "a;b".toList, "c".toList, true⟩,
    ⟨"tls".toList, "tls".toList, [], false⟩] (by decide +kernel)
  exact ⟨hparse.trans (by decide +kernel), happend "mux=0".toList _ (by decide +kernel) rfl⟩

/-- **What galoshes hands on is read as what it was given and then `mux=0`.** What it refuses is an
error. -/
theorem exRayOptions_adds (opts : Option (List Char)) :
    match splitPluginOptions (opts.getD []) with
    | .error e => exRayOptions opts = .error e
    | .ok segments => ∃ out, exRayOptions opts = .ok out ∧
        (parsePluginOptions (utf8 out)).toOption =
          some (addsOf segments ++ [(utf8 "mux".toList, utf8 "0".toList)]) := by
  let mux : OptionSegment := ⟨"mux=0".toList, "mux".toList, "0".toList, true⟩
  have hmux : splitPluginOptions "mux=0".toList = .ok [mux] := by decide +kernel
  have hread {out : List Char} (segments : List OptionSegment)
      (hout : splitPluginOptions out = .ok (segments ++ [mux])) :
      (parsePluginOptions (utf8 out)).toOption =
        some (addsOf segments ++ [(utf8 "mux".toList, utf8 "0".toList)]) := by
    rw [parsePluginOptions_utf8, hout, toOption_ok, Option.map_some, addsOf, List.map_append]
    rfl
  by_cases hopts : opts.getD [] = []
  · have hnone : opts.filter (· ≠ []) = none := by cases opts <;> simp_all
    rw [exRayOptions, hnone, hopts]
    exact ⟨_, rfl, hread [] hmux⟩
  · obtain ⟨s, rfl⟩ : ∃ s, opts = some s := by cases opts <;> simp_all
    have hsome : (some s).filter (· ≠ []) = some s := by simp_all
    rw [exRayOptions, hsome, Option.getD_some]
    dsimp only
    cases hsplit : splitPluginOptions s with
    | error e => rfl
    | ok segments =>
      exact ⟨_, rfl, hread segments (split_append hsplit (wellFormed_of_split hmux).1)⟩

end Hole.Plugin
