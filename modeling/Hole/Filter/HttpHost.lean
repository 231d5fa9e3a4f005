import Mathlib.Data.List.DropRight
import Hole.Text.Pairs
import Hole.Text.Utf8

/-!
# The `Host` of a request

`extract_host` of `crates/bridge/src/filter/sniffer/http_host.rs`: the domain of a flow, from the
first bytes of its payload, if they begin a request of HTTP. The bytes may be cut off anywhere, and
what is there of the last line is read as a line: the host is that of the whole request unless the
cut is within its name (`extractHost_stable_iff`).
-/

namespace Hole.Filter

open Text

/-- What was peeked of a flow. -/
abbrev Bytes := List UInt8

/-- `METHODS`. -/
def methods : List Bytes :=
  ["GET ", "POST ", "PUT ", "DELETE ", "HEAD ", "OPTIONS ", "PATCH ", "TRACE ", "CONNECT "].map
    fun m ↦ m.toList.map fun c ↦ UInt8.ofNat c.toNat

/-- `MAX_SCAN`. -/
def maxScan : Nat := 4096

/-- The bytes of `\r` and `\n`. -/
def crlf : Bytes := [13, 10]

/-- `to_ascii_lowercase`, of a byte. -/
def asciiLower (b : UInt8) : UInt8 := if 65 ≤ b ∧ b ≤ 90 then b + 32 else b

/-- A space or a tab. -/
def isBlank (b : UInt8) : Bool := b = 32 || b = 9

/-- White space at the end of a value, half of a CRLF included. -/
def isTrailing (b : UInt8) : Bool := b = 32 || b = 9 || b = 13

/-- The bytes of the host, without a port and without brackets. -/
def hostBytes (value : Bytes) : Option Bytes :=
  if value.head? = some 91 then
    match value.findIdx? (· == 93) with
    | some close => if 2 ≤ close then some ((value.take close).drop 1) else none
    | none => none
  else some (value.takeWhile (· != 58))

/-- The host of a value that begins with no blank. -/
def hostOf (value : Bytes) : Option (List Char) := do
  let host ← hostBytes (value.rdropWhile isTrailing)
  if host = [] then none
  else (readUtf8 host).map toAsciiLowercase

/-- `parse_host_line`. -/
def parseHostLine (line : Bytes) : Option (List Char) :=
  match line.dropWhile (· != 58) with
  | [] => none
  | _ :: after =>
    -- `host`
    if (line.takeWhile (· != 58)).map asciiLower = [104, 111, 115, 116] then
      hostOf (after.dropWhile isBlank)
    else none

/-- The loop of `extract_host`, from the cursor on. -/
def scanHost (region : Bytes) : Option (List Char) :=
  if _ : region = [] then none
  else match findSubslice crlf region with
    | none => parseHostLine region
    | some i =>
      match parseHostLine (region.take i) with
      | some value => some value
      | none => scanHost (region.drop (i + 2))
  termination_by region.length
  decreasing_by
    have hpos := List.length_pos_iff.2 ‹_›
    rw [List.length_drop]
    omega

/-- The bytes begin a request. -/
def StartsRequest (buf : Bytes) : Prop := ∃ m ∈ methods, m <+: buf

instance (buf : Bytes) : Decidable (StartsRequest buf) :=
  inferInstanceAs (Decidable (∃ m ∈ methods, m <+: buf))

/-- `extract_host`. -/
def extractHost (buf : Bytes) : Option (List Char) :=
  if StartsRequest buf then
    let scan := buf.take maxScan
    scanHost (scan.take ((findSubslice (crlf ++ crlf) scan).getD scan.length))
  else none

/-! ### Lines -/

/-- The first host of the lines before the first that is empty. -/
def search (lines : List Bytes) : Option (List Char) :=
  (lines.takeWhile (· ≠ [])).findSome? parseHostLine

theorem parseHostLine_nil : parseHostLine [] = none := rfl

variable {line : Bytes}

theorem search_cons (h : line ≠ []) (others : List Bytes) :
    search (line :: others) = (parseHostLine line).or (search others) := by
  rw [search, List.takeWhile_cons_of_pos (by simpa using h), List.findSome?_cons]
  cases parseHostLine line <;> rfl

theorem search_nil_cons (others : List Bytes) : search ([] :: others) = none := rfl

/-- Where lines have no host and none is empty, the search goes on behind them. -/
theorem search_append {init : List Bytes} (h : ∀ l ∈ init, l ≠ [] ∧ parseHostLine l = none)
    (lines : List Bytes) : search (init ++ lines) = search lines := by
  induction init with
  | nil => rfl
  | cons line init ih =>
    obtain ⟨hne, hnone⟩ := h line (.head _)
    rw [List.cons_append, search_cons hne, hnone, Option.none_or]
    exact ih fun l hl ↦ h l (.tail _ hl)

/-- Where they do, or one is, the search ends within them. -/
theorem search_within {init : List Bytes} (h : ¬∀ l ∈ init, l ≠ [] ∧ parseHostLine l = none)
    (lines lines' : List Bytes) : search (init ++ lines) = search (init ++ lines') := by
  induction init with
  | nil => exact absurd (by simp) h
  | cons line init ih =>
    by_cases hne : line = []
    · rw [hne, List.cons_append, List.cons_append, search_nil_cons, search_nil_cons]
    rw [List.cons_append, List.cons_append, search_cons hne, search_cons hne]
    cases hhost : parseHostLine line with
    | some host => rfl
    | none =>
      refine congrArg _ (ih fun hall ↦ h fun l hl ↦ ?_)
      rcases List.mem_cons.1 hl with rfl | hl
      · exact ⟨hne, hhost⟩
      · exact hall l hl

theorem crlf_ne : (13 : UInt8) ≠ 10 := by decide

theorem scanHost_of_none {region : Bytes} (h : ∀ j, ¬crlf <+: region.drop j) :
    scanHost region = parseHostLine region := by
  rw [scanHost]
  split
  · next hnil => rw [hnil, parseHostLine_nil]
  · rw [(findSubslice_eq_none (by simp [crlf])).2 h]

theorem scanHost_of_some {region : Bytes} {i : Nat} (h : crlf <+: region.drop i)
    (hfirst : ∀ j < i, ¬crlf <+: region.drop j) :
    scanHost region = (parseHostLine (region.take i)).or (scanHost (region.drop (i + 2))) := by
  have hne : region ≠ [] := by
    rintro rfl
    simp [crlf] at h
  rw [scanHost, dif_neg hne, (findSubslice_eq_some (by simp [crlf])).2 ⟨h, hfirst⟩]
  dsimp only
  cases parseHostLine (region.take i) <;> rfl

/-- A part of a text has a pair where the text has one, if it reaches that far. -/
theorem isPrefix_drop_take {l : Bytes} {e j : Nat} :
    crlf <+: (l.take e).drop j ↔ crlf <+: l.drop j ∧ j + 2 ≤ e := by
  rw [List.drop_take, List.prefix_take_iff]
  refine and_congr_right fun h ↦ ?_
  have hlen := h.length_le
  rw [List.length_drop] at hlen
  simp only [crlf, List.length_cons, List.length_nil] at hlen ⊢
  omega

/-- The loop, up to where the headers end, is the search of the lines. -/
theorem scanHost_eq_search {l : Bytes} (hl : ¬crlf <+: l) :
    scanHost (l.take ((findSubslice (crlf ++ crlf) l).getD l.length)) =
      search (linesOf 13 10 l) := by
  have htwice_ne : crlf ++ crlf ≠ [] := by simp [crlf]
  cases hfind : findSubslice crlf l with
  | none =>
    -- One line, which has no end.
    have hnone := (findSubslice_eq_none (by simp [crlf])).1 hfind
    have htwice : findSubslice (crlf ++ crlf) l = none :=
      (findSubslice_eq_none htwice_ne).2 fun j hj ↦
        hnone j ((List.prefix_append crlf crlf).trans hj)
    rw [htwice, Option.getD_none, List.take_length, scanHost_of_none hnone, linesOf_of_none hnone]
    by_cases hnil : l = []
    · rw [hnil]
      rfl
    · rw [search_cons hnil]
      cases parseHostLine l <;> rfl
  | some i =>
    obtain ⟨hat, hfirst⟩ := (findSubslice_eq_some (by simp [crlf])).1 hfind
    have hlen := hat.length_le
    rw [List.length_drop] at hlen
    simp only [crlf, List.length_cons, List.length_nil] at hlen
    have hpos : i ≠ 0 := by
      rintro rfl
      exact hl hat
    have hline : l.take i ≠ [] := by
      intro hnil
      have hzero := congrArg List.length hnil
      rw [List.length_take, List.length_nil] at hzero
      omega
    rw [linesOf_of_some hat hfirst, search_cons hline]
    have htwice : findSubslice (crlf ++ crlf) l = _ := findSubslice_twice crlf_ne hat hfirst
    rw [htwice]
    by_cases hend : crlf <+: l.drop (i + 2)
    · -- The line behind is empty.
      obtain ⟨rest, hrest⟩ := hend
      have hempty : search (linesOf 13 10 (l.drop (i + 2))) = none := by
        rw [← hrest]
        exact (congrArg search (linesOf_pair rest)).trans (search_nil_cons _)
      have hat' : [(13 : UInt8), 10] <+: l.drop (i + 2) := ⟨rest, hrest⟩
      rw [hempty, if_pos hat', Option.getD_some, Option.or_none]
      refine scanHost_of_none fun j hj ↦ ?_
      obtain ⟨hj, hlt⟩ := isPrefix_drop_take.1 hj
      exact hfirst j (by omega) hj
    · have hat' : ¬[(13 : UInt8), 10] <+: l.drop (i + 2) := hend
      rw [if_neg hat', ← scanHost_eq_search hend]
      -- The headers end as far behind this line as they do in what follows.
      generalize hk : (findSubslice (crlf ++ crlf) (l.drop (i + 2))).getD
        (l.drop (i + 2)).length = k
      have hregion : ((findSubslice [13, 10, 13, 10] (l.drop (i + 2))).map (i + 2 + ·)).getD
          l.length = i + 2 + k := by
        rw [← hk]
        change ((findSubslice (crlf ++ crlf) (l.drop (i + 2))).map (i + 2 + ·)).getD l.length = _
        cases findSubslice (crlf ++ crlf) (l.drop (i + 2)) with
        | none =>
          simp only [Option.map_none, Option.getD_none, List.length_drop]
          omega
        | some k => rfl
      have hwithin : k ≤ (l.drop (i + 2)).length := by
        rw [← hk]
        cases hfind' : findSubslice (crlf ++ crlf) (l.drop (i + 2)) with
        | none => exact Nat.le_refl _
        | some k =>
          have hlen' := ((findSubslice_eq_some htwice_ne).1 hfind').1.length_le
          rw [List.length_drop] at hlen'
          simp only [crlf, List.length_append, List.length_cons, List.length_nil] at hlen'
          rw [Option.getD_some]
          omega
      rw [List.length_drop] at hwithin
      rw [hregion, scanHost_of_some (i := i) (isPrefix_drop_take.2 ⟨hat, by omega⟩)
          fun j hj hj' ↦ hfirst j hj (isPrefix_drop_take.1 hj').1,
        List.take_take, Nat.min_eq_left (by omega), List.drop_take, Nat.add_sub_cancel_left]
  termination_by l.length
  decreasing_by
    have hlen := hat.length_le
    simp only [crlf, List.length_cons, List.length_nil, List.length_drop] at hlen ⊢
    omega

theorem methods_ne_crlf : ∀ m ∈ methods, ¬crlf <+: m ∧ crlf.length ≤ m.length := by
  decide

/-- The host of a request is that of its first line with one, before the first that is empty. -/
theorem extractHost_eq {buf : Bytes} (h : StartsRequest buf) :
    extractHost buf = search (linesOf 13 10 (buf.take maxScan)) := by
  rw [extractHost, if_pos h]
  refine scanHost_eq_search fun hcrlf ↦ ?_
  obtain ⟨m, hm, hpre⟩ := h
  obtain ⟨hne, hle⟩ := methods_ne_crlf m hm
  exact hne (List.prefix_of_prefix_length_le (hcrlf.trans (List.take_prefix _ _)) hpre hle)

/-! ### A value that is cut off -/

theorem rdropWhile_append_of_forall {more : Bytes} (h : ∀ c ∈ more, isTrailing c = true)
    (value : Bytes) : (value ++ more).rdropWhile isTrailing = value.rdropWhile isTrailing := by
  induction more using List.reverseRecOn with
  | nil => rw [List.append_nil]
  | append_singleton more c ih =>
    rw [← List.append_assoc, List.rdropWhile_concat_pos _ _ _ (h c (by simp))]
    exact ih fun d hd ↦ h d (List.mem_append_left _ hd)

theorem rdropWhile_append_of_exists {more : Bytes} (h : ∃ c ∈ more, isTrailing c = false)
    (value : Bytes) :
    (value ++ more).rdropWhile isTrailing = value ++ more.rdropWhile isTrailing := by
  induction more using List.reverseRecOn with
  | nil => simp at h
  | append_singleton more c ih =>
    by_cases hc : isTrailing c = true
    · rw [← List.append_assoc, List.rdropWhile_concat_pos _ _ _ hc,
        List.rdropWhile_concat_pos _ _ _ hc]
      refine ih ?_
      obtain ⟨d, hd, hfalse⟩ := h
      rcases List.mem_append.1 hd with hd | hd
      · exact ⟨d, hd, hfalse⟩
      · rw [List.mem_singleton.1 hd, hc] at hfalse
        cases hfalse
    · rw [← List.append_assoc, List.rdropWhile_concat_neg _ _ _ hc,
        List.rdropWhile_concat_neg _ _ _ hc, List.append_assoc]

/-- More of the line leaves the host of a value as it is: the value is bracketed or has its port
already, or only white space comes, or the port comes right behind it. -/
def Settled (value more : Bytes) : Prop :=
  value.head? = some 91 ∨ 58 ∈ value ∨ (∀ c ∈ more, isTrailing c = true) ∨
    more.head? = some 58 ∧ value.rdropWhile isTrailing = value

variable {value : Bytes} {host : List Char}

theorem hostOf_eq_some :
    hostOf value = some host ↔ ∃ bytes, hostBytes (value.rdropWhile isTrailing) = some bytes ∧
      bytes ≠ [] ∧ ∃ s, readUtf8 bytes = some s ∧ toAsciiLowercase s = host := by
  rw [hostOf]
  simp only [Option.bind_eq_bind, Option.bind_eq_some_iff, Option.ite_none_left_eq_some,
    Option.map_eq_some_iff]

/-- Hosts of one text are of the same number of bytes. -/
theorem length_eq_of_host {bytes bytes' : Bytes} {s s' : List Char} (h : readUtf8 bytes = some s)
    (h' : readUtf8 bytes' = some s') (heq : toAsciiLowercase s = toAsciiLowercase s') :
    bytes.length = bytes'.length := by
  rw [← utf8_of_readUtf8 h, ← utf8_of_readUtf8 h', ← length_utf8_toAsciiLowercase s, heq,
    length_utf8_toAsciiLowercase s']

theorem head?_append_eq {l : Bytes} (h : l ≠ []) (more : Bytes) : (l ++ more).head? = l.head? := by
  obtain ⟨x, l, rfl⟩ := List.exists_cons_of_ne_nil h
  rfl

theorem head?_rdropWhile (h : value.rdropWhile isTrailing ≠ []) :
    (value.rdropWhile isTrailing).head? = value.head? := by
  obtain ⟨t, ht⟩ := List.rdropWhile_prefix isTrailing value
  have hhead := head?_append_eq h t
  rw [ht] at hhead
  exact hhead.symm

theorem hostBytes_nil : hostBytes [] = some [] := rfl

theorem rdropWhile_ne_nil (h : hostOf value = some host) : value.rdropWhile isTrailing ≠ [] := by
  intro hnil
  obtain ⟨bytes, hbytes, hne, -⟩ := hostOf_eq_some.1 h
  rw [hnil, hostBytes_nil] at hbytes
  exact hne (Option.some.inj hbytes).symm

/-- The host of a value in brackets is there whatever comes behind. -/
theorem hostBytes_bracketed (h : value.head? = some 91) {bytes : Bytes}
    (hbytes : hostBytes value = some bytes) (more : Bytes) :
    hostBytes (value ++ more) = some bytes := by
  have hhead : (value ++ more).head? = some 91 := by rw [List.head?_append, h]; rfl
  rw [hostBytes, if_pos h] at hbytes
  rw [hostBytes, if_pos hhead]
  cases hclose : value.findIdx? (· == 93) with
  | none => rw [hclose] at hbytes; cases hbytes
  | some close =>
    have hlt : close < value.length := List.findIdx?_eq_some_iff_getElem.1 hclose |>.1
    rw [hclose] at hbytes
    rw [List.findIdx?_append, hclose, Option.some_or]
    dsimp only at hbytes ⊢
    rwa [List.take_append_of_le_length hlt.le]

/-- So is that of a value with a port. -/
theorem hostBytes_port (h : value.head? ≠ some 91) (hport : 58 ∈ value) (more : Bytes) :
    hostBytes (value ++ more) = hostBytes value := by
  have hhead : (value ++ more).head? ≠ some 91 := by
    rwa [head?_append_eq (List.ne_nil_of_mem hport)]
  have hshort : (value.takeWhile (· != 58)).length ≠ value.length := by
    intro hlen
    have hall := List.takeWhile_eq_self_iff.1
      ((List.takeWhile_prefix (· != (58 : UInt8))).eq_of_length hlen) 58 hport
    simp at hall
  rw [hostBytes, hostBytes, if_neg h, if_neg hhead, List.takeWhile_append, if_neg hshort]

/-- Where there is neither, the value goes on, up to a port. -/
theorem hostBytes_open (h : value.head? ≠ some 91) (hne : value ≠ []) (hport : 58 ∉ value)
    (more : Bytes) : hostBytes (value ++ more) = some (value ++ more.takeWhile (· != 58)) := by
  have hhead : (value ++ more).head? ≠ some 91 := by rwa [head?_append_eq hne]
  rw [hostBytes, if_neg hhead, List.takeWhile_append_of_pos]
  intro c hc
  simpa using ne_of_mem_of_not_mem hc hport

theorem mem_rdropWhile : 58 ∈ value.rdropWhile isTrailing ↔ 58 ∈ value := by
  constructor
  · exact fun hmem ↦ (List.rdropWhile_prefix isTrailing value).subset hmem
  · intro hmem
    obtain ⟨s, t, rfl⟩ := List.append_of_mem hmem
    rw [rdropWhile_append_of_exists ⟨58, List.mem_cons_self, rfl⟩]
    refine List.mem_append_right _ ?_
    exact List.mem_of_mem_head? (by
      rw [head?_rdropWhile]
      · rfl
      · intro hnil
        have := List.rdropWhile_eq_nil_iff.1 hnil 58 (.head _)
        cases this)

/-- The host is as it was, with more of the line behind it, if and only if it was settled. -/
theorem hostOf_append (h : hostOf value = some host) (more : Bytes) :
    hostOf (value ++ more) = some host ↔ Settled value more := by
  by_cases hmore : ∀ c ∈ more, isTrailing c = true
  · refine iff_of_true ?_ (.inr (.inr (.inl hmore)))
    rwa [hostOf, rdropWhile_append_of_forall hmore]
  have hexists : ∃ c ∈ more, isTrailing c = false := by simpa using hmore
  have hne := rdropWhile_ne_nil h
  obtain ⟨bytes, hbytes, hbytes_ne, s, hs, hhost⟩ := hostOf_eq_some.1 h
  have happend := rdropWhile_append_of_exists hexists value
  -- What was trimmed of the value stands between the two.
  obtain ⟨t, ht⟩ := List.rdropWhile_prefix isTrailing value
  have hhead := head?_rdropWhile hne
  by_cases hbracket : value.head? = some 91
  · refine iff_of_true (hostOf_eq_some.2 ⟨bytes, ?_, hbytes_ne, s, hs, hhost⟩) (.inl hbracket)
    rw [happend, ← ht, List.append_assoc]
    exact hostBytes_bracketed (hhead.trans hbracket) hbytes _
  by_cases hport : 58 ∈ value
  · refine iff_of_true (hostOf_eq_some.2 ⟨bytes, ?_, hbytes_ne, s, hs, hhost⟩) (.inr (.inl hport))
    rw [happend, ← ht, List.append_assoc, hostBytes_port (hhead ▸ hbracket)
      (mem_rdropWhile.2 hport)]
    exact hbytes
  have hport' : 58 ∉ value.rdropWhile isTrailing := mt mem_rdropWhile.1 hport
  have hvalue : value ≠ [] := by
    rintro rfl
    exact hne rfl
  have hhead' : (value.rdropWhile isTrailing).head? ≠ some 91 := hhead ▸ hbracket
  have hbefore : bytes = value.rdropWhile isTrailing := by
    have hopen := hostBytes_open hhead' hne hport' []
    rw [List.append_nil, List.takeWhile_nil, List.append_nil, hbytes] at hopen
    exact Option.some.inj hopen
  have hafter := hostBytes_open hbracket hvalue hport (more.rdropWhile isTrailing)
  rw [← happend] at hafter
  have hmore_ne : more.rdropWhile isTrailing ≠ [] :=
    fun hnil ↦ hmore (List.rdropWhile_eq_nil_iff.1 hnil)
  constructor
  · intro hhost'
    obtain ⟨bytes', hbytes', -, s', hs', hsame⟩ := hostOf_eq_some.1 hhost'
    have hlen := length_eq_of_host hs hs' (hhost.trans hsame.symm)
    have hle := (List.rdropWhile_prefix isTrailing value).length_le
    rw [← Option.mem_unique hafter hbytes', hbefore, List.length_append] at hlen
    refine .inr (.inr (.inr ⟨?_, (List.rdropWhile_prefix isTrailing value).eq_of_length
      (by omega)⟩))
    have hport_first := List.eq_nil_of_length_eq_zero (show (List.takeWhile (· != 58)
      (more.rdropWhile isTrailing)).length = 0 by omega)
    rw [← head?_rdropWhile hmore_ne]
    obtain ⟨c, l, hl⟩ := List.exists_cons_of_ne_nil hmore_ne
    rw [hl] at hport_first ⊢
    by_contra hc
    rw [List.takeWhile_cons_of_pos (by simpa using hc)] at hport_first
    cases hport_first
  · rintro (h91 | h58 | hall | ⟨hhead58, hfull⟩)
    · exact absurd h91 hbracket
    · exact absurd h58 hport
    · exact absurd hall hmore
    · refine hostOf_eq_some.2 ⟨bytes, ?_, hbytes_ne, s, hs, hhost⟩
      obtain ⟨c, l, hl⟩ := List.exists_cons_of_ne_nil hmore_ne
      rw [← head?_rdropWhile hmore_ne, hl] at hhead58
      cases hhead58
      rw [hafter, hl, hbefore, hfull]
      simp

/-- What stands behind the name of a header, and the blanks behind that. -/
def valueOf (line : Bytes) : Bytes := ((line.dropWhile (· != 58)).drop 1).dropWhile isBlank

/-- A line of a `Host`. -/
def IsHostLine (line : Bytes) : Prop :=
  58 ∈ line ∧ (line.takeWhile (· != 58)).map asciiLower = [104, 111, 115, 116]

theorem parseHostLine_of_isHostLine (h : IsHostLine line) :
    parseHostLine line = hostOf (valueOf line) := by
  obtain ⟨hcolon, hname⟩ := h
  rw [parseHostLine, valueOf]
  cases hafter : line.dropWhile (· != 58) with
  | nil =>
    have hall := List.dropWhile_eq_nil_iff.1 hafter 58 hcolon
    simp at hall
  | cons c after =>
    dsimp only
    rw [if_pos hname, List.drop_one, List.tail_cons]

theorem parseHostLine_of_not_isHostLine (h : ¬IsHostLine line) : parseHostLine line = none := by
  rw [parseHostLine]
  cases hafter : line.dropWhile (· != 58) with
  | nil => rfl
  | cons c after =>
    refine if_neg fun hname ↦ h ⟨?_, hname⟩
    have hc : (c != 58) = false := by
      have := List.head_dropWhile_not (p := (· != (58 : UInt8))) (l := line) (by simp [hafter])
      simpa [hafter] using this
    obtain rfl : c = 58 := by simpa using hc
    exact (List.dropWhile_suffix (· != (58 : UInt8))).subset (hafter ▸ (.head _))

theorem takeWhile_append_of_mem (h : 58 ∈ line) (more : Bytes) :
    (line ++ more).takeWhile (· != 58) = line.takeWhile (· != 58) ∧
      (line ++ more).dropWhile (· != 58) = line.dropWhile (· != 58) ++ more := by
  have hsome : ¬∀ c ∈ line, (c != 58) = true := fun hall ↦ by simpa using hall 58 h
  constructor
  · rw [List.takeWhile_append, if_neg]
    exact fun hlen ↦ hsome
      (List.takeWhile_eq_self_iff.1 ((List.takeWhile_prefix _).eq_of_length hlen))
  · rw [List.dropWhile_append, if_neg]
    exact fun hnil ↦ hsome (List.dropWhile_eq_nil_iff.1 (List.isEmpty_iff.1 hnil))

/-- A line of a `Host` stays one, with the same value and more of it. -/
theorem IsHostLine.append (h : IsHostLine line) (more : Bytes) :
    IsHostLine (line ++ more) ∧
      valueOf (line ++ more) = ((line.dropWhile (· != 58)).drop 1 ++ more).dropWhile isBlank := by
  obtain ⟨hcolon, hname⟩ := h
  obtain ⟨htake, hdrop⟩ := takeWhile_append_of_mem hcolon more
  refine ⟨⟨List.mem_append_left _ hcolon, htake ▸ hname⟩, ?_⟩
  have hne : line.dropWhile (· != 58) ≠ [] := by
    intro hnil
    simpa using List.dropWhile_eq_nil_iff.1 hnil 58 hcolon
  rw [valueOf, hdrop, List.drop_append_of_le_length (List.length_pos_iff.2 hne)]

theorem hostOf_valueOf (h : parseHostLine line = some host) :
    hostOf (valueOf line) = some host := by
  by_cases hline : IsHostLine line
  · rwa [parseHostLine_of_isHostLine hline] at h
  · rw [parseHostLine_of_not_isHostLine hline] at h
    cases h

/-- The host of a line is as it was, with more of the line, if and only if it was settled. -/
theorem parseHostLine_append (h : parseHostLine line = some host) (more : Bytes) :
    parseHostLine (line ++ more) = some host ↔ Settled (valueOf line) more := by
  by_cases hline : IsHostLine line
  · obtain ⟨hline', hvalue⟩ := hline.append more
    have hhost := hostOf_valueOf h
    have hne : valueOf line ≠ [] := by
      intro hnil
      rw [hnil] at hhost
      cases hhost
    have happend : valueOf (line ++ more) = valueOf line ++ more := by
      rw [hvalue, List.dropWhile_append]
      exact if_neg fun hnil ↦ hne (List.isEmpty_iff.1 hnil)
    rw [parseHostLine_of_isHostLine hline', happend]
    exact hostOf_append hhost more
  · rw [parseHostLine_of_not_isHostLine hline] at h
    cases h

/-- Half of the end of a line is no part of it. -/
theorem parseHostLine_cr (line : Bytes) : parseHostLine (line ++ [13]) = parseHostLine line := by
  by_cases hline : IsHostLine line
  · obtain ⟨hline', hvalue⟩ := hline.append [13]
    rw [parseHostLine_of_isHostLine hline, parseHostLine_of_isHostLine hline', hvalue,
      List.dropWhile_append]
    split
    · next hnil =>
      have hblank : valueOf line = [] := List.isEmpty_iff.1 hnil
      rw [hblank]
      rfl
    · change hostOf (valueOf line ++ [13]) = _
      rw [hostOf, rdropWhile_append_of_forall (by simp [isTrailing])]
      rfl
  · rw [parseHostLine_of_not_isHostLine hline]
    refine parseHostLine_of_not_isHostLine fun hline' ↦ hline ?_
    obtain ⟨hcolon, hname⟩ := hline'
    have hmem : 58 ∈ line := by simpa using hcolon
    exact ⟨hmem, (takeWhile_append_of_mem hmem [13]).1 ▸ hname⟩

/-! ### A request that is cut off -/

/-- The host that is read of the first bytes of a flow is that of the flow. -/
def Stable (p b : Bytes) : Prop := ∀ host, extractHost p = some host → extractHost b = some host

/-- The bytes are cut off within a line of a `Host` that is the first to name one, before the host
is settled; unless the whole of the name is no text, and a line below has the part as its host. -/
def Unsettled (p b : Bytes) : Prop :=
  StartsRequest p ∧ ∃ init line more rest,
    linesOf 13 10 (p.take maxScan) = init ++ [line] ∧
    linesOf 13 10 (b.take maxScan) = init ++ (line ++ more) :: rest ∧
    (∀ l ∈ init, l ≠ [] ∧ parseHostLine l = none) ∧ parseHostLine line ≠ none ∧
    ¬Settled (valueOf line) more ∧
    ¬(parseHostLine (line ++ more) = none ∧ search rest = parseHostLine line)

theorem StartsRequest.append {p b : Bytes} (hp : p <+: b) (h : StartsRequest p) :
    StartsRequest b := by
  obtain ⟨m, hm, hpre⟩ := h
  exact ⟨m, hm, hpre.trans hp⟩

theorem search_last (line : Bytes) : search [line] = parseHostLine line := by
  by_cases hne : line = []
  · rw [hne]
    rfl
  · rw [search_cons hne]
    cases parseHostLine line <;> rfl

/-- The host of a flow that is cut off is that of the flow, but for a cut within the name. -/
theorem extractHost_stable_iff {p b : Bytes} (hp : p <+: b) : Stable p b ↔ ¬Unsettled p b := by
  by_cases hstart : StartsRequest p
  swap
  · refine iff_of_true (fun host hhost ↦ ?_) fun h ↦ hstart h.1
    rw [extractHost, if_neg hstart] at hhost
    cases hhost
  have hread := extractHost_eq hstart
  have hread' := extractHost_eq (hstart.append hp)
  obtain ⟨t, ht⟩ : p.take maxScan <+: b.take maxScan := hp.take maxScan
  obtain ⟨init, last, hlines, hlast, happend⟩ :=
    linesOf_append (a := 13) (b := 10) (p.take maxScan) t
  rw [ht] at happend
  by_cases hinit : ∀ l ∈ init, l ≠ [] ∧ parseHostLine l = none
  swap
  · -- The search ends before the last line.
    refine iff_of_true (fun host hhost ↦ ?_) ?_
    · rw [hread', happend, search_within hinit _ [last], ← hlines, ← hread]
      exact hhost
    · rintro ⟨-, init', line, more, rest, hlines', -, hinit', -⟩
      rw [hlines, List.append_singleton_inj] at hlines'
      exact hinit (hlines'.1 ▸ hinit')
  have hhost : extractHost p = parseHostLine last := by
    rw [hread, hlines, search_append hinit, search_last]
  rcases linesOf_line_append hlast t with ⟨more, rest, hcut⟩ | ⟨line, rest, rfl, hcut⟩
  · have hhost' : extractHost b = search ((last ++ more) :: rest) := by
      rw [hread', happend, hcut, search_append hinit]
    cases hname : parseHostLine last with
    | none =>
      rw [hname] at hhost
      refine iff_of_true (fun host h ↦ by rw [hhost] at h; cases h) ?_
      rintro ⟨-, init', line, more', rest', hlines', -, -, hsome, -⟩
      rw [hlines, List.append_singleton_inj] at hlines'
      exact hsome (hlines'.2 ▸ hname)
    | some host =>
      have hne : last ++ more ≠ [] := by
        intro hnil
        rw [(List.append_eq_nil_iff.1 hnil).1] at hname
        cases hname
      have hiff : Stable p b ↔ Settled (valueOf last) more ∨
          parseHostLine (last ++ more) = none ∧ search rest = some host := by
        rw [Stable, hhost, hname, hhost', search_cons hne, ← parseHostLine_append hname more]
        constructor
        · intro h
          exact Option.or_eq_some_iff.1 (h host rfl)
        · rintro h _ ⟨⟩
          exact Option.or_eq_some_iff.2 h
      rw [hiff]
      constructor
      · rintro h ⟨-, init', line, more', rest', hlines', hcut', -, -, hsettled, hbelow⟩
        rw [hlines, List.append_singleton_inj] at hlines'
        obtain ⟨rfl, rfl⟩ := hlines'
        rw [happend, hcut, List.append_cancel_left_eq, List.cons_eq_cons,
          List.append_cancel_left_eq] at hcut'
        obtain ⟨rfl, rfl⟩ := hcut'
        rcases h with h | h
        · exact hsettled h
        · exact hbelow (hname ▸ h)
      · intro h
        by_contra hnot
        obtain ⟨hsettled, hbelow⟩ := not_or.1 hnot
        exact h ⟨hstart, init, last, more, rest, hlines, happend.trans (congrArg _ hcut), hinit,
          by simp [hname], hsettled, hname ▸ hbelow⟩
  · -- The cut is within the end of the line.
    refine iff_of_true (fun host h ↦ ?_) ?_
    · rw [hhost, parseHostLine_cr] at h
      have hne : line ≠ [] := by
        rintro rfl
        cases h
      rw [hread', happend, hcut, search_append hinit, search_cons hne, h, Option.some_or]
    · rintro ⟨-, init', line', more', rest', hlines', hcut', -⟩
      rw [hlines, List.append_singleton_inj] at hlines'
      obtain ⟨rfl, rfl⟩ := hlines'
      rw [happend, hcut, List.append_cancel_left_eq, List.cons_eq_cons] at hcut'
      have hlen := congrArg List.length hcut'.1
      simp at hlen

/-- A request, up to some of its `Host`. -/
def request (host : String) : Bytes := utf8 ("GET / HTTP/1.1\r\nHost: " ++ host).toList

theorem extractHost_stable_sample :
    request "exam" <+: request "example.com\r\n\r\n" ∧
      (Stable (request "exam") (request "example.com\r\n\r\n") ↔
        ¬Unsettled (request "exam") (request "example.com\r\n\r\n")) :=
  ⟨by decide, extractHost_stable_iff (by decide)⟩

/-- A peek that ends within the name has a host that is not that of the request. -/
theorem host_cut_off : ¬∀ p b : Bytes, p <+: b → Stable p b := by
  intro h
  have hpart : extractHost (request "exam") = some "exam".toList := by
    rw [extractHost_eq (by decide)]
    decide
  have hwhole : extractHost (request "example.com\r\n\r\n") = some "example.com".toList := by
    rw [extractHost_eq (by decide)]
    decide
  have hstable := h (request "exam") (request "example.com\r\n\r\n") (by decide) _ hpart
  rw [hwhole] at hstable
  exact absurd hstable (by decide)

end Hole.Filter
