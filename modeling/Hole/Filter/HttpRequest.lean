import Hole.Filter.HttpHost
import Hole.Net.Octets

/-!
# The `Host` of a whole request

What `extract_host` makes of a request that is there to the end of its headers: the host of the
first header that gives one, whatever its target and its body (`extractHost_request`). A value that
has no host, as one whose bracket is not closed, is passed over.

Every slice that `extract_host` takes is there, and its loop ends: `extractHostChecked` follows the
source slice by slice, and returns on every input.
-/

namespace Hole.Filter

open Text

/-! ### Requests -/

/-- A header: a line with a colon. -/
structure Header where
  name : Bytes
  value : Bytes
  colon_not_mem : 58 ∉ name
  name_unbroken : ¬crlf <:+: name
  value_unbroken : 13 ∉ value ∧ 10 ∉ value

/-- The line of a header. -/
def Header.line (h : Header) : Bytes := h.name ++ 58 :: h.value

/-- A request of HTTP/1.x, to the end of its headers. -/
structure Request where
  method : Bytes
  target : Bytes
  minor : UInt8
  headers : List Header
  method_mem : method ∈ methods
  target_unbroken : 13 ∉ target ∧ 10 ∉ target
  minor_digit : 48 ≤ minor ∧ minor ≤ 57

namespace Request

/-- ` HTTP/1.` -/
def version : Bytes := [32, 72, 84, 84, 80, 47, 49, 46]

variable (r : Request)

/-- The first line. -/
def requestLine : Bytes := r.method ++ (r.target ++ (version ++ [r.minor]))

/-- The bytes, up to the empty line. -/
def head : Bytes := r.requestLine ++ (crlf ++ (r.headers.flatMap (fun h ↦ h.line ++ crlf) ++ crlf))

end Request

/-! ### What a header gives -/

/-- A value, without the white space around it. -/
def trimBlanks (value : Bytes) : Bytes := (value.dropWhile isBlank).rdropWhile isBlank

/-- The host of a value: what stands before its port, or between its brackets. -/
def HostPart (value host : Bytes) : Prop :=
  (value.head? ≠ some 91 ∧ 58 ∉ host ∧ (value = host ∨ ∃ port, value = host ++ 58 :: port)) ∨
    ∃ rest, value = 91 :: (host ++ 93 :: rest) ∧ 93 ∉ host

/-- The header is a `Host`, in any case, and its value has a host, which is a text. -/
def Header.Gives (h : Header) (host : List Char) : Prop :=
  h.name.map asciiLower = [104, 111, 115, 116] ∧
    ∃ bytes s, HostPart (trimBlanks h.value) bytes ∧ bytes ≠ [] ∧ readUtf8 bytes = some s ∧
      toAsciiLowercase s = host

/-- The first header that gives a host gives this one. -/
def FirstGives (headers : List Header) (host : List Char) : Prop :=
  ∃ pre h post, headers = pre ++ h :: post ∧ h.Gives host ∧ ∀ h' ∈ pre, ∀ host', ¬h'.Gives host'

theorem takeWhile_colon {name : Bytes} (h : 58 ∉ name) (more : Bytes) :
    (name ++ 58 :: more).takeWhile (· != 58) = name ∧
      (name ++ 58 :: more).dropWhile (· != 58) = 58 :: more := by
  have hname : ∀ c ∈ name, (c != 58) = true := fun c hc ↦ by
    simpa using ne_of_mem_of_not_mem hc h
  constructor
  · rw [List.takeWhile_append_of_pos hname, List.takeWhile_cons_of_neg (by simp), List.append_nil]
  · rw [List.dropWhile_append_of_pos hname, List.dropWhile_cons_of_neg (by simp)]

theorem hostBytes_of_hostPart {value host : Bytes} (hne : host ≠ []) (h : HostPart value host) :
    hostBytes value = some host := by
  rcases h with ⟨hhead, hport, rfl | ⟨port, rfl⟩⟩ | ⟨rest, rfl, hclose⟩
  · rw [hostBytes, if_neg hhead, List.takeWhile_eq_self_iff.2]
    exact fun c hc ↦ by simpa using ne_of_mem_of_not_mem hc hport
  · rw [hostBytes, if_neg hhead, (takeWhile_colon hport port).1]
  · have hfind : (91 :: (host ++ 93 :: rest)).findIdx? (· == 93) = some (host.length + 1) := by
      rw [List.findIdx?_cons, if_neg (by decide), List.findIdx?_append,
        List.findIdx?_eq_none_iff.2 fun c hc ↦ by simpa using ne_of_mem_of_not_mem hc hclose,
        List.findIdx?_cons, if_pos (by decide)]
      simp
    have hpos := List.length_pos_iff.2 hne
    rw [hostBytes, if_pos (List.head?_cons ..), hfind]
    dsimp only
    rw [if_pos (by omega), List.take_succ_cons, List.take_left, List.drop_one, List.tail_cons]

theorem hostPart_of_hostBytes {value host : Bytes} (h : hostBytes value = some host) :
    HostPart value host := by
  rw [hostBytes] at h
  split at h
  · next hhead =>
    obtain ⟨tail, rfl⟩ : ∃ tail, value = 91 :: tail := by
      cases value with
      | nil => cases hhead
      | cons c tail => exact ⟨tail, by rw [Option.some.inj hhead]⟩
    split at h
    · next close hclose =>
      split at h
      · next hle =>
        right
        obtain ⟨k, rfl⟩ : ∃ k, close = k + 1 := ⟨close - 1, by omega⟩
        obtain ⟨hlt, hat, hfirst⟩ := List.findIdx?_eq_some_iff_getElem.1 hclose
        have hlt' : k < tail.length := Nat.lt_of_succ_lt_succ hlt
        rw [List.take_succ_cons, List.drop_one, List.tail_cons] at h
        cases h
        have hat' : tail[k] = 93 := by simpa using hat
        refine ⟨tail.drop (k + 1), ?_, fun hmem ↦ ?_⟩
        · rw [← hat', ← List.drop_eq_getElem_cons hlt', List.take_append_drop]
        · obtain ⟨i, hi, hget⟩ := List.getElem_of_mem hmem
          rw [List.length_take] at hi
          have hne := hfirst (i + 1) (by omega)
          rw [List.getElem_take] at hget
          simp [hget] at hne
      · cases h
    · cases h
  · next hhead =>
    cases h
    have hport : 58 ∉ value.takeWhile (· != 58) := fun hmem ↦ by
      simpa using List.mem_takeWhile_imp hmem
    refine .inl ⟨hhead, hport, ?_⟩
    have hsplit := List.takeWhile_append_dropWhile (p := (· != (58 : UInt8))) (l := value)
    cases hafter : value.dropWhile (· != 58) with
    | nil =>
      rw [hafter, List.append_nil] at hsplit
      exact .inl hsplit.symm
    | cons c port =>
      have hc : (c != 58) = false := by
        have hnot := List.head_dropWhile_not (p := (· != (58 : UInt8))) (l := value)
          (by simp [hafter])
        simpa [hafter] using hnot
      obtain rfl : c = 58 := by simpa using hc
      rw [hafter] at hsplit
      exact .inr ⟨port, hsplit.symm⟩

/-- Without the half of a CRLF, the two ways to trim the end of a value agree. -/
theorem rdropWhile_isTrailing {value : Bytes} (h : 13 ∉ value) :
    value.rdropWhile isTrailing = value.rdropWhile isBlank := by
  induction value using List.reverseRecOn with
  | nil => rfl
  | append_singleton value c ih =>
    have hc : isTrailing c = isBlank c := by
      have hne : c ≠ 13 := fun hc ↦ h (by simp [hc])
      simp [isTrailing, isBlank, hne]
    by_cases hblank : isBlank c = true
    · rw [List.rdropWhile_concat_pos _ _ _ hblank, List.rdropWhile_concat_pos _ _ _ (hc ▸ hblank)]
      exact ih fun hmem ↦ h (List.mem_append_left _ hmem)
    · rw [List.rdropWhile_concat_neg _ _ _ hblank, List.rdropWhile_concat_neg _ _ _ (hc ▸ hblank)]

/-- **A header line** is read as the header. -/
theorem parseHostLine_line (h : Header) {host : List Char} :
    parseHostLine h.line = some host ↔ h.Gives host := by
  obtain ⟨hname, hafter⟩ := takeWhile_colon h.colon_not_mem h.value
  have hcr : 13 ∉ h.value.dropWhile isBlank := fun hmem ↦
    h.value_unbroken.1 ((List.dropWhile_suffix isBlank).subset hmem)
  rw [parseHostLine, Header.line, hafter, hname, Header.Gives]
  rw [Option.ite_none_right_eq_some, hostOf_eq_some, rdropWhile_isTrailing hcr]
  refine and_congr_right fun _ ↦ ⟨?_, ?_⟩
  · rintro ⟨bytes, hbytes, hne, s, hs, hhost⟩
    exact ⟨bytes, s, hostPart_of_hostBytes hbytes, hne, hs, hhost⟩
  · rintro ⟨bytes, s, hpart, hne, hs, hhost⟩
    exact ⟨bytes, hostBytes_of_hostPart hne hpart, hne, s, hs, hhost⟩

/-! ### The lines of a request -/

theorem not_crlf_infix {l : Bytes} (h : 10 ∉ l) : ¬crlf <:+: l :=
  fun hin ↦ h (hin.subset (by decide))

theorem Header.not_crlf_infix_line (h : Header) : ¬crlf <:+: h.line := by
  rintro ⟨before, after, heq⟩
  have hsplit : before ++ (13 :: 10 :: after) = h.name ++ 58 :: h.value := by
    rw [← Header.line, ← heq, List.append_assoc]
    rfl
  rcases List.append_eq_append_iff.1 hsplit with ⟨mid, hname, htail⟩ | ⟨mid, -, htail⟩
  · -- it begins within the name
    match mid, htail with
    | [], htail => cases (List.cons.inj htail).1
    | [c], htail => cases (List.cons.inj (List.cons.inj htail).2).1
    | c :: d :: mid, htail =>
      obtain ⟨rfl, hcons⟩ := List.cons.inj htail
      obtain ⟨rfl, -⟩ := List.cons.inj hcons
      exact h.name_unbroken ⟨before, mid, by rw [hname, List.append_assoc]; rfl⟩
  · -- it begins behind it
    cases mid with
    | nil => cases (List.cons.inj htail).1
    | cons c mid =>
      refine h.value_unbroken.1 ?_
      rw [(List.cons.inj htail).2]
      exact List.mem_append_right _ (.head _)

theorem Request.not_crlf_infix_requestLine (r : Request) : ¬crlf <:+: r.requestLine := by
  refine not_crlf_infix fun hmem ↦ ?_
  have hmethods : ∀ m ∈ methods, (10 : UInt8) ∉ m := by decide
  simp only [requestLine, List.mem_append, List.mem_singleton] at hmem
  rcases hmem with hmem | hmem | hmem | hmem
  · exact hmethods _ r.method_mem hmem
  · exact r.target_unbroken.2 hmem
  · exact absurd hmem (by decide)
  · have hdigit := r.minor_digit.1
    rw [← hmem] at hdigit
    exact absurd hdigit (by decide)

/-- No method is the name of a header. -/
theorem Request.parseHostLine_requestLine (r : Request) : parseHostLine r.requestLine = none := by
  refine parseHostLine_of_not_isHostLine ?_
  rintro ⟨-, hname⟩
  have hmethods : methods.all (fun m ↦ m.all (· != 58)) = true := by decide
  have hcolon : ∀ c ∈ r.method, (c != 58) = true :=
    List.all_eq_true.1 (List.all_eq_true.1 hmethods _ r.method_mem)
  have hnotHost : ∀ m ∈ methods, m.map asciiLower ≠ [104, 111, 115, 116].take m.length := by decide
  rw [requestLine, List.takeWhile_append_of_pos hcolon, List.map_append] at hname
  refine hnotHost _ r.method_mem ?_
  rw [← hname, List.take_left' (List.length_map ..)]

theorem linesOf_headers (headers : List Header) (rest : Bytes) :
    linesOf 13 10 (headers.flatMap (fun h ↦ h.line ++ crlf) ++ rest) =
      headers.map Header.line ++ linesOf 13 10 rest := by
  induction headers with
  | nil => rfl
  | cons h headers ih =>
    rw [List.flatMap_cons, List.append_assoc, List.append_assoc, List.map_cons, List.cons_append,
      ← ih]
    exact linesOf_line crlf_ne h.not_crlf_infix_line _

/-- The lines of what begins with a request: those of its head, and an empty one behind them. -/
theorem Request.linesOf_head (r : Request) (rest : Bytes) :
    linesOf 13 10 (r.head ++ rest) =
      r.requestLine :: (r.headers.map Header.line ++ [] :: linesOf 13 10 rest) := by
  have hfirst := linesOf_line crlf_ne r.not_crlf_infix_requestLine
    (r.headers.flatMap (fun h ↦ h.line ++ crlf) ++ (crlf ++ rest))
  rw [linesOf_headers] at hfirst
  simp only [head, List.append_assoc]
  exact hfirst.trans (congrArg (fun ls ↦ r.requestLine :: (r.headers.map Header.line ++ ls))
    (linesOf_pair rest))

theorem Header.line_ne_nil (h : Header) : h.line ≠ [] :=
  List.append_ne_nil_of_right_ne_nil _ (List.cons_ne_nil _ _)

theorem search_lines (headers : List Header) (others : List Bytes) :
    search (headers.map Header.line ++ [] :: others) =
      headers.findSome? fun h ↦ parseHostLine h.line := by
  induction headers with
  | nil => rfl
  | cons h headers ih =>
    rw [List.map_cons, List.cons_append, search_cons h.line_ne_nil, ih, List.findSome?_cons]
    cases parseHostLine h.line <;> rfl

theorem Request.startsRequest (r : Request) (rest : Bytes) : StartsRequest (r.head ++ rest) := by
  refine ⟨r.method, r.method_mem, ?_⟩
  rw [head, requestLine, List.append_assoc, List.append_assoc]
  exact List.prefix_append _ _

theorem Request.extractHost_head (r : Request) (hlen : r.head.length ≤ maxScan) (body : Bytes) :
    extractHost (r.head ++ body) = r.headers.findSome? fun h ↦ parseHostLine h.line := by
  have hne : r.requestLine ≠ [] := fun hnil ↦ by
    have hlast : r.minor ∈ r.requestLine := by simp [requestLine]
    rw [hnil] at hlast
    cases hlast
  rw [extractHost_eq (r.startsRequest body), List.take_append, List.take_of_length_le hlen,
    r.linesOf_head, search_cons hne, r.parseHostLine_requestLine, Option.none_or, search_lines]

theorem findSome?_eq_some_iff_firstGives (headers : List Header) (host : List Char) :
    headers.findSome? (fun h ↦ parseHostLine h.line) = some host ↔ FirstGives headers host := by
  rw [List.findSome?_eq_some_iff]
  constructor
  · rintro ⟨pre, h, post, rfl, hhost, hnone⟩
    refine ⟨pre, h, post, rfl, (parseHostLine_line h).1 hhost, fun h' hmem host' hgives ↦ ?_⟩
    cases (hnone h' hmem).symm.trans ((parseHostLine_line h').2 hgives)
  · rintro ⟨pre, h, post, rfl, hgives, hnone⟩
    refine ⟨pre, h, post, rfl, (parseHostLine_line h).2 hgives, fun h' hmem ↦ ?_⟩
    exact Option.eq_none_iff_forall_ne_some.2 fun host' hhost ↦
      hnone h' hmem host' ((parseHostLine_line h').1 hhost)

/-! ### Slices -/

/-- `hostBytes`, slice by slice. -/
def hostBytesChecked (value : Bytes) : Option (Option Bytes) :=
  if value.head? = some 91 then
    match value.findIdx? (· == 93) with
    | some close => if 2 ≤ close then (slice value 1 close).map some else some none
    | none => some none
  else
    match value.findIdx? (· == 58) with
    | some p => (slice value 0 p).map some
    | none => some (some value)

/-- `parse_host_line`, slice by slice. -/
def parseHostLineChecked (line : Bytes) : Option (Option (List Char)) :=
  match line.findIdx? (· == 58) with
  | none => some none
  | some colon => do
    let name ← slice line 0 colon
    if name.map asciiLower = [104, 111, 115, 116] then
      let value ← slice line (colon + 1) line.length
      let host ← hostBytesChecked ((value.dropWhile isBlank).rdropWhile isTrailing)
      return host.bind fun bytes ↦
        if bytes = [] then none else (readUtf8 bytes).map toAsciiLowercase
    else return none

/-- The loop of `extract_host`, slice by slice, for some rounds. -/
def scanHostChecked (region : Bytes) : Nat → Nat → Option (Option (List Char))
  | 0, _ => none
  | rounds + 1, cursor =>
    if cursor < region.length then do
      let found := (findSubslice crlf (← slice region cursor region.length)).map (cursor + ·)
      let lineEnd := found.getD region.length
      match ← parseHostLineChecked (← slice region cursor lineEnd) with
      | some value => return some value
      | none =>
        if region.length ≤ lineEnd then return none
        else scanHostChecked region rounds (lineEnd + 2)
    else return none

/-- `extract_host`, slice by slice. -/
def extractHostChecked (buf : Bytes) : Option (Option (List Char)) :=
  if StartsRequest buf then do
    let scan ← slice buf 0 (min buf.length maxScan)
    let region ← slice scan 0 ((findSubslice (crlf ++ crlf) scan).getD scan.length)
    scanHostChecked region (region.length + 1) 0
  else some none

/-- The bytes before the first `c`. -/
theorem takeWhile_of_findIdx? {c : UInt8} {l : Bytes} {i : Nat} (h : l.findIdx? (· == c) = some i) :
    i < l.length ∧ l.takeWhile (· != c) = l.take i ∧ l.dropWhile (· != c) = l.drop i ∧
      l[i]? = some c := by
  induction l generalizing i with
  | nil => cases h
  | cons d l ih =>
    rw [List.findIdx?_cons] at h
    by_cases hd : d = c
    · subst hd
      rw [if_pos (by simp)] at h
      cases h
      simp
    · rw [if_neg (by simpa using hd)] at h
      obtain ⟨i, hi, rfl⟩ := Option.map_eq_some_iff.1 h
      obtain ⟨hlt, htake, hdrop, hat⟩ := ih hi
      rw [List.takeWhile_cons_of_pos (by simpa using hd),
        List.dropWhile_cons_of_pos (by simpa using hd)]
      exact ⟨Nat.succ_lt_succ hlt, congrArg (d :: ·) htake, hdrop, hat⟩

theorem takeWhile_of_findIdx?_none {c : UInt8} {l : Bytes} (h : l.findIdx? (· == c) = none) :
    l.takeWhile (· != c) = l ∧ l.dropWhile (· != c) = [] := by
  have hall : ∀ d ∈ l, (d != c) = true := fun d hd ↦ by
    simpa using List.findIdx?_eq_none_iff.1 h d hd
  exact ⟨List.takeWhile_eq_self_iff.2 hall, List.dropWhile_eq_nil_iff.2 hall⟩

theorem hostBytesChecked_eq (value : Bytes) : hostBytesChecked value = some (hostBytes value) := by
  rw [hostBytesChecked, hostBytes]
  split
  · cases hclose : value.findIdx? (· == 93) with
    | none => rfl
    | some close =>
      dsimp only
      split
      · next hle =>
        rw [slice_eq (by omega) (takeWhile_of_findIdx? hclose).1.le]
        rfl
      · rfl
  · cases hport : value.findIdx? (· == 58) with
    | none => rw [(takeWhile_of_findIdx?_none hport).1]
    | some p =>
      obtain ⟨hlt, htake, -, -⟩ := takeWhile_of_findIdx? hport
      dsimp only
      rw [slice_eq (Nat.zero_le p) hlt.le, htake]
      rfl

theorem parseHostLineChecked_eq (line : Bytes) :
    parseHostLineChecked line = some (parseHostLine line) := by
  rw [parseHostLineChecked, parseHostLine]
  cases hcolon : line.findIdx? (· == 58) with
  | none => rw [(takeWhile_of_findIdx?_none hcolon).2]
  | some colon =>
    obtain ⟨hlt, htake, hdrop, hat⟩ := takeWhile_of_findIdx? hcolon
    have hsplit : line.drop colon = 58 :: line.drop (colon + 1) := by
      rw [List.drop_eq_getElem_cons hlt]
      congr 1
      exact Option.some.inj ((List.getElem?_eq_getElem hlt).symm.trans hat)
    rw [hdrop, htake, hsplit]
    dsimp only
    rw [slice_eq (Nat.zero_le colon) hlt.le, Option.bind_eq_bind, Option.bind_some, List.drop_zero]
    split
    · rw [slice_eq hlt (Nat.le_refl _), Option.bind_eq_bind, Option.bind_some, List.take_length,
        hostBytesChecked_eq]
      rfl
    · rfl

/-- **The loop ends**, and every slice is there. -/
theorem scanHostChecked_eq {region : Bytes} {rounds cursor : Nat} (hc : cursor ≤ region.length)
    (hrounds : region.length < cursor + rounds) :
    scanHostChecked region rounds cursor = some (scanHost (region.drop cursor)) := by
  induction rounds generalizing cursor with
  | zero => omega
  | succ rounds ih =>
    rw [scanHostChecked, scanHost]
    by_cases hlt : cursor < region.length
    · have hne : region.drop cursor ≠ [] := by
        intro hnil
        have hlen := List.drop_eq_nil_iff.1 hnil
        omega
      rw [if_pos hlt, dif_neg hne, slice_eq hc (Nat.le_refl _), List.take_length]
      cases hfind : findSubslice crlf (region.drop cursor) with
      | none =>
        simp only [Option.bind_eq_bind, Option.bind_some, Option.map_none, Option.getD_none,
          slice_eq hc (Nat.le_refl _), List.take_length, parseHostLineChecked_eq, hfind]
        cases parseHostLine (region.drop cursor) with
        | some value => rfl
        | none =>
          rw [if_pos (Nat.le_refl _)]
          rfl
      | some i =>
        have hat := ((findSubslice_eq_some (by simp [crlf])).1 hfind).1.length_le
        simp only [crlf, List.length_cons, List.length_nil, List.length_drop] at hat
        have hend : cursor + i ≤ region.length := by omega
        have hline : (region.take (cursor + i)).drop cursor = (region.drop cursor).take i := by
          rw [List.drop_take, Nat.add_sub_cancel_left]
        simp only [Option.bind_eq_bind, Option.bind_some, Option.map_some, Option.getD_some,
          slice_eq (Nat.le_add_right cursor i) hend, hline, parseHostLineChecked_eq, hfind]
        cases parseHostLine ((region.drop cursor).take i) with
        | some value => rfl
        | none =>
          rw [if_neg (by omega), ih (by omega) (by omega), List.drop_drop, Nat.add_assoc]
    · have hnil : region.drop cursor = [] := List.drop_eq_nil_iff.2 (by omega)
      rw [if_neg hlt, dif_pos hnil]
      rfl

theorem extractHostChecked_eq (buf : Bytes) : extractHostChecked buf = some (extractHost buf) := by
  rw [extractHostChecked, extractHost]
  split
  · have hscan : (buf.take (min buf.length maxScan)) = buf.take maxScan := by
      rw [Nat.min_comm, ← List.take_take, List.take_length]
    have hwithin : (findSubslice (crlf ++ crlf) (buf.take maxScan)).getD (buf.take maxScan).length ≤
        (buf.take maxScan).length := by
      cases hfind : findSubslice (crlf ++ crlf) (buf.take maxScan) with
      | none => exact Nat.le_refl _
      | some k =>
        have hlen := ((findSubslice_eq_some (by simp [crlf])).1 hfind).1.length_le
        simp only [crlf, List.length_append, List.length_cons, List.length_nil,
          List.length_drop] at hlen
        rw [Option.getD_some]
        omega
    rw [slice_eq (Nat.zero_le _) (Nat.min_le_left _ _), Option.bind_eq_bind, Option.bind_some,
      List.drop_zero, hscan, slice_eq (Nat.zero_le _) hwithin, Option.bind_some,
      List.drop_zero]
    exact scanHostChecked_eq (Nat.zero_le _) (by omega)
  · rfl

/-- **The host of a request** is that of the first header that gives one, whatever its target and
its body. On no input does `extract_host` panic, and on none does it go on forever. -/
theorem extractHost_request (r : Request) (hlen : r.head.length ≤ maxScan) (body : Bytes) :
    (∀ host, extractHost (r.head ++ body) = some host ↔ FirstGives r.headers host) ∧
      (extractHost (r.head ++ body) = none ↔ ∀ h ∈ r.headers, ∀ host, ¬h.Gives host) ∧
      ∀ buf, extractHostChecked buf = some (extractHost buf) := by
  rw [r.extractHost_head hlen]
  refine ⟨findSome?_eq_some_iff_firstGives r.headers, ?_, extractHostChecked_eq⟩
  rw [List.findSome?_eq_none_iff]
  refine forall₂_congr fun h _ ↦ ?_
  rw [Option.eq_none_iff_forall_ne_some]
  exact forall_congr' fun host ↦ not_congr (parseHostLine_line h)

/-- `GET /?host:x HTTP/1.1`, with one `Host`. -/
def lone (value : Bytes) (hvalue : 13 ∉ value ∧ 10 ∉ value) : Request where
  method := utf8 "GET ".toList
  target := utf8 "/?host:x".toList
  minor := 49
  headers := [⟨utf8 "Host".toList, value, by decide, by decide, hvalue⟩]
  method_mem := by decide
  target_unbroken := by decide
  minor_digit := by decide

theorem extractHost_lone :
    (lone (utf8 " Example.com:80 ".toList) (by decide)).head.length ≤ maxScan ∧
      FirstGives (lone (utf8 " Example.com:80 ".toList) (by decide)).headers
        "example.com".toList := by
  have hlen : (lone (utf8 " Example.com:80 ".toList) (by decide)).head.length ≤ maxScan := by decide
  refine ⟨hlen, ((extractHost_request _ hlen []).1 _).1 ?_⟩
  rw [Request.extractHost_head _ hlen]
  decide

/-- **A value may be a text and have no host**, if its bracket is not closed; and it may have a host
and be no text, behind its port. -/
theorem value_without_host :
    (readUtf8 (utf8 "[::1".toList)).isSome = true ∧
      extractHost (lone (utf8 "[::1".toList) (by decide)).head = none ∧
      readUtf8 (utf8 "a:".toList ++ [0xff]) = none ∧
      extractHost (lone (utf8 "a:".toList ++ [0xff]) (by decide)).head = some "a".toList := by
  refine ⟨by decide, ?_, by decide, ?_⟩
  · rw [extractHost_eq (by decide)]
    decide
  · rw [extractHost_eq (by decide)]
    decide

end Hole.Filter
