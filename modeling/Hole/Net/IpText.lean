import Hole.Net.IpAddr
import Hole.Text.Lines
import Hole.Text.Numeral

/-!
# Reading an address back

`IpAddr.read` reads an address literal the way `inet_pton` does: a dotted quad, or colon-separated
groups of hexadecimal digits in which one `::` stands for the missing groups and a dotted quad may
stand for the last two.

The `Display` text of an address goes into rules and commands that other programs parse.
**It reads back as the address** (`read_display`), so what they act on is the address meant. The
compressed form needs the loop of the formatter: the span it cuts out is one of zeros
(`zeroRun_zeroSpan`).
-/

namespace Hole.IpAddr

open Text

/-! ### Reading -/

/-- An octet: at most three decimal digits. -/
def readOctet (cs : List Char) : Option Nat :=
  if cs.length ≤ 3 then (readNat 10 cs).filter (· < 256) else none

/-- A dotted quad. -/
def readV4 (cs : List Char) : Option (BitVec 32) :=
  match (cs.splitOn '.').mapM readOctet with
  | some [a, b, c, d] => some (BitVec.ofNat 32 (a * 2 ^ 24 + b * 2 ^ 16 + c * 2 ^ 8 + d))
  | _ => none

/-- A group: at most four hexadecimal digits. -/
def readGroup (cs : List Char) : Option Nat :=
  if cs.length ≤ 4 then readNat 16 cs else none

/-- The groups before a `::`. -/
def readGroups : List Char → Option (List Nat)
  | [] => some []
  | cs => (cs.splitOn ':').mapM readGroup

/-- Groups of which the last may be a dotted quad. -/
def readTail : List (List Char) → Option (List Nat)
  | [] => some []
  | [cs] =>
    if '.' ∈ cs then (readV4 cs).map fun b ↦ [b.toNat / 65536, b.toNat % 65536]
    else (readGroup cs).map ([·])
  | cs :: rest => (readGroup cs).bind fun g ↦ (readTail rest).map (g :: ·)

/-- The groups after a `::`. -/
def readLast : List Char → Option (List Nat)
  | [] => some []
  | cs => readTail (cs.splitOn ':')

/-- The text before and after the first `::`. -/
def splitDouble : List Char → Option (List Char × List Char)
  | ':' :: ':' :: rest => some ([], rest)
  | c :: rest => (splitDouble rest).map fun (before, after) ↦ (c :: before, after)
  | [] => none

/-- The address of eight groups. -/
def ofSegments (segs : List Nat) : BitVec 128 :=
  BitVec.ofNat 128 (segs.foldl (fun n seg ↦ n * 65536 + seg) 0)

/-- A v6 literal. -/
def readV6 (cs : List Char) : Option (BitVec 128) :=
  match splitDouble cs with
  | some (before, after) =>
    (readGroups before).bind fun l ↦ (readLast after).bind fun r ↦
      if l.length + r.length < 8 then
        some (ofSegments (l ++ List.replicate (8 - (l.length + r.length)) 0 ++ r))
      else none
  | none => (readLast cs).bind fun l ↦ if l.length = 8 then some (ofSegments l) else none

/-- An address literal. -/
def read (text : String) : Option IpAddr :=
  if ':' ∈ text.toList then (readV6 text.toList).map v6 else (readV4 text.toList).map v4

/-! ### v4 -/

theorem toList_displayV4 (b : BitVec 32) :
    (displayV4 b).toList = ['.'].intercalate ((octets b).map (Nat.toDigits 10)) := by
  simp [displayV4, String.toList_intercalate, Function.comp_def]

theorem readOctet_toDigits {n : Nat} (hn : n < 256) : readOctet (Nat.toDigits 10 n) = some n := by
  have hlen : (Nat.toDigits 10 n).length ≤ 3 := by
    rw [Nat.length_toDigits_le_iff (by omega) (by omega)]
    omega
  rw [readOctet, if_pos hlen, readNat_toDigits (by omega) (by omega)]
  simp [hn]

/-- The parts of a dotted quad are its octets. -/
theorem splitOn_displayV4 (b : BitVec 32) :
    (displayV4 b).toList.splitOn '.' = (octets b).map (Nat.toDigits 10) := by
  rw [toList_displayV4, List.splitOn_intercalate]
  · intro l hl
    obtain ⟨n, -, rfl⟩ := List.mem_map.1 hl
    exact not_mem_toDigits (by omega) (by omega) (by decide)
  · simp [octets]

theorem readV4_displayV4 (b : BitVec 32) : readV4 (displayV4 b).toList = some b := by
  have hread : ((octets b).map (Nat.toDigits 10)).mapM readOctet = some (octets b) := by
    simp [octets, readOctet_toDigits, Nat.mod_lt]
  rw [readV4, splitOn_displayV4, hread]
  simp only [octets, List.map_cons, List.map_nil, Option.some.injEq]
  have hlt := b.isLt
  rw [← BitVec.toNat_inj, BitVec.toNat_ofNat]
  omega

/-! ### The span of zeros -/

/-- The segments of a span, its start and its length, are zero. -/
def ZeroRun (segs : List Nat) (span : Nat × Nat) : Prop :=
  ∀ k, span.1 ≤ k → k < span.1 + span.2 → segs[k]? = some 0

/-- The current span, grown by the segment at `i`. -/
def grow (i : Nat) (current : Nat × Nat) : Nat × Nat :=
  if current.2 = 0 then (i, 1) else (current.1, current.2 + 1)

/-- One round of the loop of `zeroSpan`. -/
def spanStep (st : (Nat × Nat) × (Nat × Nat)) (item : Nat × Nat) : (Nat × Nat) × (Nat × Nat) :=
  if item.1 = 0 then
    (if (grow item.2 st.2).2 > st.1.2 then grow item.2 st.2 else st.1, grow item.2 st.2)
  else (st.1, (0, 0))

/-- What the loop keeps: both spans are of zeros, and the current one ends where the loop is. -/
structure SpanInv (segs : List Nat) (i : Nat) (st : (Nat × Nat) × (Nat × Nat)) : Prop where
  longest : ZeroRun segs st.1
  current : ZeroRun segs st.2
  ends : st.2.2 ≠ 0 → st.2.1 + st.2.2 = i

variable {segs : List Nat}

theorem zeroRun_grow {i : Nat} {current : Nat × Nat} (hseg : segs[i]? = some 0)
    (h : ZeroRun segs current) (hends : current.2 ≠ 0 → current.1 + current.2 = i) :
    ZeroRun segs (grow i current) ∧ (grow i current).1 + (grow i current).2 = i + 1 := by
  unfold grow
  split
  · refine ⟨fun k hk hlt ↦ ?_, rfl⟩
    obtain rfl : k = i := by
      dsimp only at hk hlt
      omega
    exact hseg
  · next hcurrent =>
    have hends := hends hcurrent
    refine ⟨fun k hk hlt ↦ ?_, by dsimp only; omega⟩
    dsimp only at hk hlt
    rcases Nat.lt_or_ge k (current.1 + current.2) with hlt' | hge
    · exact h k hk hlt'
    · obtain rfl : k = i := by omega
      exact hseg

theorem spanInv_step {i seg : Nat} {st : (Nat × Nat) × (Nat × Nat)} (hseg : segs[i]? = some seg)
    (h : SpanInv segs i st) : SpanInv segs (i + 1) (spanStep st (seg, i)) := by
  unfold spanStep
  split
  · next hzero =>
    obtain rfl : seg = 0 := hzero
    obtain ⟨hgrown, hends⟩ := zeroRun_grow hseg h.current h.ends
    constructor
    case longest =>
      split
      · exact hgrown
      · exact h.longest
    case current => exact hgrown
    case ends => exact fun _ ↦ hends
  · exact ⟨h.longest, fun k _ hlt ↦ absurd hlt (by dsimp only; omega), fun hne ↦ absurd rfl hne⟩

theorem spanInv_foldl {segs rest : List Nat} {i : Nat} {st : (Nat × Nat) × (Nat × Nat)}
    (hrest : segs.drop i = rest) (h : SpanInv segs i st) :
    SpanInv segs (i + rest.length) ((rest.zipIdx i).foldl spanStep st) := by
  induction rest generalizing i st with
  | nil => exact h
  | cons seg rest ih =>
    have hseg : segs[i]? = some seg := by
      rw [← List.head?_drop, hrest]
      rfl
    have hdrop : segs.drop (i + 1) = rest := by
      rw [← List.tail_drop, hrest]
      rfl
    have hrun := ih hdrop (spanInv_step hseg h)
    rw [List.zipIdx_cons, List.foldl_cons, List.length_cons, Nat.add_comm rest.length 1,
      ← Nat.add_assoc]
    exact hrun

/-- **The span that the formatter cuts out is one of zeros.** -/
theorem zeroRun_zeroSpan (segs : List Nat) : ZeroRun segs (zeroSpan segs) := by
  have hinit : SpanInv segs 0 ((0, 0), (0, 0)) :=
    ⟨fun k _ hlt ↦ absurd hlt (by simp), fun k _ hlt ↦ absurd hlt (by simp), fun hne ↦
      absurd rfl hne⟩
  exact (spanInv_foldl rfl hinit).longest

theorem eq_of_zeroRun {start len : Nat} (h : ZeroRun segs (start, len)) (hlen : 0 < len) :
    start + len ≤ segs.length ∧
      segs = segs.take start ++ List.replicate len 0 ++ segs.drop (start + len) := by
  have hend : start + len ≤ segs.length := by
    have hlast := h (start + len - 1) (by dsimp only; omega) (by dsimp only; omega)
    obtain ⟨hlt, -⟩ := List.getElem?_eq_some_iff.1 hlast
    omega
  refine ⟨hend, List.ext_getElem? fun k ↦ ?_⟩
  rcases Nat.lt_or_ge k start with hk | hk
  · rw [List.append_assoc, List.getElem?_append_left (by simp; omega), List.getElem?_take_of_lt hk]
  · rcases Nat.lt_or_ge k (start + len) with hlt | hge
    · rw [h k hk hlt, List.getElem?_append_left (by simp; omega),
        List.getElem?_append_right (by simp; omega), List.getElem?_replicate]
      simp
      omega
    · rw [List.getElem?_append_right (by simp; omega), List.getElem?_drop]
      simp
      congr 1
      omega

/-! ### v6 -/

theorem colon_not_mem_toDigits {base n : Nat} (hbase : 1 < base) (hle : base ≤ 16) :
    ':' ∉ Nat.toDigits base n :=
  not_mem_toDigits hbase hle (by decide)

theorem toList_fmtSubslice (segs : List Nat) :
    (fmtSubslice segs).toList = [':'].intercalate (segs.map (Nat.toDigits 16)) := by
  simp [fmtSubslice, String.toList_intercalate, Function.comp_def]

theorem splitDouble_cons {c : Char} {rest : List Char} (h : c ≠ ':' ∨ rest.head? ≠ some ':') :
    splitDouble (c :: rest) =
      (splitDouble rest).map fun (before, after) ↦ (c :: before, after) := by
  rw [splitDouble.eq_def]
  split
  · next heq =>
    obtain ⟨rfl, rfl⟩ := List.cons.inj heq
    simp at h
  · next heq =>
    obtain ⟨rfl, rfl⟩ := List.cons.inj heq
    rfl
  · next heq => cases heq

theorem splitDouble_append {cs rest : List Char} (h : ':' ∉ cs) :
    splitDouble (cs ++ rest) =
      (splitDouble rest).map fun (before, after) ↦ (cs ++ before, after) := by
  induction cs with
  | nil => simp
  | cons c cs ih =>
    have hc : c ≠ ':' := fun hc ↦ h (hc ▸ (.head _))
    have hcs : ':' ∉ cs := fun hcs ↦ h (.tail _ hcs)
    rw [List.cons_append, splitDouble_cons (.inl hc), ih hcs, Option.map_map]
    rfl

theorem head?_append_join (seg : Nat) (segs : List Nat) (rest : List Char) :
    ([':'].intercalate ((seg :: segs).map (Nat.toDigits 16)) ++ rest).head? ≠ some ':' := by
  have hcolon : ':' ∉ Nat.toDigits 16 seg := colon_not_mem_toDigits (by omega) (by omega)
  obtain ⟨c, cs, hdigits⟩ := List.exists_cons_of_ne_nil (Nat.toDigits_ne_nil (n := seg) (b := 16))
  rw [hdigits] at hcolon
  have hc : c ≠ ':' := fun hc ↦ hcolon (hc ▸ (.head _))
  rcases segs with - | ⟨seg', segs⟩
  · simp [hdigits, hc]
  · simp [List.intercalate_cons_cons, hdigits, hc]

/-- Groups hold no `::`, nor does their join. -/
theorem splitDouble_join (segs : List Nat) (rest : List Char) :
    splitDouble ([':'].intercalate (segs.map (Nat.toDigits 16)) ++ rest) =
      (splitDouble rest).map fun (before, after) ↦
        ([':'].intercalate (segs.map (Nat.toDigits 16)) ++ before, after) := by
  have hcolon (n : Nat) : ':' ∉ Nat.toDigits 16 n := colon_not_mem_toDigits (by omega) (by omega)
  induction segs with
  | nil => simp
  | cons seg segs ih =>
    rcases segs with - | ⟨seg', segs⟩
    · simpa using splitDouble_append (hcolon seg)
    · simp only [List.map_cons, List.intercalate_cons_cons, List.append_assoc] at ih ⊢
      have hhead := head?_append_join seg' segs rest
      rw [List.map_cons] at hhead
      rw [splitDouble_append (hcolon seg), List.singleton_append, splitDouble_cons (.inr hhead), ih]
      simp only [Option.map_map]
      rfl

theorem readGroup_toDigits {n : Nat} (hn : n < 65536) : readGroup (Nat.toDigits 16 n) = some n := by
  have hlen : (Nat.toDigits 16 n).length ≤ 4 := by
    rw [Nat.length_toDigits_le_iff (by omega) (by omega)]
    omega
  rw [readGroup, if_pos hlen, readNat_toDigits (by omega) (by omega)]

theorem mapM_readGroup (h : ∀ n ∈ segs, n < 65536) :
    (segs.map (Nat.toDigits 16)).mapM readGroup = some segs := by
  induction segs with
  | nil => rfl
  | cons n segs ih =>
    have hn := readGroup_toDigits (h n (.head _))
    have hrest := ih fun m hm ↦ h m (.tail _ hm)
    simp [List.mapM_cons, hn, hrest]

theorem readTail_map (h : ∀ n ∈ segs, n < 65536) :
    readTail (segs.map (Nat.toDigits 16)) = some segs := by
  have hdot (n : Nat) : '.' ∉ Nat.toDigits 16 n :=
    not_mem_toDigits (by omega) (by omega) (by decide)
  induction segs with
  | nil => rfl
  | cons n segs ih =>
    have hn := readGroup_toDigits (h n (.head _))
    have hrest := ih fun m hm ↦ h m (.tail _ hm)
    rcases segs with - | ⟨m, segs⟩
    · simp [readTail, hdot, hn]
    · simp only [List.map_cons] at hrest ⊢
      rw [readTail]
      · simp [hn, hrest]
      · nofun

theorem splitOn_join (hne : segs ≠ []) :
    ([':'].intercalate (segs.map (Nat.toDigits 16))).splitOn ':' = segs.map (Nat.toDigits 16) := by
  refine List.splitOn_intercalate _ (fun l hl ↦ ?_) (by simpa using hne)
  obtain ⟨n, -, rfl⟩ := List.mem_map.1 hl
  exact colon_not_mem_toDigits (by omega) (by omega)

theorem join_ne_nil (hne : segs ≠ []) : [':'].intercalate (segs.map (Nat.toDigits 16)) ≠ [] := by
  rcases segs with - | ⟨n, segs⟩
  · exact absurd rfl hne
  · rcases segs with - | ⟨m, segs⟩
    · simp
    · simp [List.intercalate_cons_cons]

theorem readGroups_join (h : ∀ n ∈ segs, n < 65536) :
    readGroups ([':'].intercalate (segs.map (Nat.toDigits 16))) = some segs := by
  rcases eq_or_ne segs [] with rfl | hne
  · rfl
  · rw [readGroups, splitOn_join hne, mapM_readGroup h]
    exact join_ne_nil hne

theorem readLast_join (h : ∀ n ∈ segs, n < 65536) :
    readLast ([':'].intercalate (segs.map (Nat.toDigits 16))) = some segs := by
  rcases eq_or_ne segs [] with rfl | hne
  · rfl
  · rw [readLast, splitOn_join hne, readTail_map h]
    exact join_ne_nil hne

variable {b : BitVec 128}

theorem lt_of_mem_segments {n : Nat} (hn : n ∈ segments b) : n < 65536 := by
  obtain ⟨k, -, rfl⟩ := List.mem_map.1 hn
  exact Nat.mod_lt _ (by omega)

theorem ofSegments_segments (b : BitVec 128) : ofSegments (segments b) = b := by
  have hlt := b.isLt
  -- one round of the fold takes the next sixteen bits
  have hstep (k : Nat) :
      b.toNat / 2 ^ (k + 16) * 65536 + b.toNat / 2 ^ k % 65536 = b.toNat / 2 ^ k := by
    rw [Nat.pow_add, ← Nat.div_div_eq_div_mul]
    omega
  have hfirst : 0 * 65536 + b.toNat / 2 ^ 112 % 65536 = b.toNat / 2 ^ 112 := by omega
  rw [← BitVec.toNat_inj, ofSegments, BitVec.toNat_ofNat]
  simp only [segments, List.map_cons, List.map_nil, List.foldl_cons, List.foldl_nil]
  rw [hfirst, hstep 96, hstep 80, hstep 64, hstep 48, hstep 32, hstep 16, hstep 0]
  omega

/-- The plain form. -/
theorem readV6_plain (b : BitVec 128) : readV6 (fmtSubslice (segments b)).toList = some b := by
  have hlast := readLast_join (fun n hn ↦ lt_of_mem_segments (b := b) hn)
  have hdouble : splitDouble ([':'].intercalate ((segments b).map (Nat.toDigits 16))) = none := by
    have hjoin := splitDouble_join (segments b) []
    simpa [splitDouble] using hjoin
  have hlen : (segments b).length = 8 := rfl
  rw [readV6, toList_fmtSubslice, hdouble]
  simp [hlast, hlen, ofSegments_segments]

/-- The compressed form. -/
theorem readV6_compressed {start len : Nat} (hspan : zeroSpan (segments b) = (start, len))
    (hlen : 0 < len) :
    readV6 (fmtSubslice ((segments b).take start) ++ "::" ++
      fmtSubslice ((segments b).drop (start + len))).toList = some b := by
  obtain ⟨hend, hsegs⟩ := eq_of_zeroRun (hspan ▸ zeroRun_zeroSpan (segments b)) hlen
  have hbefore := readGroups_join (fun n hn ↦
    lt_of_mem_segments (b := b) (List.mem_of_mem_take (i := start) hn))
  have hafter := readLast_join (fun n hn ↦
    lt_of_mem_segments (b := b) (List.mem_of_mem_drop (i := start + len) hn))
  have hlength : (segments b).length = 8 := rfl
  have hdouble (rest : List Char) : splitDouble (':' :: ':' :: rest) = some ([], rest) := rfl
  have hcolons : "::".toList = [':', ':'] := rfl
  rw [readV6, String.toList_append, String.toList_append, toList_fmtSubslice, toList_fmtSubslice,
    List.append_assoc, splitDouble_join, hcolons, List.cons_append, List.singleton_append, hdouble]
  have hsum : ((segments b).take start).length + ((segments b).drop (start + len)).length =
      8 - len := by
    rw [List.length_take, List.length_drop]
    omega
  have hmissing : 8 - (8 - len) = len := by omega
  simp only [Option.map_some, List.append_nil, hbefore, hafter, Option.bind_some, hsum, hmissing]
  rw [if_pos (by omega), ← hsegs, ofSegments_segments]

theorem colon_not_mem_displayV4 (b : BitVec 32) : ':' ∉ (displayV4 b).toList := by
  rw [toList_displayV4]
  simp [octets, List.intercalate_cons_cons, colon_not_mem_toDigits]

/-- The v4-mapped form. -/
theorem readV6_mapped {b' : BitVec 32} (h : toIpv4Mapped b = some b') :
    readV6 ("::ffff:" ++ displayV4 b').toList = some b := by
  have hcolon := colon_not_mem_displayV4 b'
  have hdot : '.' ∈ (displayV4 b').toList := by
    rw [toList_displayV4]
    simp [octets, List.intercalate_cons_cons]
  have hsplit : (['f', 'f', 'f', 'f', ':'] ++ (displayV4 b').toList).splitOn ':' =
      [['f', 'f', 'f', 'f'], (displayV4 b').toList] := by
    have hf : ':' ∉ ['f', 'f', 'f', 'f'] := by decide
    have happend := List.splitOn_append_cons_self_of_not_mem hf (displayV4 b').toList
    rw [List.splitOn_eq_singleton hcolon] at happend
    exact happend
  have hffff : readGroup ['f', 'f', 'f', 'f'] = some 0xffff := by decide
  have htail : readTail [['f', 'f', 'f', 'f'], (displayV4 b').toList] =
      some [0xffff, b'.toNat / 65536, b'.toNat % 65536] := by
    simp [readTail, hffff, hdot, readV4_displayV4]
  have hlast : readLast (['f', 'f', 'f', 'f', ':'] ++ (displayV4 b').toList) =
      some [0xffff, b'.toNat / 65536, b'.toNat % 65536] := by
    rw [readLast, hsplit, htail]
    nofun
  have htext : ("::ffff:" ++ displayV4 b').toList =
      ':' :: ':' :: (['f', 'f', 'f', 'f', ':'] ++ (displayV4 b').toList) := by
    rw [String.toList_append]
    rfl
  rw [readV6, htext, splitDouble]
  simp only [readGroups, hlast, Option.bind_some]
  obtain ⟨hmapped, hb'⟩ : b.toNat / 2 ^ 32 = 0xffff ∧ BitVec.ofNat 32 b.toNat = b' := by
    unfold toIpv4Mapped at h
    split at h
    · next hmapped => exact ⟨hmapped, Option.some.inj h⟩
    · cases h
  have hnat : b'.toNat = b.toNat % 2 ^ 32 := by
    rw [← hb', BitVec.toNat_ofNat]
  have hlt := b.isLt
  simp only [List.length_nil, List.length_cons, List.nil_append, Nat.reduceAdd, Nat.reduceLT,
    if_true, Option.some.injEq, Nat.reduceSub, List.replicate, List.cons_append, ofSegments,
    List.foldl_cons, List.foldl_nil]
  rw [← BitVec.toNat_inj, BitVec.toNat_ofNat]
  omega

theorem readV6_displayV6 (b : BitVec 128) :
    ':' ∈ (displayV6 b).toList ∧ readV6 (displayV6 b).toList = some b := by
  unfold displayV6
  split
  · next b' hmapped =>
    refine ⟨?_, readV6_mapped hmapped⟩
    rw [String.toList_append]
    exact List.mem_append_left _ (.head _)
  · dsimp only
    split
    · next hlen =>
      have hlen : 0 < (zeroSpan (segments b)).2 := by omega
      refine ⟨?_, readV6_compressed rfl hlen⟩
      rw [String.toList_append, String.toList_append]
      exact List.mem_append_left _ (List.mem_append_right _ (.head _))
    · refine ⟨?_, readV6_plain b⟩
      rw [toList_fmtSubslice]
      simp [segments, List.intercalate_cons_cons]

/-- **The text of an address reads back as the address.** -/
theorem read_display (ip : IpAddr) : read ip.display = some ip := by
  cases ip with
  | v4 b => simp [read, display, colon_not_mem_displayV4, readV4_displayV4]
  | v6 b =>
    obtain ⟨hcolon, hread⟩ := readV6_displayV6 b
    simp [read, display, hcolon, hread]

/-! ### Characters -/

/-- **What an address's text does not hold**: anything but digits, colons and dots. -/
theorem not_mem_display {c : Char} (hcolon : c ≠ ':') (hdot : c ≠ '.')
    (hdigit : ∀ d < 16, c ≠ Nat.digitChar d) (ip : IpAddr) : c ∉ ip.display.toList := by
  have hjoin {base : Nat} {sep : Char} (ns : List Nat) (hbase : 1 < base) (hle : base ≤ 16)
      (hsep : c ≠ sep) : c ∉ [sep].intercalate (ns.map (Nat.toDigits base)) := by
    refine not_mem_join hsep fun l hl ↦ ?_
    obtain ⟨n, -, rfl⟩ := List.mem_map.1 hl
    exact not_mem_toDigits hbase hle hdigit
  have hv4 (b : BitVec 32) : c ∉ (displayV4 b).toList := by
    rw [toList_displayV4]
    exact hjoin _ (by omega) (by omega) hdot
  have hv6 (segs : List Nat) : c ∉ (fmtSubslice segs).toList := by
    rw [toList_fmtSubslice]
    exact hjoin _ (by omega) (by omega) hcolon
  have hf : c ≠ 'f' := hdigit 15 (by omega)
  cases ip with
  | v4 b => exact hv4 b
  | v6 b =>
    show c ∉ (displayV6 b).toList
    unfold displayV6
    split
    · simp [hv4, hcolon, hf]
    · dsimp only
      split
      · simp [hv6, hcolon]
      · exact hv6 _

/-- The characters of an address's text. -/
def displayChars : List Char := ':' :: '.' :: (List.range 16).map Nat.digitChar

theorem mem_displayChars {c : Char} {ip : IpAddr} (hc : c ∈ ip.display.toList) :
    c ∈ displayChars := by
  by_contra hnot
  simp only [displayChars, List.mem_cons, List.mem_map, List.mem_range, not_or, not_exists,
    not_and] at hnot
  exact not_mem_display hnot.1 hnot.2.1 (fun d hd h ↦ hnot.2.2 d hd h.symm) ip hc

/-- An address's text is one word. -/
theorem isWord_display (ip : IpAddr) : IsWord ip.display := by
  constructor
  case nonempty =>
    intro hnil
    have hread := read_display ip
    rw [read, hnil] at hread
    cases hread
  case unblank => exact not_mem_display (by decide) (by decide) (by decide) ip
  case unbroken => exact not_mem_display (by decide) (by decide) (by decide) ip

/-! ### The parsers of the standard libraries -/

/-- The part of a literal that can be a dotted quad. -/
def dottedPart (cs : List Char) : List Char := (cs.splitOn ':').getLastD []

/-- Whether an octet of the dotted quad has a leading zero. -/
def hasZeroLedOctet (cs : List Char) : Bool := '.' ∈ dottedPart cs &&
    ((dottedPart cs).splitOn '.').any fun part ↦ 1 < part.length && part.head? = some '0'

/-- `IpAddr::from_str` of Rust and `net.ParseIP` of Go: hexadecimal digits of either case, and no
octet with a leading zero. -/
def fromStr (cs : List Char) : Option IpAddr :=
  if hasZeroLedOctet cs then none else read (String.ofList (cs.map Char.toLower))

/-- No octet that is written has a leading zero. -/
theorem any_zeroLed_octets (b : BitVec 32) :
    ((displayV4 b).toList.splitOn '.').any (fun part ↦ 1 < part.length && part.head? = some '0') =
      false := by
  rw [splitOn_displayV4, List.any_map, List.any_eq_false]
  intro n _
  by_cases hn : n < 10
  · rw [Function.comp_apply, Nat.toDigits_eq_if (by decide), if_pos hn]
    simp
  · simp [head?_toDigits (Nat.le_of_not_lt hn)]

/-- The dotted quad of a literal is what follows its last colon. -/
theorem dottedPart_append {cs rest : List Char} (h : ':' ∉ rest) :
    dottedPart (cs ++ ':' :: rest) = rest := by
  rw [dottedPart, List.splitOn_append_cons_self, List.splitOn_eq_singleton h]
  simp

theorem dottedPart_of_not_mem {cs : List Char} (h : ':' ∉ cs) : dottedPart cs = cs := by
  rw [dottedPart, List.splitOn_eq_singleton h]
  rfl

theorem mem_join {c sep : Char} {l : List Char} {ls : List (List Char)} (hl : l ∈ ls) (hc : c ∈ l) :
    c ∈ [sep].intercalate ls := by
  induction ls with
  | nil => exact absurd hl List.not_mem_nil
  | cons l' ls ih =>
    rcases ls with - | ⟨l'', ls⟩
    · obtain rfl := List.mem_singleton.1 hl
      simpa using hc
    · rw [List.intercalate_cons_cons]
      obtain rfl | hl := List.mem_cons.1 hl
      · simp [hc]
      · simp [ih hl]

/-- A text without a dot has no dotted quad. -/
theorem hasZeroLedOctet_of_not_mem {cs : List Char} (h : '.' ∉ cs) :
    hasZeroLedOctet cs = false := by
  have hlast : dottedPart cs ∈ cs.splitOn ':' := by
    rw [dottedPart, List.getLastD_eq_getLast?, List.getLast?_eq_some_getLast
      (List.splitOn_ne_nil _ _)]
    exact List.getLast_mem _
  have hdot : '.' ∉ dottedPart cs := by
    intro hmem
    have hjoin : [':'].intercalate (cs.splitOn ':') = cs := List.intercalate_splitOn ':'
    exact h (hjoin ▸ mem_join hlast hmem)
  simp [hasZeroLedOctet, hdot]

theorem toLower_display (ip : IpAddr) : ip.display.toList.map Char.toLower = ip.display.toList := by
  have hupper {c : Char} (hc : c ∈ ip.display.toList) : c.toLower = c := by
    by_contra hne
    refine not_mem_display (c := c) ?_ ?_ ?_ ip hc
    · rintro rfl
      exact hne (by decide)
    · rintro rfl
      exact hne (by decide)
    · intro d hd heq
      have hall : ∀ d < 16, (Nat.digitChar d).toLower = Nat.digitChar d := by decide
      exact hne (heq ▸ hall d hd)
  exact (List.map_congr_left fun c hc ↦ hupper hc).trans (List.map_id _)

/-- No text of an address has an octet with a leading zero. -/
theorem hasZeroLedOctet_display (ip : IpAddr) : hasZeroLedOctet ip.display.toList = false := by
  have hv6 (segs : List Nat) : '.' ∉ (fmtSubslice segs).toList := by
    rw [toList_fmtSubslice]
    refine not_mem_join (by decide) fun l hl ↦ ?_
    obtain ⟨n, -, rfl⟩ := List.mem_map.1 hl
    exact not_mem_toDigits (by omega) (by omega) (by decide)
  cases ip with
  | v4 b =>
    show hasZeroLedOctet (displayV4 b).toList = false
    rw [hasZeroLedOctet, dottedPart_of_not_mem (colon_not_mem_displayV4 b), any_zeroLed_octets,
      Bool.and_false]
  | v6 b =>
    show hasZeroLedOctet (displayV6 b).toList = false
    unfold displayV6
    split
    · rename_i b' _
      have htext : ("::ffff:" ++ displayV4 b').toList =
          [':', ':', 'f', 'f', 'f', 'f'] ++ ':' :: (displayV4 b').toList := by
        rw [String.toList_append]
        rfl
      rw [htext, hasZeroLedOctet, dottedPart_append (colon_not_mem_displayV4 b'),
        any_zeroLed_octets, Bool.and_false]
    · dsimp only
      split
      · refine hasZeroLedOctet_of_not_mem ?_
        simp [hv6]
      · exact hasZeroLedOctet_of_not_mem (hv6 _)

/-- **The parsers read the text of an address back.** -/
theorem fromStr_display (ip : IpAddr) : fromStr ip.display.toList = some ip := by
  rw [fromStr, hasZeroLedOctet_display, toLower_display, String.ofList_toList]
  exact read_display ip

end Hole.IpAddr
