import Hole.Text.Lines
import Hole.Text.Numeral
import Hole.Text.Utf8Slice

/-!
# Crash markers

The record that a crashing process leaves. It is written in a signal handler, where nothing may
allocate or panic, into a buffer of fixed size, and read back by a later process. `Cursor` is the
buffer as far as it is written: a push adds to what is written and stops at the end of the buffer
(`pushBytes_cursor`), and a number is pushed through a scratch array of fixed size that never runs
out (`pushDec_cursor`, `pushHex_cursor`). A marker that a crash or a full disk cut is read up to
the cut, line by line (`Cut`).
-/

namespace Hole.Crash

open Text

/-- `MarkerRecord`. -/
structure MarkerRecord where
  kind : List Char := []
  pid : UInt32 := 0
  tid : UInt32 := 0
  code : UInt64 := 0
  faultAddr : UInt64 := 0
  time : UInt64 := 0

def markerMagic : List Char := "tombstone-marker v1".toList

/-! ### Writing -/

/-- The buffer and the position of the next byte. -/
structure Cursor where
  buf : List UInt8
  pos : Nat

/-- `buf[i] = b`. Out of bounds it panics. -/
def store (buf : List UInt8) (i : Nat) (b : UInt8) : Option (List UInt8) :=
  if i < buf.length then some (buf.set i b) else none

def pushBytes (cur : Cursor) : List UInt8 → Option Cursor
  | [] => some cur
  | b :: bytes =>
    if cur.buf.length ≤ cur.pos then some cur
    else (store cur.buf cur.pos b).bind fun buf ↦ pushBytes ⟨buf, cur.pos + 1⟩ bytes

/-- The digits of `v`, last one first, in a scratch array that has room for so many more. Where
there is none left it panics. -/
def scratch (digit : UInt64 → UInt8) (shift : UInt64 → UInt64) : Nat → UInt64 → Option (List UInt8)
  | 0, v => if v = 0 then some [] else none
  | room + 1, v =>
    if v = 0 then some [] else (scratch digit shift room (shift v)).map (digit v :: ·)

def pushDigits (digit : UInt64 → UInt8) (shift : UInt64 → UInt64) (size : Nat) (cur : Cursor)
    (v : UInt64) : Option Cursor :=
  if v = 0 then pushBytes cur (utf8 ['0'])
  else (scratch digit shift size v).bind fun tmp ↦
    tmp.reverse.foldlM (fun cur b ↦ pushBytes cur [b]) cur

/-- `b'0' + (v % 10) as u8`. -/
def decDigit (v : UInt64) : UInt8 := 48 + (v % 10).toUInt8

/-- `HEX[(v & 0xf) as usize]`. -/
def hexDigit (v : UInt64) : UInt8 := (utf8 "0123456789abcdef".toList).getD (v &&& 0xf).toNat 0

def pushDec : Cursor → UInt64 → Option Cursor := pushDigits decDigit (· / 10) 20

def pushHex : Cursor → UInt64 → Option Cursor := pushDigits hexDigit (· >>> 4) 16

/-- The bytes of the buffer after it, and how many of them are the marker's. -/
def formatMarkerInto (rec : MarkerRecord) (buf : List UInt8) : Option (List UInt8 × Nat) := do
  let cur ← pushBytes ⟨buf, 0⟩ (utf8 markerMagic)
  let cur ← pushBytes cur (utf8 "\nkind=".toList)
  let cur ← pushBytes cur (utf8 rec.kind)
  let cur ← pushBytes cur (utf8 "\npid=".toList)
  let cur ← pushDec cur rec.pid.toUInt64
  let cur ← pushBytes cur (utf8 "\ntid=".toList)
  let cur ← pushDec cur rec.tid.toUInt64
  let cur ← pushBytes cur (utf8 "\ncode=0x".toList)
  let cur ← pushHex cur rec.code
  let cur ← pushBytes cur (utf8 "\nfault_addr=0x".toList)
  let cur ← pushHex cur rec.faultAddr
  let cur ← pushBytes cur (utf8 "\ntime=".toList)
  let cur ← pushDec cur rec.time
  let cur ← pushBytes cur (utf8 "\n".toList)
  return (cur.buf, cur.pos)

/-- What a buffer is once `out` was written to it from its start, and where. -/
def cursor (buf out : List UInt8) : Cursor :=
  ⟨out.take buf.length ++ buf.drop out.length, min out.length buf.length⟩

theorem cursor_nil (buf : List UInt8) : cursor buf [] = ⟨buf, 0⟩ := by
  simp [cursor]

theorem length_cursor (buf out : List UInt8) : (cursor buf out).buf.length = buf.length := by
  simp only [cursor, List.length_append, List.length_take, List.length_drop]
  omega

/-- Nothing is written once the buffer is full. -/
theorem cursor_full {buf out : List UInt8} (h : buf.length ≤ out.length) (bytes : List UInt8) :
    cursor buf (out ++ bytes) = cursor buf out := by
  have hdrop : buf.drop (out ++ bytes).length = buf.drop out.length := by
    rw [List.drop_eq_nil_of_le h, List.drop_eq_nil_of_le (by rw [List.length_append]; omega)]
  have hmin : min (out ++ bytes).length buf.length = min out.length buf.length := by
    rw [List.length_append]
    omega
  rw [cursor, cursor, hdrop, hmin, List.take_append_of_le_length h]

theorem cursor_next {buf out : List UInt8} (h : out.length < buf.length) (b : UInt8) :
    cursor buf (out ++ [b]) = ⟨(cursor buf out).buf.set out.length b, out.length + 1⟩ := by
  have htake : out.take buf.length = out := List.take_of_length_le (by omega)
  have htake' : (out ++ [b]).take buf.length = out ++ [b] :=
    List.take_of_length_le (by rw [List.length_append]; exact h)
  have hdrop : buf.drop out.length = buf[out.length] :: buf.drop (out.length + 1) :=
    List.drop_eq_getElem_cons h
  have hmin : min (out.length + 1) buf.length = out.length + 1 := by omega
  simp only [cursor, htake, htake', hdrop, List.length_append, List.length_singleton, hmin]
  rw [List.set_append_right _ _ (Nat.le_refl _), Nat.sub_self, List.set_cons_zero,
    List.append_assoc]
  rfl

/-- **A push adds to what is written, as far as the buffer goes.** -/
theorem pushBytes_cursor (buf out bytes : List UInt8) :
    pushBytes (cursor buf out) bytes = some (cursor buf (out ++ bytes)) := by
  induction bytes generalizing out with
  | nil => rw [List.append_nil, pushBytes]
  | cons b bytes ih =>
    rw [pushBytes, length_cursor]
    by_cases h : buf.length ≤ out.length
    · have hpos : buf.length ≤ (cursor buf out).pos := Nat.le_min.2 ⟨h, Nat.le_refl _⟩
      rw [if_pos hpos, cursor_full h]
    · have hpos : (cursor buf out).pos = out.length := Nat.min_eq_left (by omega)
      have hstore : store (cursor buf out).buf out.length b =
          some ((cursor buf out).buf.set out.length b) :=
        if_pos (by rw [length_cursor]; omega)
      rw [hpos, if_neg h, hstore, Option.bind_some, ← cursor_next (Nat.lt_of_not_le h), ih,
        List.append_assoc]
      rfl

theorem foldlM_pushBytes (buf out bytes : List UInt8) :
    bytes.foldlM (fun cur b ↦ pushBytes cur [b]) (cursor buf out) =
      some (cursor buf (out ++ bytes)) := by
  induction bytes generalizing out with
  | nil => rw [List.append_nil]; rfl
  | cons b bytes ih =>
    rw [List.foldlM_cons, pushBytes_cursor, Option.bind_eq_bind, Option.bind_some, ih,
      List.append_assoc]
    rfl

section Digits

variable {digit : UInt64 → UInt8} {shift : UInt64 → UInt64} {base : Nat}

/-- **The scratch array has room for every digit.** The induction is on the room: every digit takes
one place and leaves a number that the rest of the array has room for. -/
theorem scratch_spec (hbase : 1 < base)
    (hdigit : ∀ v, utf8 [(v.toNat % base).digitChar] = [digit v])
    (hshift : ∀ v, (shift v).toNat = v.toNat / base) {room : Nat} {v : UInt64}
    (hv : v.toNat < base ^ room) :
    ∃ tmp, scratch digit shift room v = some tmp ∧
      (v ≠ 0 → utf8 (Nat.toDigits base v.toNat) = tmp.reverse) := by
  induction room generalizing v with
  | zero =>
    have hzero : v = 0 := UInt64.toNat_inj.1 (by simpa using hv)
    exact ⟨[], if_pos hzero, fun h ↦ absurd hzero h⟩
  | succ room ih =>
    by_cases hzero : v = 0
    · exact ⟨[], if_pos hzero, fun h ↦ absurd hzero h⟩
    · have hlt : (shift v).toNat < base ^ room := by
        rw [hshift]
        exact Nat.div_lt_of_lt_mul (by rwa [Nat.pow_succ'] at hv)
      obtain ⟨tmp, htmp, hrest⟩ := ih hlt
      refine ⟨digit v :: tmp, ?_, fun _ ↦ ?_⟩
      · rw [scratch, if_neg hzero, htmp]
        rfl
      · rw [List.reverse_cons, ← hdigit]
        by_cases hshifted : shift v = 0
        · have hsmall : v.toNat < base := by
            have hdiv := hshift v
            rw [hshifted] at hdiv
            exact (Nat.div_eq_zero_iff_lt (by omega)).1 hdiv.symm
          have hnil : tmp = [] := by
            have hempty : scratch digit shift room (shift v) = some [] := by
              rw [hshifted]
              cases room <;> rfl
            rw [hempty] at htmp
            exact (Option.some.inj htmp).symm
          rw [Nat.toDigits_of_lt_base hsmall, hnil, Nat.mod_eq_of_lt hsmall]
          rfl
        · have hlarge : base ≤ v.toNat := by
            by_contra hlt'
            refine hshifted (UInt64.toNat_inj.1 ?_)
            rw [hshift, Nat.div_eq_of_lt (Nat.lt_of_not_le hlt')]
            rfl
          rw [Nat.toDigits_of_base_le hbase hlarge, utf8_append, ← hshift, hrest hshifted]

/-- **A number is pushed as its numeral.** -/
theorem pushDigits_cursor (hbase : 1 < base)
    (hdigit : ∀ v, utf8 [(v.toNat % base).digitChar] = [digit v])
    (hshift : ∀ v, (shift v).toNat = v.toNat / base) {size : Nat} (hsize : 2 ^ 64 ≤ base ^ size)
    (buf out : List UInt8) (v : UInt64) :
    pushDigits digit shift size (cursor buf out) v =
      some (cursor buf (out ++ utf8 (Nat.toDigits base v.toNat))) := by
  by_cases hzero : v = 0
  · subst hzero
    have hdigits : Nat.toDigits base (0 : UInt64).toNat = ['0'] := Nat.toDigits_zero base
    rw [pushDigits, if_pos rfl, pushBytes_cursor, hdigits]
  · obtain ⟨tmp, htmp, hdigits⟩ :=
      scratch_spec hbase hdigit hshift (Nat.lt_of_lt_of_le v.toNat_lt hsize)
    rw [pushDigits, if_neg hzero, htmp, Option.bind_some, foldlM_pushBytes, hdigits hzero]

end Digits

theorem pushDec_cursor (buf out : List UInt8) (v : UInt64) :
    pushDec (cursor buf out) v = some (cursor buf (out ++ utf8 (Nat.toDigits 10 v.toNat))) := by
  have hall : ∀ n < 10, utf8 [n.digitChar] = [48 + UInt8.ofNat n] := by decide
  refine pushDigits_cursor (by decide) (fun v ↦ ?_) (fun v ↦ ?_) (by decide) buf out v
  · rw [hall _ (Nat.mod_lt _ (by decide))]
    rfl
  · exact UInt64.toNat_div v 10

theorem pushHex_cursor (buf out : List UInt8) (v : UInt64) :
    pushHex (cursor buf out) v = some (cursor buf (out ++ utf8 (Nat.toDigits 16 v.toNat))) := by
  have hall : ∀ n < 16, utf8 [n.digitChar] =
      [(utf8 "0123456789abcdef".toList).getD n 0] := by decide
  refine pushDigits_cursor (by decide) (fun v ↦ ?_) (fun v ↦ ?_) (by decide) buf out v
  · have hand : (v &&& 0xf).toNat = v.toNat % 16 := by
      rw [UInt64.toNat_and]
      exact Nat.and_two_pow_sub_one_eq_mod v.toNat 4
    rw [hexDigit, hand, hall _ (Nat.mod_lt _ (by decide))]
  · rw [UInt64.toNat_shiftRight]
    exact Nat.shiftRight_eq_div_pow v.toNat 4

/-! ### The text -/

/-- The fields, one on a line. -/
inductive Field
  | kind
  | pid
  | tid
  | code
  | faultAddr
  | time
  deriving DecidableEq

def Field.all : List Field := [.kind, .pid, .tid, .code, .faultAddr, .time]

def Field.key : Field → List Char
  | .kind => "kind".toList
  | .pid => "pid".toList
  | .tid => "tid".toList
  | .code => "code".toList
  | .faultAddr => "fault_addr".toList
  | .time => "time".toList

/-- What stands after the equals sign. -/
def Field.value (rec : MarkerRecord) : Field → List Char
  | .kind => rec.kind
  | .pid => Nat.toDigits 10 rec.pid.toNat
  | .tid => Nat.toDigits 10 rec.tid.toNat
  | .code => '0' :: 'x' :: Nat.toDigits 16 rec.code.toNat
  | .faultAddr => '0' :: 'x' :: Nat.toDigits 16 rec.faultAddr.toNat
  | .time => Nat.toDigits 10 rec.time.toNat

/-- The line of a field without its line break. -/
def Field.line (rec : MarkerRecord) (f : Field) : List Char := f.key ++ '=' :: f.value rec

/-- The text as far as the lines of some fields. -/
def textUpTo (rec : MarkerRecord) (fs : List Field) : List Char :=
  markerMagic ++ '\n' :: fs.flatMap fun f ↦ f.line rec ++ ['\n']

/-- The full text of a marker. -/
def markerText (rec : MarkerRecord) : List Char := textUpTo rec Field.all

/-- **The buffer holds the beginning of the text.** -/
theorem formatMarkerInto_eq (rec : MarkerRecord) (buf : List UInt8) :
    formatMarkerInto rec buf =
      some ((cursor buf (utf8 (markerText rec))).buf,
        (cursor buf (utf8 (markerText rec))).pos) := by
  have htext : markerText rec = [] ++ markerMagic ++ "\nkind=".toList ++ rec.kind ++
      "\npid=".toList ++ Nat.toDigits 10 rec.pid.toUInt64.toNat ++ "\ntid=".toList ++
      Nat.toDigits 10 rec.tid.toUInt64.toNat ++ "\ncode=0x".toList ++
      Nat.toDigits 16 rec.code.toNat ++ "\nfault_addr=0x".toList ++
      Nat.toDigits 16 rec.faultAddr.toNat ++ "\ntime=".toList ++
      Nat.toDigits 10 rec.time.toNat ++ "\n".toList := by
    simp only [markerText, textUpTo, Field.all, Field.line, List.flatMap_cons, List.flatMap_nil,
      List.append_assoc, List.append_nil, List.nil_append, List.cons_append]
    rfl
  have hbytes {out bytes : List UInt8} (f : Cursor → Option (List UInt8 × Nat)) :
      (pushBytes (cursor buf out) bytes >>= f) = f (cursor buf (out ++ bytes)) := by
    rw [pushBytes_cursor]
    rfl
  have hdec {out : List UInt8} {v : UInt64} (f : Cursor → Option (List UInt8 × Nat)) :
      (pushDec (cursor buf out) v >>= f) =
        f (cursor buf (out ++ utf8 (Nat.toDigits 10 v.toNat))) := by
    rw [pushDec_cursor]
    rfl
  have hhex {out : List UInt8} {v : UInt64} (f : Cursor → Option (List UInt8 × Nat)) :
      (pushHex (cursor buf out) v >>= f) =
        f (cursor buf (out ++ utf8 (Nat.toDigits 16 v.toNat))) := by
    rw [pushHex_cursor]
    rfl
  rw [htext, formatMarkerInto, ← cursor_nil, hbytes, hbytes, hbytes, hbytes, hdec, hbytes, hdec,
    hbytes, hhex, hbytes, hhex, hbytes, hdec, hbytes]
  simp only [utf8_append, utf8_nil]
  rfl

/-! ### Reading -/

/-- `val.parse().unwrap_or(0)`. -/
def parseU32 (val : List Char) : UInt32 := .ofNat ((readUnsigned (2 ^ 32) val).getD 0)

/-- `val.parse().unwrap_or(0)`. -/
def parseU64 (val : List Char) : UInt64 := .ofNat ((readUnsigned (2 ^ 64) val).getD 0)

/-- `s.strip_prefix("0x").unwrap_or(s)`. -/
def strip0x : List Char → List Char
  | '0' :: 'x' :: digits => digits
  | s => s

/-- `u64::from_str_radix(digits, 16)`, which takes a plus sign and digits of either case. -/
def fromStrRadix16 (digits : List Char) : Option Nat :=
  (readNat 16 ((dropPlus digits).map Char.toLower)).filter (· < 2 ^ 64)

def parseHex (s : List Char) : UInt64 :=
  if strip0x s = [] then 0 else .ofNat ((fromStrRadix16 (strip0x s)).getD 0)

/-- The assignment of a line. A key that is none of a field's is ignored. -/
def readField (rec : MarkerRecord) (key val : List Char) : MarkerRecord :=
  if key = "kind".toList then { rec with kind := val }
  else if key = "pid".toList then { rec with pid := parseU32 val }
  else if key = "tid".toList then { rec with tid := parseU32 val }
  else if key = "code".toList then { rec with code := parseHex val }
  else if key = "fault_addr".toList then { rec with faultAddr := parseHex val }
  else if key = "time".toList then { rec with time := parseU64 val }
  else rec

def readLine (rec : MarkerRecord) (line : List Char) : MarkerRecord :=
  match splitOnce '=' line with
  | none => rec
  | some (key, val) => readField rec key val

def parseMarker (text : List Char) : Option MarkerRecord :=
  match strLines text with
  | [] => none
  | first :: lines => if first = markerMagic then some (lines.foldl readLine {}) else none

/-- What reading a value does to a record. -/
def Field.assign (val : List Char) (rec : MarkerRecord) : Field → MarkerRecord
  | .kind => { rec with kind := val }
  | .pid => { rec with pid := parseU32 val }
  | .tid => { rec with tid := parseU32 val }
  | .code => { rec with code := parseHex val }
  | .faultAddr => { rec with faultAddr := parseHex val }
  | .time => { rec with time := parseU64 val }

/-- Two records have the field in common. -/
def Field.Same (r s : MarkerRecord) : Field → Prop
  | .kind => r.kind = s.kind
  | .pid => r.pid = s.pid
  | .tid => r.tid = s.tid
  | .code => r.code = s.code
  | .faultAddr => r.faultAddr = s.faultAddr
  | .time => r.time = s.time

theorem eq_of_same {r s : MarkerRecord} (h : ∀ f ∈ Field.all, f.Same r s) : r = s := by
  obtain ⟨kind, pid, tid, code, faultAddr, time⟩ := r
  obtain rfl : kind = s.kind := h .kind (by decide)
  obtain rfl : pid = s.pid := h .pid (by decide)
  obtain rfl : tid = s.tid := h .tid (by decide)
  obtain rfl : code = s.code := h .code (by decide)
  obtain rfl : faultAddr = s.faultAddr := h .faultAddr (by decide)
  obtain rfl : time = s.time := h .time (by decide)
  rfl

theorem readField_key (rec : MarkerRecord) (f : Field) (val : List Char) :
    readField rec f.key val = f.assign val rec := by
  cases f <;> rfl

/-- A field is assigned alone. -/
theorem same_assign_of_ne {f g : Field} (h : g ≠ f) (val : List Char) (r s : MarkerRecord) :
    g.Same (f.assign val r) s ↔ g.Same r s := by
  cases f <;> cases g <;> first | exact absurd rfl h | exact Iff.rfl

theorem parseU32_toDigits (n : UInt32) : parseU32 (Nat.toDigits 10 n.toNat) = n := by
  rw [parseU32, readUnsigned_toDigits n.toNat_lt]
  exact UInt32.ofNat_toNat

theorem parseU64_toDigits (n : UInt64) : parseU64 (Nat.toDigits 10 n.toNat) = n := by
  rw [parseU64, readUnsigned_toDigits n.toNat_lt]
  exact UInt64.ofNat_toNat

theorem parseHex_toDigits (n : UInt64) : parseHex ('0' :: 'x' :: Nat.toDigits 16 n.toNat) = n := by
  have hplus : '+' ∉ Nat.toDigits 16 n.toNat := not_mem_toDigits (by decide) (by decide) (by decide)
  have hlower : (Nat.toDigits 16 n.toNat).map Char.toLower = Nat.toDigits 16 n.toNat := by
    have hall : ∀ d < 16, d.digitChar.toLower = d.digitChar := by decide
    refine (List.map_congr_left fun c hc ↦ ?_).trans (List.map_id _)
    obtain ⟨d, hd, rfl⟩ := mem_toDigits (by decide) hc
    exact hall d hd
  have hread : fromStrRadix16 (Nat.toDigits 16 n.toNat) = some n.toNat := by
    rw [fromStrRadix16, dropPlus_of_not_mem hplus, hlower, readNat_toDigits (by decide) (by decide)]
    simp [n.toNat_lt]
  have hstrip : strip0x ('0' :: 'x' :: Nat.toDigits 16 n.toNat) = Nat.toDigits 16 n.toNat := rfl
  rw [parseHex, hstrip, if_neg Nat.toDigits_ne_nil, hread]
  exact UInt64.ofNat_toNat

/-- What was written for a field is read for it. -/
theorem same_assign (f : Field) (rec r : MarkerRecord) : f.Same (f.assign (f.value rec) r) rec := by
  cases f with
  | kind => rfl
  | pid => exact parseU32_toDigits rec.pid
  | tid => exact parseU32_toDigits rec.tid
  | code => exact parseHex_toDigits rec.code
  | faultAddr => exact parseHex_toDigits rec.faultAddr
  | time => exact parseU64_toDigits rec.time

theorem equals_not_mem_key (f : Field) : '=' ∉ f.key := by
  cases f <;> decide

theorem readLine_key (r : MarkerRecord) (f : Field) (val : List Char) :
    readLine r (f.key ++ '=' :: val) = f.assign val r := by
  rw [readLine, splitOnce_append (equals_not_mem_key f)]
  exact readField_key r f val

variable {rec : MarkerRecord}

/-- The beginning of a line changes no other field than that of the line. -/
theorem readLine_part {f : Field} {part : List Char} (h : part <+: f.line rec) (r : MarkerRecord) :
    readLine r part = r ∨ ∃ val, readLine r part = f.assign val r := by
  obtain hkey | ⟨val, hval⟩ : part <+: f.key ∨ ∃ val, part = f.key ++ '=' :: val := by
    rcases List.prefix_or_prefix_of_prefix h (List.prefix_append f.key _) with hkey | ⟨rest, rfl⟩
    · exact Or.inl hkey
    · rcases List.prefix_cons_iff.1 ((List.prefix_append_right_inj f.key).1 h) with
        rfl | ⟨val, rfl, -⟩
      · exact Or.inl ⟨[], by simp⟩
      · exact Or.inr ⟨val, rfl⟩
  · left
    have hmem : '=' ∉ part := fun hmem ↦ equals_not_mem_key f (hkey.subset hmem)
    rw [readLine, splitOnce_eq_none hmem]
  · exact Or.inr ⟨val, by rw [hval, readLine_key]⟩

/-- A record without a line break in its kind. -/
structure OnOneLine (rec : MarkerRecord) : Prop where
  cr : '\r' ∉ rec.kind
  lf : '\n' ∉ rec.kind

theorem OnOneLine.line (h : OnOneLine rec) (f : Field) : '\r' ∉ f.line rec ∧ '\n' ∉ f.line rec := by
  have hkey : '\r' ∉ f.key ∧ '\n' ∉ f.key := by cases f <;> decide
  have hdigits {c : Char} (hc : ∀ d < 16, c ≠ Nat.digitChar d) (n : Nat) :
      c ∉ Nat.toDigits 10 n ∧ c ∉ Nat.toDigits 16 n :=
    ⟨not_mem_toDigits (by decide) (by decide) hc, not_mem_toDigits (by decide) (by decide) hc⟩
  have hcr (n : Nat) := hdigits (c := '\r') (by decide) n
  have hlf (n : Nat) := hdigits (c := '\n') (by decide) n
  have hvalue : '\r' ∉ f.value rec ∧ '\n' ∉ f.value rec := by
    cases f with
    | kind => exact ⟨h.cr, h.lf⟩
    | pid => exact ⟨(hcr _).1, (hlf _).1⟩
    | tid => exact ⟨(hcr _).1, (hlf _).1⟩
    | code => simp [Field.value, hcr, hlf]
    | faultAddr => simp [Field.value, hcr, hlf]
    | time => exact ⟨(hcr _).1, (hlf _).1⟩
  simp [Field.line, hkey, hvalue]

/-! ### Cuts -/

/-- The lines of some fields, each ended. -/
def textOf (rec : MarkerRecord) (fs : List Field) : List Char :=
  fs.flatMap fun f ↦ f.line rec ++ ['\n']

/-- What is left of the lines of `fs` by a cut: those of `done`, and a part of the next one. -/
structure Cut (rec : MarkerRecord) (fs : List Field) (t : List Char) (done rest : List Field)
    (part : List Char) : Prop where
  fields : fs = done ++ rest
  text : t = textOf rec done ++ part
  within : part = [] ∨ ∃ f, rest.head? = some f ∧ part <+: f.line rec

theorem textOf_cons (rec : MarkerRecord) (f : Field) (fs : List Field) :
    textOf rec (f :: fs) = (f.line rec ++ ['\n']) ++ textOf rec fs := rfl

theorem textOf_append (rec : MarkerRecord) (fs gs : List Field) :
    textOf rec (fs ++ gs) = textOf rec fs ++ textOf rec gs := List.flatMap_append

variable {t : List Char}

theorem exists_cut {fs : List Field} (h : t <+: textOf rec fs) :
    ∃ done rest part, Cut rec fs t done rest part := by
  induction fs generalizing t with
  | nil => exact ⟨[], [], [], rfl, List.prefix_nil.1 h, Or.inl rfl⟩
  | cons f fs ih =>
    rw [textOf_cons] at h
    rcases List.prefix_or_prefix_of_prefix h (List.prefix_append _ _) with hpart | ⟨t', rfl⟩
    · rcases List.prefix_concat_iff.1 hpart with rfl | hpart
      · exact ⟨[f], fs, [], rfl, by simp [textOf], Or.inl rfl⟩
      · exact ⟨[], f :: fs, t, rfl, rfl, Or.inr ⟨f, rfl, hpart⟩⟩
    · obtain ⟨done, rest, part, cut⟩ := ih ((List.prefix_append_right_inj _).1 h)
      refine ⟨f :: done, rest, part, congrArg (f :: ·) cut.fields, ?_, cut.within⟩
      rw [cut.text, textOf_cons, List.append_assoc (f.line rec ++ ['\n'])]

/-- Whole lines are read one by one. -/
theorem strLines_textOf (h : OnOneLine rec) (fs : List Field) (cs : List Char) :
    strLines (textOf rec fs ++ cs) = fs.map (Field.line rec) ++ strLines cs := by
  induction fs with
  | nil => rfl
  | cons f fs ih =>
    have hcons : textOf rec (f :: fs) ++ cs = f.line rec ++ '\n' :: (textOf rec fs ++ cs) := by
      simp [textOf]
    rw [hcons, strLines_append (h.line f).1 (h.line f).2, ih]
    rfl

/-- **Every line that is read sets its field.** The induction is on the lines, and what it carries
is the fields that are right already. -/
theorem same_foldl {fs seen : List Field} {r : MarkerRecord} (h : ∀ f ∈ seen, f.Same r rec) :
    ∀ f ∈ seen ++ fs, f.Same ((fs.map (Field.line rec)).foldl readLine r) rec := by
  induction fs generalizing seen r with
  | nil => rwa [List.append_nil]
  | cons g fs ih =>
    have hstep : ∀ f ∈ seen ++ [g], f.Same (readLine r (g.line rec)) rec := by
      intro f hf
      rw [Field.line, readLine_key]
      by_cases hfg : f = g
      · rw [hfg]
        exact same_assign g rec r
      · rw [same_assign_of_ne hfg]
        exact h f ((List.mem_append.1 hf).resolve_right (by simpa using hfg))
    have hrest := ih hstep
    rwa [List.append_assoc] at hrest

/-- A field without a line keeps its value. -/
theorem same_foldl_of_not_mem {fs : List Field} {f : Field} (h : f ∉ fs) (r s : MarkerRecord) :
    f.Same ((fs.map (Field.line rec)).foldl readLine r) s ↔ f.Same r s := by
  induction fs generalizing r with
  | nil => exact Iff.rfl
  | cons g fs ih =>
    rw [List.mem_cons, not_or] at h
    rw [List.map_cons, List.foldl_cons, ih h.2, Field.line, readLine_key, same_assign_of_ne h.1]

section Cut

variable {rec : MarkerRecord} {t part : List Char} {done rest : List Field}

variable {f : Field}

/-- No field has two lines. -/
theorem Cut.not_mem_done (cut : Cut rec Field.all t done rest part) (h : f ∈ rest) : f ∉ done := by
  have hnodup : (done ++ rest).Nodup := cut.fields ▸ (by decide : Field.all.Nodup)
  exact fun hdone ↦ (List.nodup_append.1 hnodup).2.2 f hdone f h rfl

/-- **A cut marker as it is read**: the whole lines, and then the part of one. -/
theorem parseMarker_cut (h : OnOneLine rec) (cut : Cut rec Field.all t done rest part) :
    ∃ r, parseMarker (markerMagic ++ '\n' :: t) = some r ∧
      (∀ f ∈ done, f.Same r rec) ∧
      ∀ f ∉ done, (part = [] ∨ rest.head? ≠ some f) → f.Same r {} := by
  let whole := (done.map (Field.line rec)).foldl readLine {}
  have hwhole : ∀ f ∈ done, f.Same whole rec :=  same_foldl fun f hf ↦ absurd hf List.not_mem_nil
  have hdefault {f : Field} (hf : f ∉ done) : f.Same whole {} :=
    (same_foldl_of_not_mem hf _ _).2 (by cases f <;> rfl)
  have hparse : parseMarker (markerMagic ++ '\n' :: t) =
      some ((strLines part).foldl readLine whole) := by
    rw [parseMarker, strLines_append (by decide) (by decide), cut.text, strLines_textOf h]
    dsimp only
    rw [if_pos rfl, List.foldl_append]
  by_cases hnil : part = []
  · rw [hnil] at hparse
    exact ⟨whole, hparse, hwhole, fun f hf _ ↦ hdefault hf⟩
  obtain ⟨f, hhead, hpart⟩ := cut.within.resolve_left hnil
  have hlf : '\n' ∉ part := fun hmem ↦ (h.line f).2 (hpart.subset hmem)
  rw [strLines_unbroken hnil hlf] at hparse
  -- The part of a line changes the field of that line at most.
  have hkeeps {g : Field} (hgf : g ≠ f) (s : MarkerRecord) :
      g.Same (readLine whole part) s ↔ g.Same whole s := by
    rcases readLine_part hpart whole with hread | ⟨val, hread⟩
    · rw [hread]
    · rw [hread, same_assign_of_ne hgf]
  refine ⟨readLine whole part, hparse, fun g hg ↦ ?_, fun g hg hne ↦ ?_⟩
  · have hgf : g ≠ f := by
      rintro rfl
      exact cut.not_mem_done (List.mem_of_head? hhead) hg
    exact (hkeeps hgf rec).2 (hwhole g hg)
  · have hgf : g ≠ f := by
      rintro rfl
      exact hne.resolve_left hnil hhead
    exact (hkeeps hgf {}).2 (hdefault hg)

variable {before after : List Field}

/-- A field is among the whole lines, or it is left with all that is after it. -/
theorem Cut.done_or_rest (cut : Cut rec Field.all t done rest part)
    (hall : Field.all = before ++ f :: after) :
    (∃ more, done = before ++ f :: more) ∨
      ∃ more, before = done ++ more ∧ rest = more ++ f :: after := by
  rcases List.append_eq_append_iff.1 (cut.fields.symm.trans hall) with
    ⟨more, hbefore, hrest⟩ | ⟨more, hdone, hrest⟩
  · exact Or.inr ⟨more, hbefore, hrest⟩
  · rcases more with - | ⟨g, more⟩
    · exact Or.inr ⟨[], by simp [hdone], hrest.symm⟩
    · obtain ⟨rfl, -⟩ := List.cons.inj hrest
      exact Or.inl ⟨more, hdone⟩

/-- The part of a line is less than the line. -/
theorem Cut.not_textOf_isPrefix (cut : Cut rec Field.all t done rest part) {more after : List Field}
    (hrest : rest = more ++ f :: after) : ¬textOf rec (more ++ [f]) <+: part := by
  obtain ⟨g, fs, hcons⟩ : ∃ g fs, more ++ [f] = g :: fs :=
    List.exists_cons_of_ne_nil (List.append_ne_nil_of_right_ne_nil _ (List.cons_ne_nil f []))
  have hhead : rest.head? = some g := by
    rw [hrest, ← List.singleton_append, ← List.append_assoc, hcons]
    rfl
  intro h
  have hlength := h.length_le
  rw [hcons, textOf_cons, List.length_append, List.length_append] at hlength
  rcases cut.within with hnil | ⟨g', hhead', hpart⟩
  · rw [hnil] at hlength
    simp at hlength
  · obtain rfl : g = g' := Option.mem_unique hhead hhead'
    have hle := hpart.length_le
    simp only [List.length_singleton] at hlength
    omega

/-- The line of a field that lies before the cut is whole. -/
theorem Cut.mem_done (cut : Cut rec Field.all t done rest part)
    (hall : Field.all = before ++ f :: after) (h : textOf rec (before ++ [f]) <+: t) :
    f ∈ done := by
  rcases cut.done_or_rest hall with ⟨more, rfl⟩ | ⟨more, rfl, hrest⟩
  · simp
  · rw [List.append_assoc, textOf_append, cut.text, List.prefix_append_right_inj] at h
    exact absurd h (cut.not_textOf_isPrefix hrest)

/-- Of the line of a field that starts after the cut there is nothing. -/
theorem Cut.not_mem_done_of_isPrefix (cut : Cut rec Field.all t done rest part)
    (hall : Field.all = before ++ f :: after) (h : t <+: textOf rec before) :
    f ∉ done ∧ (part = [] ∨ rest.head? ≠ some f) := by
  rcases cut.done_or_rest hall with ⟨more, hdone⟩ | ⟨more, rfl, hrest⟩
  · have hlength := h.length_le
    rw [cut.text, hdone, textOf_append, textOf_cons] at hlength
    simp only [List.length_append, List.length_singleton] at hlength
    omega
  · refine ⟨cut.not_mem_done (by simp [hrest]), ?_⟩
    rw [cut.text, textOf_append, List.prefix_append_right_inj] at h
    rcases more with - | ⟨g, more⟩
    · exact Or.inl (List.prefix_nil.1 h)
    · refine Or.inr fun hhead ↦ ?_
      rw [hrest] at hhead
      obtain rfl : g = f := Option.some.inj hhead
      have hnodup : ((done ++ g :: more) ++ g :: after).Nodup :=
        hall ▸ (by decide : Field.all.Nodup)
      exact (List.nodup_append.1 hnodup).2.2 g (by simp) g (by simp) rfl

end Cut

/-- A text whose bytes begin another's begins it. -/
theorem isPrefix_of_utf8 {s t : List Char} (h : utf8 s <+: utf8 t) : s <+: t := by
  obtain ⟨rest, hrest⟩ := h
  obtain ⟨u, rfl, -⟩ := exists_append_of_utf8 hrest
  exact List.prefix_append s u

/-- What is read of the text as far as some byte. -/
theorem isPrefix_of_take {text s t : List Char} {k : Nat}
    (ht : readUtf8 ((utf8 text).take k) = some t) (hs : s <+: text) :
    ((utf8 s).length ≤ k → s <+: t) ∧ (k ≤ (utf8 s).length → t <+: s) := by
  have hbytes : utf8 t = (utf8 text).take k := utf8_of_readUtf8 ht
  have hsbytes : utf8 s <+: utf8 text := by
    obtain ⟨u, rfl⟩ := hs
    rw [utf8_append]
    exact List.prefix_append _ _
  have htbytes : utf8 t <+: utf8 text := hbytes ▸ List.take_prefix k _
  have hlength : (utf8 t).length = min k (utf8 text).length := by
    rw [hbytes, List.length_take]
  have hle := hsbytes.length_le
  exact ⟨fun h ↦ isPrefix_of_utf8 (List.prefix_of_prefix_length_le hsbytes htbytes (by omega)),
    fun h ↦ isPrefix_of_utf8 (List.prefix_of_prefix_length_le htbytes hsbytes (by omega))⟩

/-- **The text of a record is read as the record.** -/
theorem parseMarker_markerText (h : OnOneLine rec) : parseMarker (markerText rec) = some rec := by
  have whole : Cut rec Field.all (textOf rec Field.all) Field.all [] [] :=
    ⟨rfl, (List.append_nil _).symm, Or.inl rfl⟩
  obtain ⟨r, hparse, hsame, -⟩ := parseMarker_cut h whole
  rw [eq_of_same hsame] at hparse
  exact hparse

/-- A text that ends with the first line, or before, says nothing of any field. -/
theorem parseMarker_magic (h : t <+: markerMagic) :
    parseMarker t = none ∨ parseMarker t = some {} := by
  by_cases hnil : t = []
  · subst hnil
    exact Or.inl rfl
  · have hlf : '\n' ∉ t := fun hmem ↦ absurd (h.subset hmem) (by decide)
    rw [parseMarker, strLines_unbroken hnil hlf]
    dsimp only
    split
    · exact Or.inr rfl
    · exact Or.inl rfl

/-- **A cut text is read up to the cut.** -/
theorem parseMarker_take (h : OnOneLine rec) {k : Nat}
    (ht : readUtf8 ((utf8 (markerText rec)).take k) = some t) :
    parseMarker t = none ∨ ∃ r, parseMarker t = some r ∧
      ∀ before f after, Field.all = before ++ f :: after →
        ((utf8 (textUpTo rec (before ++ [f]))).length ≤ k → f.Same r rec) ∧
          (k ≤ (utf8 (textUpTo rec before)).length → f.Same r {}) := by
  have hupto {before after : List Field} (hall : Field.all = before ++ after) :
      textUpTo rec before <+: markerText rec := by
    refine ⟨textOf rec after, ?_⟩
    rw [markerText, hall]
    simp [textUpTo, textOf]
  have hcut : t <+: markerText rec := isPrefix_of_utf8 (utf8_of_readUtf8 ht ▸ List.take_prefix k _)
  obtain hmagic | ⟨t', rfl, ht'⟩ :
      t <+: markerMagic ∨ ∃ t', t = markerMagic ++ '\n' :: t' ∧ t' <+: textOf rec Field.all := by
    rcases List.prefix_or_prefix_of_prefix hcut (List.prefix_append markerMagic _) with
      hmagic | ⟨rest, rfl⟩
    · exact Or.inl hmagic
    · rcases List.prefix_cons_iff.1 ((List.prefix_append_right_inj markerMagic).1 hcut) with
        rfl | ⟨t', rfl, ht'⟩
      · exact Or.inl ⟨[], by simp⟩
      · exact Or.inr ⟨t', rfl, ht'⟩
  · refine (parseMarker_magic hmagic).imp_right fun hparse ↦
      ⟨{}, hparse, fun before f after hall ↦ ⟨fun hle ↦ ?_, fun _ ↦ by cases f <;> rfl⟩⟩
    have hall' : Field.all = (before ++ [f]) ++ after := by rw [hall, List.append_assoc]; rfl
    have hlength := (((isPrefix_of_take ht (hupto hall')).1 hle).trans hmagic).length_le
    rw [textUpTo, List.length_append, List.length_cons] at hlength
    omega
  · obtain ⟨done, rest, part, cut⟩ := exists_cut ht'
    obtain ⟨r, hparse, hright, hdefault⟩ := parseMarker_cut h cut
    refine Or.inr ⟨r, hparse, fun before f after hall ↦ ⟨fun hle ↦ ?_, fun hle ↦ ?_⟩⟩
    · have hall' : Field.all = (before ++ [f]) ++ after := by rw [hall, List.append_assoc]; rfl
      have hline := (isPrefix_of_take ht (hupto hall')).1 hle
      rw [textUpTo, List.prefix_append_right_inj, List.cons_prefix_cons] at hline
      exact hright f (cut.mem_done hall hline.2)
    · have hstart := (isPrefix_of_take ht (hupto hall)).2 hle
      rw [textUpTo, List.prefix_append_right_inj, List.cons_prefix_cons] at hstart
      obtain ⟨hdone, hpart⟩ := cut.not_mem_done_of_isPrefix hall hstart.2
      exact hdefault f hdone hpart

/-- What a crash leaves of a record: the writer stays in its buffer and fills it with the beginning
of the text, and the reader makes of a whole text the record, and of a cut one the fields before the
cut. -/
theorem marker_survives {rec : MarkerRecord} (h : OnOneLine rec) (buf : List UInt8) :
    ∃ out n, formatMarkerInto rec buf = some (out, n) ∧ out.length = buf.length ∧
      out.take n = (utf8 (markerText rec)).take buf.length ∧ out.drop n = buf.drop n ∧
      ((utf8 (markerText rec)).length ≤ buf.length →
        ∃ text, readUtf8 (out.take n) = some text ∧ parseMarker text = some rec) ∧
      ∀ k t, readUtf8 ((utf8 (markerText rec)).take k) = some t →
        parseMarker t = none ∨ ∃ r, parseMarker t = some r ∧
          ∀ before f after, Field.all = before ++ f :: after →
            ((utf8 (textUpTo rec (before ++ [f]))).length ≤ k → f.Same r rec) ∧
              (k ≤ (utf8 (textUpTo rec before)).length → f.Same r {}) := by
  let bytes := utf8 (markerText rec)
  have hlength : (bytes.take buf.length).length = min bytes.length buf.length := by
    rw [List.length_take, Nat.min_comm]
  have htake : (cursor buf bytes).buf.take (cursor buf bytes).pos = bytes.take buf.length := by
    rw [cursor, List.take_append_of_le_length (by rw [hlength]), ← hlength, List.take_length]
  have hdrop : (cursor buf bytes).buf.drop (cursor buf bytes).pos =
      buf.drop (cursor buf bytes).pos := by
    rw [cursor, ← hlength, List.drop_left, hlength]
    by_cases hfits : bytes.length ≤ buf.length
    · rw [Nat.min_eq_left hfits]
    · have hmin : min bytes.length buf.length = buf.length := Nat.min_eq_right (by omega)
      simp only [hmin, List.drop_length]
      exact List.drop_eq_nil_of_le (by omega)
  refine ⟨_, _, formatMarkerInto_eq rec buf, length_cursor buf bytes, htake, hdrop, fun hfits ↦ ?_,
    fun k t ht ↦ parseMarker_take h ht⟩
  refine ⟨markerText rec, ?_, parseMarker_markerText h⟩
  rw [htake, List.take_of_length_le hfits, readUtf8_utf8]

/-- A record of a crash of the bridge. -/
def sampleRecord : MarkerRecord :=
  ⟨"bridge".toList, 4242, 99, 0xc0000005, 0xdeadbeef, 133000000000000000⟩

theorem sampleRecord_survives : OnOneLine sampleRecord ∧
    (utf8 (markerText sampleRecord)).length ≤ 256 ∧
    ∃ out n, formatMarkerInto sampleRecord (List.replicate 256 0) = some (out, n) ∧
      ∃ text, readUtf8 (out.take n) = some text ∧ parseMarker text = some sampleRecord := by
  have honeline : OnOneLine sampleRecord := ⟨by decide, by decide⟩
  have hfits : (utf8 (markerText sampleRecord)).length ≤ 256 := by decide
  obtain ⟨out, n, hformat, -, -, -, hread, -⟩ := marker_survives honeline (List.replicate 256 0)
  exact ⟨honeline, hfits, out, n, hformat, hread (by rw [List.length_replicate]; exact hfits)⟩

end Hole.Crash
