import Hole.Net.GoUrl
import Mathlib.Algebra.Ring.Nat

/-!
# The host parser of the URL standard

The `url` crate reads the host of a URL as the URL standard does, and Go keeps it as it is written.
A name whose last label is a number is an IPv4 address in the standard, written in one to four parts
that may be decimal, octal or hexadecimal: `1.1`, `0x01010101` and `16843009` are addresses to the
one and names to the other.

What becomes of a name before that (percent signs, Unicode, letter case) is `toAscii`: the `idna`
crate. `host` is the host string of a URL with a name; of a literal in brackets nothing is said
here.
-/

namespace Hole.UrlHost

open Text

/-- The IPv4 number parser: a decimal, octal or hexadecimal number. -/
def readNumber (part : List Char) : Option Nat :=
  match part with
  | '0' :: 'x' :: digits => if digits = [] then some 0 else readNat 16 digits
  | '0' :: c :: digits => readNat 8 (c :: digits)
  | part => readNat 10 part

/-- The labels of a name, less an empty one at its end. -/
def labels (name : List Char) : List (List Char) :=
  let parts := name.splitOn '.'
  if parts.getLastD [] = [] && 1 < parts.length then parts.dropLast else parts

/-- The ends-in-a-number checker. -/
def endsInNumber (name : List Char) : Bool :=
  match (labels name).getLast? with
  | some last => (last ≠ [] && last.all Char.isDigit) || (readNumber last).isSome
  | none => false

/-- The address of one to four numbers, the last of which fills what is left. -/
def ofNumbers (numbers : List Nat) : Option (BitVec 32) :=
  match numbers.getLast? with
  | none => none
  | some last =>
    if numbers.length ≤ 4 && numbers.dropLast.all (· ≤ 255) &&
        last < 256 ^ (5 - numbers.length) then
      some (BitVec.ofNat 32 (last + (numbers.dropLast.zipIdx.map fun x ↦ x.1 * 256 ^
        (3 - x.2)).sum))
    else none

/-- The IPv4 parser. -/
def readIpv4 (name : List Char) : Option (BitVec 32) :=
    ((labels name).mapM readNumber).bind ofNumbers

/-- A forbidden domain code point. -/
def isForbidden (c : Char) : Bool := c.toNat ≤ 0x20 || c.toNat = 0x7f || c ∈ "#/:<>?@[\\]^|%".toList

section Host

variable (toAscii : List Char → Option (List Char))

/-- The ASCII form of a name, unless it is none. -/
def domain (name : List Char) : Option (List Char) :=
  if name = [] then none
  else (toAscii name).filter fun d ↦ d ≠ [] && !d.any isForbidden

/-- The port after a name fits. -/
def portFits (host : List Char) : Bool :=
  match (host.dropWhile (· ≠ ':')).tail with
  | [] => true
  | digits => (readNat 10 digits).any (· ≤ 65535)

/-- The host string of a URL with a name. -/
def host (host : List Char) : Option (List Char) :=
  if portFits host then
    (domain toAscii (GoUrl.nameOf host)).bind fun d ↦
      if endsInNumber d then (readIpv4 d).map fun b ↦ (IpAddr.v4 b).display.toList else some d
  else none

/-- A name that is an address to the URL standard. -/
def isNumeric (host : List Char) : Bool :=
  portFits host && (domain toAscii (GoUrl.nameOf host)).any fun d ↦
    endsInNumber d && (readIpv4 d).isSome

end Host

/-! ### A name that is no number -/

theorem isDigit_of_readDigit {c : Char} {n : Nat} (h : readDigit 10 c = some n) :
    c.isDigit = true := by
  have hall : ∀ n < 10, n.digitChar.isDigit = true := by decide
  have hchar : n.digitChar = c := by simpa using List.find?_some h
  exact hchar ▸ hall n (List.mem_range.1 (List.mem_of_find?_eq_some h))

theorem all_isDigit_of_foldlM {part : List Char} {acc n : Nat}
    (h : part.foldlM (fun n d ↦ (readDigit 10 d).map (10 * n + ·)) acc = some n) :
    part.all Char.isDigit = true := by
  induction part generalizing acc with
  | nil => rfl
  | cons c part ih =>
    rw [List.foldlM_cons] at h
    obtain ⟨acc', hacc, hrest⟩ := Option.bind_eq_some_iff.1 h
    obtain ⟨digit, hdigit, -⟩ := Option.map_eq_some_iff.1 hacc
    rw [List.all_cons, isDigit_of_readDigit hdigit, ih hrest]
    rfl

theorem all_isDigit_of_readNat {part : List Char} {n : Nat} (h : readNat 10 part = some n) :
    part ≠ [] ∧ part.all Char.isDigit = true := by
  cases part with
  | nil => cases h
  | cons c part => exact ⟨List.cons_ne_nil _ _, all_isDigit_of_foldlM h⟩

theorem getLast?_of_mapM {α β : Type} {f : α → Option β} {l : List α} {l' : List β} {b : β}
    (h : l.mapM f = some l') (hlast : l'.getLast? = some b) :
    ∃ a, l.getLast? = some a ∧ f a = some b := by
  induction l generalizing l' with
  | nil =>
    obtain rfl : [] = l' := Option.some.inj h
    cases hlast
  | cons a l ih =>
    rw [List.mapM_cons] at h
    obtain ⟨b', hb', h⟩ := Option.bind_eq_some_iff.1 h
    obtain ⟨rest, hrest, hl'⟩ := Option.bind_eq_some_iff.1 h
    obtain rfl : b' :: rest = l' := Option.some.inj hl'
    cases l with
    | nil =>
      obtain rfl : [] = rest := Option.some.inj hrest
      exact ⟨a, rfl, hb'.trans hlast⟩
    | cons a' l =>
      rw [List.getLast?_cons_cons]
      refine ih hrest ?_
      cases rest with
      | nil =>
        rw [List.mapM_cons] at hrest
        obtain ⟨_, -, hmore⟩ := Option.bind_eq_some_iff.1 hrest
        obtain ⟨_, -, hnil⟩ := Option.bind_eq_some_iff.1 hmore
        cases hnil
      | cons b'' rest => rwa [List.getLast?_cons_cons] at hlast

/-- A dotted quad ends in a number. -/
theorem endsInNumber_of_fromStr {d : List Char} {ip : IpAddr} (hlower : d.map Char.toLower = d)
    (hcolon : ':' ∉ d) (h : IpAddr.fromStr d = some ip) : endsInNumber d = true := by
  have hread : IpAddr.readV4 d ≠ none := by
    intro hnone
    unfold IpAddr.fromStr IpAddr.read at h
    rw [hlower, String.toList_ofList, if_neg hcolon, hnone] at h
    split at h <;> cases h
  unfold IpAddr.readV4 at hread
  split at hread
  · rename_i a b c e hparts
    obtain ⟨last, hlast, hoctet⟩ := getLast?_of_mapM hparts (b := e) rfl
    have hdigits : last ≠ [] ∧ last.all Char.isDigit = true := by
      unfold IpAddr.readOctet at hoctet
      split at hoctet
      · exact all_isDigit_of_readNat (Option.filter_eq_some_iff.1 hoctet).1
      · cases hoctet
    have hlabels : labels d = d.splitOn '.' := by
      rw [labels, if_neg]
      rw [List.getLastD_eq_getLast?, hlast]
      simp [hdigits.1]
    rw [endsInNumber, hlabels, hlast]
    simp [hdigits.1, hdigits.2]
  · exact absurd rfl hread

/-- The host string of a name has no brackets, and is an address exactly if the name is numeric. -/
theorem fromStr_host {toAscii : List Char → Option (List Char)}
    (hlower : ∀ name d, toAscii name = some d → d.map Char.toLower = d) {h text : List Char}
    (hhost : host toAscii h = some text) :
    '[' ∉ text ∧ ']' ∉ text ∧ (IpAddr.fromStr text).isSome = isNumeric toAscii h := by
  unfold host at hhost
  unfold isNumeric
  split at hhost
  · rename_i hport
    obtain ⟨d, hd, htext⟩ := Option.bind_eq_some_iff.1 hhost
    rw [hport, hd, Bool.true_and, Option.any_some]
    have hplain : d.any isForbidden = false ∧ d.map Char.toLower = d := by
      unfold domain at hd
      split at hd
      · cases hd
      · obtain ⟨hascii, hfilter⟩ := Option.filter_eq_some_iff.1 hd
        obtain ⟨-, hforbidden⟩ := Bool.and_eq_true_iff.1 hfilter
        exact ⟨by simpa using hforbidden, hlower _ _ hascii⟩
    have hnot {c : Char} (hc : isForbidden c = true) : c ∉ d := by
      intro hmem
      have hfalse := List.any_eq_false.1 hplain.1 c hmem
      exact hfalse hc
    split at htext
    · rename_i hnumber
      obtain ⟨b, hb, rfl⟩ := Option.map_eq_some_iff.1 htext
      refine ⟨GoUrl.not_mem_of_plain (by simp), GoUrl.not_mem_of_plain (by simp), ?_⟩
      rw [IpAddr.fromStr_display, hnumber, hb]
      rfl
    · rename_i hnumber
      obtain rfl := Option.some.inj htext
      refine ⟨hnot (by decide), hnot (by decide), ?_⟩
      have hnone : IpAddr.fromStr d = none := by
        cases hip : IpAddr.fromStr d with
        | none => rfl
        | some ip =>
          have hends := endsInNumber_of_fromStr hplain.2 (hnot (by decide)) hip
          exact absurd hends hnumber
      rw [hnone, eq_false_of_ne_true hnumber]
      rfl
  · cases hhost

/-- A numeric name has a host string. -/
theorem host_of_isNumeric {toAscii : List Char → Option (List Char)} {h : List Char}
    (hnumeric : isNumeric toAscii h = true) : ∃ text, host toAscii h = some text := by
  unfold isNumeric at hnumeric
  obtain ⟨hport, hany⟩ := Bool.and_eq_true_iff.1 hnumeric
  cases hd : domain toAscii (GoUrl.nameOf h) with
  | none =>
    rw [hd] at hany
    cases hany
  | some d =>
    rw [hd, Option.any_some, Bool.and_eq_true] at hany
    obtain ⟨b, hb⟩ := Option.isSome_iff_exists.1 hany.2
    rw [host, hport, if_pos rfl, hd, Option.bind_some, hany.1, if_pos rfl, hb]
    exact ⟨_, rfl⟩

end Hole.UrlHost
