import Hole.Filter.HttpHost
import Hole.Gui.AppConfig
import Hole.Net.SocketAddr
import Hole.Text.Utf8Slice

/-!
# The matchers of the rules

`crates/bridge/src/filter/matcher.rs`: what a user's rule is compiled to, and which connections that
matches. The crates for networks, domain names and patterns are a parameter (`Crates`), and what is
published of the first is `Crates.Published`.

A matcher of names reads the name of a connection only, one of addresses the address only
(`matches_of_isDomain`, `matches_of_not_isDomain`).
-/

namespace Hole.Filter

open Text Gui

/-- The crates `ipnet`, `idna` and `regex`, and the table of printable characters. -/
structure Crates where
  /-- `IpNet`. -/
  Net : Type
  /-- `IpNet::from_str`, or the text of its error. -/
  parseNet : List Char → Except String Net
  /-- `IpNet::trunc`. -/
  trunc : Net → Net
  /-- `IpNet::contains`. -/
  contains : Net → IpAddr → Bool
  /-- `idna::domain_to_ascii`, or the text of its error. -/
  domainToAscii : List Char → Except String (List Char)
  Regex : Type
  /-- `Regex::new`, or the text of its error. -/
  newRegex : List Char → Except String Regex
  isMatch : Regex → List Char → Bool
  /-- The characters that `Debug` writes as they are. -/
  plain : Char → Bool

/-- `L4Proto`. -/
inductive L4Proto
  | tcp
  | udp
  deriving DecidableEq

/-- `ConnInfo`. -/
structure ConnInfo where
  dst : SocketAddr
  domain : Option (List Char)
  proto : L4Proto

/-! ### Texts -/

/-- `char::escape_debug`, within a string. -/
def escapeDebug (plain : Char → Bool) (c : Char) : List Char :=
  if c = '\x00' then ['\\', '0']
  else if c = '\t' then ['\\', 't']
  else if c = '\r' then ['\\', 'r']
  else if c = '\n' then ['\\', 'n']
  else if c = '\\' ∨ c = '"' then ['\\', c]
  else if plain c then [c]
  else ['\\', 'u', '\x7b'] ++ Nat.toDigits 16 c.toNat ++ ['\x7d']

/-- `Debug for str`. -/
def debugStr (plain : Char → Bool) (s : List Char) : String :=
  String.ofList ('"' :: s.flatMap (escapeDebug plain) ++ ['"'])

/-- `eq_ignore_ascii_case`. -/
def eqIgnoreAsciiCase (s t : Bytes) : Bool := s.map asciiLower == t.map asciiLower

/-- `trim_end_matches('.')`. -/
def trimDots (s : List Char) : List Char := s.rdropWhile (· == '.')

/-- `glob_to_regex`. -/
def globToRegex (glob : List Char) : List Char := "(?i)^".toList ++ glob.flatMap (fun c ↦
    if c = '*' then ['.', '*']
    else if c = '?' then ['.']
    else if c ∈ ['.', '+', '(', ')', '|', '[', ']', '\x7b', '\x7d', '^', '$', '\\'] then ['\\', c]
    else [c]) ++ ['$']

/-- `domain_matches_with_subdomains`, of the bytes of two names. -/
def domainMatchesWithSubdomains (got want : Bytes) : Bool :=
  if eqIgnoreAsciiCase got want then true
  else if got.length ≤ want.length + 1 then false
  else
    let suffixStart := got.length - want.length
    if got[suffixStart - 1]? ≠ some 46 then false
    else eqIgnoreAsciiCase (got.drop suffixStart) want

section Compile

variable (c : Crates)

/-- `Matcher`. -/
inductive Matcher
  | exactDomain (want : List Char)
  | subdomainDomain (want : List Char)
  | wildcardDomain (re : c.Regex)
  | exactIp (want : IpAddr)
  | subnet (net : c.Net)

/-- `canonicalize_domain`. -/
def canonicalizeDomain (input : List Char) : Except String (List Char) :=
  let trimmed := trimDots input
  if trimmed = [] then .error "empty domain"
  else if ' ' ∈ trimmed ∨ '\t' ∈ trimmed then
    .error ("not a valid domain: " ++ debugStr c.plain input)
  else match c.domainToAscii trimmed with
    | .error e => .error ("IDNA normalization failed: " ++ e)
    | .ok ascii =>
      if ascii = [] then .error ("not a valid domain: " ++ debugStr c.plain input) else .ok ascii

/-- `canonicalize_for_match`. -/
def canonicalizeForMatch (domain : List Char) : List Char :=
  let trimmed := trimDots domain
  if trimmed = [] then []
  else match c.domainToAscii trimmed with
    | .ok ascii => if ascii = [] then toAsciiLowercase trimmed else ascii
    | .error _ => toAsciiLowercase trimmed

/-- `parse_subnet`. -/
def parseSubnet (address : List Char) : Except String (Matcher c) :=
  match c.parseNet address with
  | .error e => .error ("not a valid CIDR: " ++ e)
  | .ok net => .ok (.subnet (c.trunc net))

/-- `parse_exact`. -/
def parseExact (address : List Char) : Except String (Matcher c) :=
  if address = [] then .error "empty address"
  else match IpAddr.fromStr address with
    | some ip => .ok (.exactIp ip.toCanonical)
    | none => (canonicalizeDomain c address).map .exactDomain

/-- `parse_with_subdomains`. -/
def parseWithSubdomains (address : List Char) : Except String (Matcher c) :=
  if address = [] then .error "empty address"
  else if (IpAddr.fromStr address).isSome then
    .error "with_subdomains is not valid for IP literals; use exactly or subnet"
  else (canonicalizeDomain c address).map .subdomainDomain

/-- `parse_wildcard`. -/
def parseWildcard (address : List Char) : Except String (Matcher c) :=
  if address = [] then .error "empty address"
  else match c.newRegex (globToRegex address) with
    | .error e => .error ("invalid wildcard pattern: " ++ e)
    | .ok re => .ok (.wildcardDomain re)

/-- `Matcher::compile`. -/
def Matcher.compile (address : String) (matching : MatchType) : Except String (Matcher c) :=
  match matching with
  | .subnet => parseSubnet c address.toList
  | .exactly => parseExact c address.toList
  | .withSubdomains => parseWithSubdomains c address.toList
  | .wildcard => parseWildcard c address.toList

variable {c}

/-- `Matcher::matches`. -/
def Matcher.matches (conn : ConnInfo) : Matcher c → Bool
  | .exactDomain want =>
    match conn.domain with
    | none => false
    | some got => canonicalizeForMatch c got == want
  | .subdomainDomain want =>
    match conn.domain with
    | none => false
    | some got => domainMatchesWithSubdomains (utf8 (canonicalizeForMatch c got)) (utf8 want)
  | .wildcardDomain re =>
    match conn.domain with
    | none => false
    | some got => c.isMatch re (canonicalizeForMatch c got)
  | .exactIp want => conn.dst.ip.toCanonical == want
  | .subnet net => c.contains net conn.dst.ip.toCanonical

/-- `Matcher::is_domain`. -/
def Matcher.isDomain : Matcher c → Bool
  | .exactDomain _ | .subdomainDomain _ | .wildcardDomain _ => true
  | .exactIp _ | .subnet _ => false

end Compile

/-! ### Subdomains -/

theorem length_eq_of_eqIgnoreAsciiCase {s t : Bytes} (h : eqIgnoreAsciiCase s t = true) :
    s.length = t.length := by
  have hlen := congrArg List.length (beq_iff_eq.1 h)
  rwa [List.length_map, List.length_map] at hlen

/-- A name matches a domain if it is that, or ends in it behind a dot that something is before. -/
theorem domainMatchesWithSubdomains_iff {got want : Bytes} :
    domainMatchesWithSubdomains got want = true ↔ eqIgnoreAsciiCase got want = true ∨
      ∃ sub rest, sub ≠ [] ∧ got = sub ++ 46 :: rest ∧ eqIgnoreAsciiCase rest want = true := by
  rw [domainMatchesWithSubdomains]
  by_cases hsame : eqIgnoreAsciiCase got want = true
  · rw [if_pos hsame]
    exact iff_of_true rfl (.inl hsame)
  rw [if_neg hsame, or_iff_right hsame]
  constructor
  · intro h
    split at h
    · cases h
    · next hlong =>
      dsimp only at h
      split at h
      · cases h
      · next hdot =>
        have hget := not_not.1 hdot
        obtain ⟨hlt, hat⟩ := List.getElem?_eq_some_iff.1 hget
        refine ⟨got.take (got.length - want.length - 1), got.drop (got.length - want.length),
          fun hnil ↦ ?_, ?_, h⟩
        · have := congrArg List.length hnil
          rw [List.length_take, List.length_nil] at this
          omega
        · have hcons := List.drop_eq_getElem_cons hlt
          rw [hat, show got.length - want.length - 1 + 1 = got.length - want.length by omega]
            at hcons
          rw [← hcons, List.take_append_drop]
  · rintro ⟨sub, rest, hne, rfl, hrest⟩
    have hlen := length_eq_of_eqIgnoreAsciiCase hrest
    have hpos := List.length_pos_iff.2 hne
    have hstart : (sub ++ 46 :: rest).length - want.length = sub.length + 1 := by
      rw [List.length_append, List.length_cons]
      omega
    have hdrop : (sub ++ 46 :: rest).drop (sub.length + 1) = rest := by simp
    rw [if_neg (by rw [List.length_append, List.length_cons]; omega)]
    dsimp only
    rw [hstart, Nat.add_sub_cancel, if_neg (by simp), hdrop, hrest]

/-! ### No slice off a character -/

/-- A subtraction of `usize`, which panics below zero. -/
def checkedSub (m n : Nat) : Option Nat := if n ≤ m then some (m - n) else none

/-- `domain_matches_with_subdomains` with its panics: a subtraction below zero, an index out of
bounds and a slice off a character. -/
def domainMatchesOrPanics (got want : List Char) : Option Bool :=
  if eqIgnoreAsciiCase (utf8 got) (utf8 want) then some true
  else if (utf8 got).length ≤ (utf8 want).length + 1 then some false
  else do
    let suffixStart ← checkedSub (utf8 got).length (utf8 want).length
    let before ← checkedSub suffixStart 1
    let byte ← (utf8 got)[before]?
    if byte ≠ 46 then some false
    else do
      let suffix ← sliceFrom (utf8 got) suffixStart
      some (eqIgnoreAsciiCase suffix (utf8 want))

/-- A byte that is a dot is a dot of the text. -/
theorem exists_dot {s : List Char} {before after : Bytes} (h : utf8 s = before ++ 46 :: after) :
    ∃ p w, s = p ++ '.' :: w ∧ utf8 p = before ∧ utf8 w = after := by
  have hslice : utf8 s = before ++ utf8 ['.'] ++ after := by
    rw [h, List.append_assoc]
    rfl
  obtain ⟨p, w, rfl, hp, hw⟩ := exists_slice_utf8 (by simp) hslice
  exact ⟨p, w, by rw [List.append_assoc]; rfl, hp, hw⟩

/-- A text is cut behind a dot. -/
theorem isCharBoundary_of_dot {s : List Char} {i : Nat} (h : (utf8 s)[i]? = some 46) :
    isCharBoundary (utf8 s) (i + 1) = true := by
  obtain ⟨hi, hdot⟩ := List.getElem?_eq_some_iff.1 h
  have hsplit : utf8 s = (utf8 s).take i ++ 46 :: (utf8 s).drop (i + 1) := by
    rw [← hdot, List.getElem_cons_drop, List.take_append_drop]
  obtain ⟨p, w, rfl, hp, -⟩ := exists_dot hsplit
  refine isCharBoundary_utf8.2 ⟨p ++ ['.'], w, by simp, ?_⟩
  rw [utf8_append, hp, List.length_append, List.length_take, Nat.min_eq_left (Nat.le_of_lt hi)]
  rfl

/-- It does not panic. -/
theorem domainMatchesOrPanics_eq (got want : List Char) :
    domainMatchesOrPanics got want =
      some (domainMatchesWithSubdomains (utf8 got) (utf8 want)) := by
  rw [domainMatchesOrPanics, domainMatchesWithSubdomains]
  split
  · rfl
  · split
    · rfl
    · next hlong =>
      have hlt : (utf8 want).length + 1 < (utf8 got).length := Nat.lt_of_not_le hlong
      have hbefore : (utf8 got).length - (utf8 want).length - 1 < (utf8 got).length := by omega
      have hstart : (utf8 got).length - (utf8 want).length - 1 + 1 =
          (utf8 got).length - (utf8 want).length := by omega
      simp only [checkedSub]
      rw [if_pos (by omega), Option.bind_eq_bind, Option.bind_some, if_pos (by omega),
        Option.bind_eq_bind, Option.bind_some, List.getElem?_eq_getElem hbefore]
      by_cases hdot : (utf8 got)[(utf8 got).length - (utf8 want).length - 1] = 46
      · have hcut := isCharBoundary_of_dot (List.getElem?_eq_some_iff.2 ⟨hbefore, hdot⟩)
        rw [hstart] at hcut
        simp [hdot, sliceFrom, hcut]
      · simp [hdot]

/-- **Names are matched without a panic**: a name matches if it is the domain, or ends in it behind
a dot that something is before. -/
theorem domainMatchesOrPanics_iff (got want : List Char) :
    ∃ matched, domainMatchesOrPanics got want = some matched ∧
      (matched = true ↔ eqIgnoreAsciiCase (utf8 got) (utf8 want) = true ∨
        ∃ p w, p ≠ [] ∧ got = p ++ '.' :: w ∧ eqIgnoreAsciiCase (utf8 w) (utf8 want) = true) := by
  refine ⟨_, domainMatchesOrPanics_eq got want, ?_⟩
  rw [domainMatchesWithSubdomains_iff]
  refine or_congr_right ⟨?_, ?_⟩
  · rintro ⟨sub, rest, hsub, hgot, hrest⟩
    obtain ⟨p, w, rfl, rfl, rfl⟩ := exists_dot hgot
    exact ⟨p, w, fun hp ↦ hsub (by rw [hp, utf8_nil]), rfl, hrest⟩
  · rintro ⟨p, w, hp, rfl, hw⟩
    exact ⟨utf8 p, utf8 w, utf8_ne_nil hp, by rw [utf8_append]; rfl, hw⟩

/-! ### What a matcher reads -/

/-- A matcher of names reads the name only. -/
theorem matches_of_isDomain {c : Crates} {m : Matcher c} (h : m.isDomain = true)
    {conn conn' : ConnInfo} (hdomain : conn.domain = conn'.domain) :
    m.matches conn = m.matches conn' := by
  obtain ⟨dst, domain, proto⟩ := conn
  obtain ⟨dst', domain', proto'⟩ := conn'
  obtain rfl : domain = domain' := hdomain
  cases m with
  | exactDomain want => rfl
  | subdomainDomain want => rfl
  | wildcardDomain re => rfl
  | exactIp want => cases h
  | subnet net => cases h

/-- Without a name it matches nothing. -/
theorem matches_of_no_domain {c : Crates} {m : Matcher c} (h : m.isDomain = true)
    {conn : ConnInfo} (hdomain : conn.domain = none) : m.matches conn = false := by
  obtain ⟨dst, domain, proto⟩ := conn
  obtain rfl : domain = none := hdomain
  cases m with
  | exactDomain want => rfl
  | subdomainDomain want => rfl
  | wildcardDomain re => rfl
  | exactIp want => cases h
  | subnet net => cases h

/-- A matcher of addresses reads the address only. -/
theorem matches_of_not_isDomain {c : Crates} {m : Matcher c} (h : m.isDomain = false)
    {conn conn' : ConnInfo} (hip : conn.dst.ip = conn'.dst.ip) :
    m.matches conn = m.matches conn' := by
  cases m with
  | exactDomain want => cases h
  | subdomainDomain want => cases h
  | wildcardDomain re => cases h
  | exactIp want => exact congrArg (fun ip : IpAddr ↦ ip.toCanonical == want) hip
  | subnet net => exact congrArg (fun ip : IpAddr ↦ c.contains net ip.toCanonical) hip

end Hole.Filter
