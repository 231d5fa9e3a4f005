import Hole.Net.IpText

/-!
# Go's `net/url`

`url.Parse` as far as `parseURLOption` of ex-ray looks at its result: whether it fails, and the
scheme and the host otherwise. A host is kept as it is written, so `hostname` is what is dialed: an
IP literal, or a name that a resolver is asked for.

* `authority_of_parse`: a URL that is accepted with a host begins with its scheme and an authority.
* `parse_v4`, `parse_v6`: the URL of an address literal is accepted, with the address as its host.
-/

namespace Hole.GoUrl

open Text

/-- The result of `url.Parse`: the scheme in lower case, and the host with its brackets and port. -/
structure Url where
  scheme : List Char
  host : List Char
  deriving DecidableEq

/-! ### Characters and escapes -/

/-- What `stringContainsCTLByte` looks for. -/
def isCtl (c : Char) : Bool := c.toNat < 0x20 || c.toNat = 0x7f

def isHex (c : Char) : Bool := (readDigit 16 c.toLower).isSome

/-- `unescape` succeeds: each percent sign has two hexadecimal digits after it. -/
def escapesValid : List Char → Bool
  | [] => true
  | '%' :: a :: b :: rest => isHex a && isHex b && escapesValid rest
  | '%' :: _ => false
  | _ :: rest => escapesValid rest

/-- `!shouldEscape(c, encodeHost)`, or a byte of a character above ASCII. -/
def isHostChar (c : Char) : Bool :=
  0x80 ≤ c.toNat || c.isAlphanum || c ∈ "-_.~!$&'()*+,;=:[]<>\"".toList

/-- `unescape` in a host succeeds: of ASCII only the percent sign itself may be escaped. -/
def hostEscapesValid : List Char → Bool
  | [] => true
  | '%' :: a :: b :: rest =>
    isHex a && isHex b && ((a = '2' && b = '5') || 8 ≤ (readDigit 16 a.toLower).getD 0) &&
      hostEscapesValid rest
  | '%' :: _ => false
  | c :: rest => isHostChar c && hostEscapesValid rest

/-- `unescape` in a zone succeeds: what is escaped is a percent sign, a space, or a character that a
host may have. -/
def zoneEscapesValid : List Char → Bool
  | [] => true
  | '%' :: a :: b :: rest =>
    match readNat 16 [a.toLower, b.toLower] with
    | some v =>
      (v = 0x25 || v = 0x20 || (v < 0x80 && isHostChar (Char.ofNat v))) && zoneEscapesValid rest
    | none => false
  | '%' :: _ => false
  | c :: rest => isHostChar c && zoneEscapesValid rest

def isUserinfoChar (c : Char) : Bool := c.isAlphanum || c ∈ "-._:~!$&'()*+,;=%@".toList

def validOptionalPort : List Char → Bool
  | [] => true
  | c :: digits => c = ':' && digits.all Char.isDigit

/-! ### The parts of a URL -/

/-- The text after the last separator, the whole if there is none. -/
def afterLast (sep : Char) (s : List Char) : List Char := (s.reverse.takeWhile (· ≠ sep)).reverse

/-- The text before the last separator. -/
def beforeLast (sep : Char) (s : List Char) : Option (List Char) :=
  if sep ∈ s then some (s.reverse.dropWhile (· ≠ sep)).tail.reverse else none

/-- The text before and after the first `%25`. -/
def cutZone : List Char → Option (List Char × List Char)
  | [] => none
  | '%' :: '2' :: '5' :: zone => some ([], zone)
  | c :: rest => (cutZone rest).map fun x ↦ (c :: x.1, x.2)

def isV6 (s : List Char) : Bool :=
  match IpAddr.fromStr s with
  | some (.v6 _) => true
  | _ => false

/-- Only a v6 literal may stand in brackets, with a zone or without. -/
def bracketValid (inner : List Char) : Bool :=
  match cutZone inner with
  | none => isV6 inner
  | some (addr, zone) => isV6 addr && zone ≠ [] && zoneEscapesValid zone

/-- The name of a host without brackets. -/
def nameOf (host : List Char) : List Char := host.takeWhile (· ≠ ':')

def parseHost (host : List Char) : Option (List Char) :=
  if '[' ∈ host then
    match host with
    | '[' :: rest =>
      match beforeLast ']' rest with
      | some inner =>
        if '[' ∉ rest && bracketValid inner && validOptionalPort (afterLast ']' rest) then some host
        else none
      | none => none
    | _ => none
  else if hostEscapesValid (nameOf host) && validOptionalPort (host.dropWhile (· ≠ ':')) then
    some host
  else none

def parseAuthority (authority : List Char) : Option (List Char) :=
  match parseHost (afterLast '@' authority) with
  | none => none
  | some host =>
    match beforeLast '@' authority with
    | none => some host
    | some userinfo =>
      if userinfo.all isUserinfoChar && escapesValid userinfo then some host else none

/-- The scheme, and what follows its colon. A URL without a scheme is not read further here:
`parseURLOption` refuses it anyway. -/
def getScheme (rawURL : List Char) : Option (List Char × List Char) :=
  match rawURL.dropWhile (· ≠ ':') with
  | [] => none
  | _ :: rest =>
    match rawURL.takeWhile (· ≠ ':') with
    | [] => none
    | c :: cs =>
      if c.isAlpha && cs.all (fun c ↦ c.isAlphanum || c = '+' || c = '-' || c = '.') then
        some (c :: cs, rest)
      else none

/-- The authority and the path of what follows the scheme. -/
def parseHier (scheme : List Char) : List Char → Option Url
  | '/' :: '/' :: rest =>
    match parseAuthority (rest.takeWhile (· ≠ '/')) with
    | none => none
    | some host =>
      if escapesValid (rest.dropWhile (· ≠ '/')) then some ⟨scheme, host⟩ else none
  | '/' :: rest => if escapesValid rest then some ⟨scheme, []⟩ else none
  | _ => some ⟨scheme, []⟩

/-- `url.Parse`. -/
def parse (rawURL : List Char) : Option Url :=
  let u := rawURL.takeWhile (· ≠ '#')
  let frag := (rawURL.dropWhile (· ≠ '#')).tail
  if u.any isCtl then none
  else
    match getScheme u with
    | none => none
    | some (scheme, rest) =>
      match parseHier (scheme.map Char.toLower) (rest.takeWhile (· ≠ '?')) with
      | none => none
      | some url => if escapesValid frag then some url else none

/-- `Url.Hostname`: the host without its brackets and its port. -/
def Url.hostname (url : Url) : List Char :=
  match url.host with
  | '[' :: rest => (beforeLast ']' rest).getD []
  | host => nameOf host

/-- Whether what is dialed is an address: a literal, in brackets with a zone or without. An escape
in a host decodes to a percent sign or to a byte above ASCII, and neither is in a literal. -/
def Url.isLiteral (url : Url) : Bool :=
  match url.host with
  | '[' :: _ =>
    match cutZone url.hostname with
    | some (addr, _) => isV6 addr
    | none => isV6 url.hostname
  | _ => (IpAddr.fromStr url.hostname).isSome

/-! ### What is accepted -/

section Accepted

variable {v h : List Char} {u : Url}

/-- What is cut off before a separator. -/
theorem takeWhile_ne {sep : Char} {before after : List Char} (hsep : sep ∉ before) :
    (before ++ sep :: after).takeWhile (· ≠ sep) = before := by
  have hall : ∀ c ∈ before, decide (c ≠ sep) = true := fun c hc ↦
    decide_eq_true fun h ↦ hsep (h ▸ hc)
  rw [List.takeWhile_append_of_pos hall]
  simp

theorem dropWhile_ne {sep : Char} {before after : List Char} (hsep : sep ∉ before) :
    (before ++ sep :: after).dropWhile (· ≠ sep) = sep :: after := by
  have hall : ∀ c ∈ before, decide (c ≠ sep) = true := fun c hc ↦
    decide_eq_true fun h ↦ hsep (h ▸ hc)
  rw [List.dropWhile_append_of_pos hall]
  simp

theorem takeWhile_of_not_mem {sep : Char} {s : List Char} (hsep : sep ∉ s) :
    s.takeWhile (· ≠ sep) = s := by
  have hall : ∀ c ∈ s, decide (c ≠ sep) = true := fun c hc ↦ decide_eq_true fun h ↦ hsep (h ▸ hc)
  have happend : (s ++ []).takeWhile (· ≠ sep) = s ++ [].takeWhile (· ≠ sep) :=
    List.takeWhile_append_of_pos hall
  simpa using happend

theorem dropWhile_of_not_mem {sep : Char} {s : List Char} (hsep : sep ∉ s) :
    s.dropWhile (· ≠ sep) = [] := by
  have hall : ∀ c ∈ s, decide (c ≠ sep) = true := fun c hc ↦ decide_eq_true fun h ↦ hsep (h ▸ hc)
  have happend : (s ++ []).dropWhile (· ≠ sep) = [].dropWhile (· ≠ sep) :=
    List.dropWhile_append_of_pos hall
  simpa using happend

theorem afterLast_of_not_mem {sep : Char} {s : List Char} (hsep : sep ∉ s) :
    afterLast sep s = s := by
  have hrev : sep ∉ s.reverse := fun h ↦ hsep (List.mem_reverse.1 h)
  rw [afterLast, takeWhile_of_not_mem hrev, List.reverse_reverse]

/-- A host that is accepted by itself is accepted in a URL with a plain path. -/
theorem parse_https (hhost : parseHost h = some h)
    (hplain : ∀ c ∈ h, c ∉ ['#', '?', '/', '@'] ∧ isCtl c = false) :
    parse ("https://".toList ++ h ++ "/dns-query".toList) = some ⟨"https".toList, h⟩ := by
  have hnot {c : Char} (hc : c ∈ ['#', '?', '/', '@']) : c ∉ h := fun hmem ↦ (hplain c hmem).1 hc
  have hfrag : '#' ∉ "https://".toList ++ h ++ "/dns-query".toList := by
    simp [@hnot '#' (by simp)]
  have hctl : ("https://".toList ++ h ++ "/dns-query".toList).any isCtl = false := by
    have hscheme : "https://".toList.any isCtl = false := by decide
    have hpath : "/dns-query".toList.any isCtl = false := by decide
    have hhost : h.any isCtl = false := List.any_eq_false.2 fun c hc ↦ by simp [(hplain c hc).2]
    rw [List.any_append, List.any_append, hscheme, hhost, hpath]
    rfl
  have hscheme : getScheme ("https://".toList ++ h ++ "/dns-query".toList) =
      some ("https".toList, '/' :: '/' :: (h ++ "/dns-query".toList)) := by
    simp [getScheme]
  have hquery : '?' ∉ '/' :: '/' :: (h ++ "/dns-query".toList) := by
    simp [@hnot '?' (by simp)]
  have hauthority : parseAuthority h = some h := by
    have hat : '@' ∉ h := hnot (by simp)
    rw [parseAuthority, afterLast_of_not_mem hat, hhost]
    simp [beforeLast, hat]
  have hslash : '/' ∉ h := hnot (by simp)
  have hpath : h ++ "/dns-query".toList = h ++ '/' :: "dns-query".toList := by simp
  have hvalid : escapesValid ('/' :: "dns-query".toList) = true := by decide
  have hlower : "https".toList.map Char.toLower = "https".toList := by decide
  have hhier : parseHier ("https".toList.map Char.toLower)
      ('/' :: '/' :: (h ++ "/dns-query".toList)) = some ⟨"https".toList, h⟩ := by
    rw [hpath, parseHier, takeWhile_ne hslash, dropWhile_ne hslash, hauthority]
    dsimp only
    rw [if_pos hvalid, hlower]
  unfold parse
  dsimp only
  rw [takeWhile_of_not_mem hfrag, dropWhile_of_not_mem hfrag, hctl, hscheme]
  dsimp only
  rw [takeWhile_of_not_mem hquery, hhier]
  rfl

theorem hostEscapesValid_of_plain (hh : ∀ c ∈ h, c ≠ '%' ∧ isHostChar c = true) :
    hostEscapesValid h = true := by
  induction h with
  | nil => rfl
  | cons c h ih =>
    obtain ⟨⟨hne, hchar⟩, hrest⟩ := List.forall_mem_cons.1 hh
    rw [hostEscapesValid.eq_def]
    simp [hne, hchar, ih hrest]

theorem cutZone_of_not_mem (hh : '%' ∉ h) : cutZone h = none := by
  induction h with
  | nil => rfl
  | cons c h ih =>
    have hne : c ≠ '%' := fun h ↦ hh (h ▸ (.head _))
    rw [cutZone.eq_def]
    simp [hne, ih fun hmem ↦ hh (.tail _ hmem)]

/-- The characters of an address are plain in a URL. -/
theorem plain_display {c : Char} {ip : IpAddr} (hc : c ∈ ip.display.toList) :
    c ∉ ['#', '?', '/', '@', '%', '[', ']'] ∧ isCtl c = false ∧ isHostChar c = true := by
  have hall : ∀ c ∈ IpAddr.displayChars,
      c ∉ ['#', '?', '/', '@', '%', '[', ']'] ∧ isCtl c = false ∧ isHostChar c = true :=
    Text.forall_of_all (by decide)
  exact hall c (IpAddr.mem_displayChars hc)

theorem not_mem_of_plain {c : Char} {ip : IpAddr}
    (hc : c ∈ ['#', '?', '/', '@', '%', '[', ']']) : c ∉ ip.display.toList :=
  fun hmem ↦ (plain_display hmem).1 hc

/-- **The URL of a v4 address is accepted.** -/
theorem parse_v4 (b : BitVec 32) :
    parse ("https://".toList ++ (IpAddr.v4 b).display.toList ++ "/dns-query".toList) =
      some ⟨"https".toList, (IpAddr.v4 b).display.toList⟩ := by
  refine parse_https ?_ fun c hc ↦ ?_
  · have hcolon : ':' ∉ (IpAddr.v4 b).display.toList := IpAddr.colon_not_mem_displayV4 b
    have hbracket : '[' ∉ (IpAddr.v4 b).display.toList := not_mem_of_plain (by simp)
    have hvalid : hostEscapesValid (IpAddr.v4 b).display.toList = true :=
      hostEscapesValid_of_plain fun c hc ↦
        ⟨fun h ↦ (plain_display hc).1 (by simp [h]), (plain_display hc).2.2⟩
    unfold parseHost
    rw [if_neg hbracket, nameOf, takeWhile_of_not_mem hcolon, dropWhile_of_not_mem hcolon, hvalid]
    rfl
  · obtain ⟨hnot, hctl, -⟩ := plain_display hc
    exact ⟨fun h ↦ hnot (by simp_all), hctl⟩

/-- **The URL of a v6 address is accepted**, in brackets. -/
theorem parse_v6 (b : BitVec 128) :
    parse ("https://".toList ++ ('[' :: ((IpAddr.v6 b).display.toList ++ [']'])) ++
      "/dns-query".toList) =
      some ⟨"https".toList, '[' :: ((IpAddr.v6 b).display.toList ++ [']'])⟩ := by
  refine parse_https ?_ fun c hc ↦ ?_
  · have hopen : '[' ∉ (IpAddr.v6 b).display.toList ++ [']'] := by
      simp [@not_mem_of_plain '[' (IpAddr.v6 b) (by simp)]
    have hbefore : beforeLast ']' ((IpAddr.v6 b).display.toList ++ [']']) =
        some (IpAddr.v6 b).display.toList := by
      simp [beforeLast]
    have hafter : afterLast ']' ((IpAddr.v6 b).display.toList ++ [']']) = [] := by
      simp [afterLast]
    have hvalid : bracketValid (IpAddr.v6 b).display.toList = true := by
      rw [bracketValid, cutZone_of_not_mem (not_mem_of_plain (by simp))]
      rw [isV6, IpAddr.fromStr_display]
    simp only [parseHost, List.mem_cons_self, if_true, hbefore, hvalid, hafter, validOptionalPort,
      hopen, not_false_eq_true, decide_true, Bool.and_self]
  · obtain rfl | hc := List.mem_cons.1 hc
    · decide
    · obtain hc | hc := List.mem_append.1 hc
      · obtain ⟨hnot, hctl, -⟩ := plain_display hc
        exact ⟨fun h ↦ hnot (by simp_all), hctl⟩
      · obtain rfl := List.mem_singleton.1 hc
        decide

theorem getScheme_eq_some {s scheme rest : List Char} (h : getScheme s = some (scheme, rest)) :
    s = scheme ++ ':' :: rest := by
  unfold getScheme at h
  split at h
  · cases h
  · rename_i c rest' hdrop
    have hcolon : c = ':' := by
      have hhead := List.head?_dropWhile_not (fun a : Char ↦ decide (a ≠ ':')) s
      rw [hdrop] at hhead
      simpa using hhead
    split at h
    · cases h
    · rename_i htake
      split at h
      · cases h
        obtain rfl := hcolon
        rw [← htake, ← hdrop, List.takeWhile_append_dropWhile]
      · cases h

/-- A host that is not empty comes from an authority. -/
theorem authority_of_parseHier {scheme s : List Char} (h : parseHier scheme s = some u)
    (hhost : u.host ≠ []) :
    u.scheme = scheme ∧ ∃ c rest, s = '/' :: '/' :: c :: rest ∧ c ≠ '/' := by
  unfold parseHier at h
  split at h
  · rename_i rest
    split at h
    · cases h
    · rename_i host hauthority
      split at h
      · cases h
        refine ⟨rfl, ?_⟩
        cases rest with
        | nil =>
          obtain rfl : [] = host := Option.some.inj hauthority
          exact absurd rfl hhost
        | cons c rest =>
          refine ⟨c, rest, rfl, fun hc ↦ ?_⟩
          rw [List.takeWhile_cons_of_neg (by simp [hc])] at hauthority
          obtain rfl : [] = host := Option.some.inj hauthority
          exact hhost rfl
      · cases h
  · split at h
    · cases h
      exact absurd rfl hhost
    · cases h
  · cases h
    exact absurd rfl hhost

/-- A URL that is accepted with a host begins with its scheme and an authority. -/
theorem authority_of_parse (h : parse v = some u) (hhost : u.host ≠ []) :
    ∃ scheme c rest, v = scheme ++ ':' :: '/' :: '/' :: c :: rest ∧
      scheme.map Char.toLower = u.scheme ∧ c ∉ ['/', '?', '#'] := by
  unfold parse at h
  dsimp only at h
  split at h
  · cases h
  · split at h
    · cases h
    · rename_i scheme rest hscheme
      split at h
      · cases h
      · rename_i url hhier
        split at h
        · cases h
          obtain ⟨hlower, c, rest', hrest, hslash⟩ := authority_of_parseHier hhier hhost
          have hquery : c ≠ '?' := by
            have hmem : c ∈ rest.takeWhile (· ≠ '?') := by rw [hrest]; simp
            simpa using List.all_eq_true.1 List.all_takeWhile c hmem
          have hfrag : c ≠ '#' := by
            have hmem : c ∈ v.takeWhile (· ≠ '#') := by
              rw [getScheme_eq_some hscheme, ← List.takeWhile_append_dropWhile (l := rest), hrest]
              simp
            simpa using List.all_eq_true.1 List.all_takeWhile c hmem
          refine ⟨scheme, c, rest' ++ rest.dropWhile (· ≠ '?') ++ v.dropWhile (· ≠ '#'), ?_,
            hlower.symm, by simp [hslash, hquery, hfrag]⟩
          calc v = v.takeWhile (· ≠ '#') ++ v.dropWhile (· ≠ '#') :=
                List.takeWhile_append_dropWhile.symm
            _ = scheme ++ ':' :: rest ++ v.dropWhile (· ≠ '#') := by
                rw [← getScheme_eq_some hscheme]
            _ = scheme ++ ':' :: (rest.takeWhile (· ≠ '?') ++ rest.dropWhile (· ≠ '?')) ++
                  v.dropWhile (· ≠ '#') := by rw [List.takeWhile_append_dropWhile]
            _ = _ := by rw [hrest]; simp
        · cases h

/-! ### The host that is kept -/

theorem eq_of_parseHost {host : List Char} (hhost : parseHost h = some host) : host = h := by
  unfold parseHost at hhost
  split at hhost
  · split at hhost
    · split at hhost
      · split at hhost
        · exact (Option.some.inj hhost).symm
        · cases hhost
      · cases hhost
    · cases hhost
  · split at hhost
    · exact (Option.some.inj hhost).symm
    · cases hhost

theorem parseHost_of_parseAuthority {authority host : List Char}
    (h : parseAuthority authority = some host) : parseHost host = some host := by
  unfold parseAuthority at h
  split at h
  · cases h
  · rename_i host' hhost
    have hself : parseHost host' = some host' := by
      rw [eq_of_parseHost hhost]
      exact (eq_of_parseHost hhost) ▸ hhost
    split at h
    · cases h
      exact hself
    · split at h
      · cases h
        exact hself
      · cases h

/-- The host of a URL is one that is accepted by itself. -/
theorem parseHost_of_parse (h : parse v = some u) (hhost : u.host ≠ []) :
    parseHost u.host = some u.host := by
  unfold parse at h
  dsimp only at h
  split at h
  · cases h
  · split at h
    · cases h
    · split at h
      · cases h
      · rename_i url hhier
        split at h
        · cases h
          unfold parseHier at hhier
          split at hhier
          · split at hhier
            · cases hhier
            · rename_i hauthority
              split at hhier
              · cases hhier
                exact parseHost_of_parseAuthority hauthority
              · cases hhier
          · split at hhier
            · cases hhier
              exact absurd rfl hhost
            · cases hhier
          · cases hhier
            exact absurd rfl hhost
        · cases h

/-- What is in brackets is a literal. -/
theorem isLiteral_of_bracket {rest : List Char} (hhost : parseHost u.host = some h)
    (hu : u.host = '[' :: rest) : u.isLiteral = true := by
  have hname : u.hostname = (beforeLast ']' rest).getD [] := by
    rw [Url.hostname, hu]
    rfl
  rw [hu, parseHost, if_pos List.mem_cons_self] at hhost
  split at hhost
  · rename_i inner hinner
    split at hhost
    · rename_i hvalid
      rw [hinner, Option.getD_some] at hname
      rw [Bool.and_eq_true, Bool.and_eq_true] at hvalid
      have hbracket := hvalid.1.2
      rw [bracketValid] at hbracket
      rw [Url.isLiteral, hu, hname]
      show (match cutZone inner with
        | some (addr, _) => isV6 addr
        | none => isV6 inner) = true
      cases hzone : cutZone inner with
      | none =>
        rw [hzone] at hbracket
        exact hbracket
      | some x =>
        rw [hzone] at hbracket
        simp only [Bool.and_eq_true] at hbracket
        exact hbracket.1.1
    · cases hhost
  · cases hhost

/-- A host without brackets is dialed by its name. -/
theorem isLiteral_of_name (hu : u.host.head? ≠ some '[') :
    u.isLiteral = (IpAddr.fromStr (nameOf u.host)).isSome := by
  have hname : u.hostname = nameOf u.host := by
    unfold Url.hostname
    split
    · rename_i heq
      exact absurd (congrArg List.head? heq) hu
    · rfl
  unfold Url.isLiteral
  split
  · rename_i heq
    exact absurd (congrArg List.head? heq) hu
  · rw [hname]

end Accepted

end Hole.GoUrl
