import Hole.Net.UrlHost
import Hole.Plugin.Directives

/-!
# A resolver that is left in place

Hole leaves the operator's `ech-doh` in place where it names its resolver by address: asking it
costs no name lookup. What Hole judges is the host that the `url` crate reads, and what ex-ray dials
is the host that Go reads. They differ on a name that is a number to the URL standard, so an
operator's URL costs no lookup exactly if its host is none of those (`left_in_place_iff`).
-/

namespace Hole.Plugin

open Text

/-- What the `url` crate documents: it follows the URL standard. -/
structure UrlCrate (hostStr toAscii : List Char → Option (List Char)) : Prop where
  /-- The ASCII form of a name is in lower case. -/
  lower : ∀ name d, toAscii name = some d → d.map Char.toLower = d
  /-- The host string of a URL with a name. -/
  name : ∀ v u, GoUrl.parse v = some u → u.scheme = "https".toList → u.host ≠ [] →
    u.host.head? ≠ some '[' → hostStr v = UrlHost.host toAscii u.host

/-- A name that is an address to the URL standard, and no literal. -/
def NumericName (toAscii : List Char → Option (List Char)) (u : GoUrl.Url) : Prop :=
  u.host.head? ≠ some '[' ∧ UrlHost.isNumeric toAscii u.host = true ∧
    IpAddr.fromStr (GoUrl.nameOf u.host) = none

section Displace

variable {hostStr toAscii : List Char → Option (List Char)} {v : List Char} {u : GoUrl.Url}

theorem trimBrackets {s : List Char} (hopen : '[' ∉ s) (hclose : ']' ∉ s) :
    ((s.dropWhile (· = '[')).reverse.dropWhile (· = ']')).reverse = s := by
  have hdrop {c : Char} {s : List Char} (h : c ∉ s) : s.dropWhile (· = c) = s := by
    cases s with
    | nil => rfl
    | cons d s =>
      refine List.dropWhile_cons_of_neg fun hd ↦ h ?_
      rw [of_decide_eq_true hd]
      exact .head _
  rw [hdrop hopen, hdrop fun h ↦ hclose (List.mem_reverse.1 h), List.reverse_reverse]

/-- Of an offer that is not pinned, only the authority of the operator's URL matters. -/
theorem echDohDisplaces_eq {e : EchDoh} {segments : List OptionSegment}
    (hpinned : e.isPinned = false)
    (hvalue : flagValue segments .echDoh = some v) :
    echDohDisplaces hostStr segments (some e) = authorityIsAName hostStr v := by
  unfold echDohDisplaces
  rw [hvalue]
  dsimp only
  rw [holeEchDohOutranks, hpinned, Bool.false_or]

/-- Hole takes a name for an address exactly if the URL standard does. -/
theorem authorityIsAName_eq (hcrate : UrlCrate hostStr toAscii) (hparse : GoUrl.parse v = some u)
    (hhttps : u.scheme = "https".toList) (hhost : u.host ≠ []) (hname : u.host.head? ≠ some '[') :
    authorityIsAName hostStr v = !UrlHost.isNumeric toAscii u.host := by
  rw [authorityIsAName, hcrate.name v u hparse hhttps hhost hname]
  cases htext : UrlHost.host toAscii u.host with
  | some text =>
    obtain ⟨hopen, hclose, hip⟩ := UrlHost.fromStr_host hcrate.lower htext
    dsimp only
    rw [trimBrackets hopen hclose, ← hip]
    cases IpAddr.fromStr text <;> rfl
  | none =>
    cases hnumeric : UrlHost.isNumeric toAscii u.host with
    | false => rfl
    | true =>
      obtain ⟨text, hsome⟩ := UrlHost.host_of_isNumeric hnumeric
      rw [htext] at hsome
      cases hsome

theorem isHttpsUrl_cases (h : isHttpsUrl v = true) :
    ∃ u, GoUrl.parse v = some u ∧ u.scheme = "https".toList ∧ u.host ≠ [] := by
  unfold isHttpsUrl at h
  split at h
  · cases h
  · rename_i u hparse
    obtain ⟨hscheme, hhost⟩ := Bool.and_eq_true_iff.1 h
    exact ⟨u, hparse, of_decide_eq_true hscheme, of_decide_eq_true hhost⟩

/-- **An operator's resolver that is left in place is named by its address, exactly if its host is
no number in another spelling.** -/
theorem left_in_place_iff (hcrate : UrlCrate hostStr toAscii) (hv : v = [] ∨ isHttpsUrl v = true) :
    (∀ (e : EchDoh) (segments : List OptionSegment) (u : GoUrl.Url), e.isPinned = false →
      flagValue segments .echDoh = some v → echDohDisplaces hostStr segments (some e) = false →
      GoUrl.parse v = some u → u.isLiteral = true) ↔
    ∀ u, GoUrl.parse v = some u → ¬NumericName toAscii u := by
  obtain rfl | hhttps := hv
  · have hnone : GoUrl.parse [] = none := by decide
    constructor
    · intro _ u hparse
      rw [hnone] at hparse
      cases hparse
    · intro _ _ _ u _ _ _ hparse
      rw [hnone] at hparse
      cases hparse
  · obtain ⟨u, hparse, hscheme, hhost⟩ := isHttpsUrl_cases hhttps
    constructor
    · rintro hliteral u' hparse' ⟨hname, hnumeric, hnot⟩
      obtain rfl : u = u' := Option.mem_unique hparse hparse'
      let e : EchDoh := ⟨_, .ofOctets 1 1 1 1, .noQueryNeeded, rfl⟩
      let segments : List OptionSegment := [⟨v, OptionKey.text .echDoh, v, true⟩]
      have hvalue : flagValue segments .echDoh = some v := by
        rw [flagValue_cons, if_pos rfl]
        rfl
      have hdisplaces : echDohDisplaces hostStr segments (some e) = false := by
        rw [echDohDisplaces_eq rfl hvalue,
          authorityIsAName_eq hcrate hparse hscheme hhost hname, hnumeric]
        rfl
      have hlit := hliteral e segments u rfl hvalue hdisplaces hparse
      rw [GoUrl.isLiteral_of_name hname, hnot] at hlit
      cases hlit
    · intro hcond e segments u' hpinned hvalue hdisplaces hparse'
      obtain rfl : u = u' := Option.mem_unique hparse hparse'
      have hname : authorityIsAName hostStr v = false := by
        rw [← echDohDisplaces_eq hpinned hvalue]
        exact hdisplaces
      cases hu : u.host with
      | nil => exact absurd hu hhost
      | cons c rest =>
        by_cases hc : c = '['
        · exact GoUrl.isLiteral_of_bracket (GoUrl.parseHost_of_parse hparse hhost) (hc ▸ hu)
        · have hhead : u.host.head? ≠ some '[' := by
            rw [hu]
            exact fun h ↦ hc (Option.some.inj h)
          rw [authorityIsAName_eq hcrate hparse hscheme hhost hhead, Bool.not_eq_false'] at hname
          rw [GoUrl.isLiteral_of_name hhead, Option.isSome_iff_ne_none]
          exact fun hnone ↦ hcond u hparse ⟨hhead, hname, hnone⟩

end Displace

/-- The `idna` crate, on names that are plain already. -/
def plainToAscii (name : List Char) : Option (List Char) :=
  if name.map Char.toLower = name then some name else none

/-- The `url` crate, on URLs with such a name. -/
def plainHostStr (v : List Char) : Option (List Char) :=
  match GoUrl.parse v with
  | some u => UrlHost.host plainToAscii u.host
  | none => none

theorem urlCrate_plain : UrlCrate plainHostStr plainToAscii where
  lower name d h := by
    unfold plainToAscii at h
    split at h
    · rename_i hlower
      exact Option.some.inj h ▸ hlower
    · cases h
  name v u hparse _ _ _ := by
    rw [plainHostStr, hparse]

/-- A resolver that is named by a dotted quad. -/
theorem left_in_place_dotted :
    GoUrl.parse "https://9.9.9.9/dns-query".toList = some ⟨"https".toList, "9.9.9.9".toList⟩ ∧
      ∀ (e : EchDoh) (segments : List OptionSegment) (u : GoUrl.Url), e.isPinned = false →
        flagValue segments .echDoh = some "https://9.9.9.9/dns-query".toList →
        echDohDisplaces plainHostStr segments (some e) = false →
        GoUrl.parse "https://9.9.9.9/dns-query".toList = some u → u.isLiteral = true := by
  have hparse : GoUrl.parse "https://9.9.9.9/dns-query".toList =
      some ⟨"https".toList, "9.9.9.9".toList⟩ := by decide
  refine ⟨hparse, (left_in_place_iff urlCrate_plain (.inr (by decide))).2 ?_⟩
  rintro u hu ⟨-, -, hnone⟩
  obtain rfl := Option.mem_unique hparse hu
  exact absurd hnone (by decide)

/-- The segments of `ech-doh=https://1.1/dns-query`. -/
def shortSegments : List OptionSegment :=
  [⟨"ech-doh=https://1.1/dns-query".toList, "ech-doh".toList, "https://1.1/dns-query".toList, true⟩]

/-- `1.1` is left in place as an address, and dialed as a name. -/
theorem left_in_place_short :
    parseURLOption (readingOf shortSegments) .echDoh [] =
        .ok "https://1.1/dns-query".toList ∧
      echDohDisplaces plainHostStr shortSegments
        (some ⟨_, .ofOctets 1 1 1 1, .noQueryNeeded, rfl⟩) = false ∧
      GoUrl.parse "https://1.1/dns-query".toList = some ⟨"https".toList, "1.1".toList⟩ ∧
      GoUrl.Url.isLiteral ⟨"https".toList, "1.1".toList⟩ = false := by
  decide

end Hole.Plugin
