import Hole.Filter.Families

/-!
# The canonical form of a name

A rule holds the canonical form of its name, and a connection is asked for the canonical form of
its own. Both trim the dots at the end before the mapping of UTS #46, which writes other dots as
one, so a name that ends in one of these has a canonical form that is none: it ends in a dot, and
its own canonical form is another. A literal of an address has a canonical form too, but a rule for
it is about the address (`canonicalLaw_iff`).
-/

namespace Hole.Filter

open Text Gui

/-- What UTS #46 says of `domain_to_ascii`, whose mapping of characters is `map`. -/
structure Uts46 (c : Crates) (map : Char → List Char) : Prop where
  /-- What it returned it leaves as it is. -/
  idempotent : ∀ s t, c.domainToAscii s = .ok t → c.domainToAscii t = .ok t
  /-- The labels are what stands between the dots of the mapped text, and stay between dots. -/
  dot_at_end : ∀ s t, c.domainToAscii s = .ok t →
    (t.getLast? = some '.' ↔ (s.flatMap map).getLast? = some '.')

/-- The name ends in a character that is mapped to a dot, but for characters that are ignored. -/
def EndsInDot (map : Char → List Char) (s : List Char) : Prop :=
  ∃ pre x post, s = pre ++ x :: post ∧ (map x).getLast? = some '.' ∧ ∀ y ∈ post, map y = []

theorem endsInDot_concat {map : Char → List Char} {s : List Char} {x : Char} :
    EndsInDot map (s ++ [x]) ↔ (map x).getLast? = some '.' ∨ map x = [] ∧ EndsInDot map s := by
  constructor
  · rintro ⟨pre, y, post, hs, hy, hpost⟩
    rcases List.eq_nil_or_concat' post with rfl | ⟨post, z, rfl⟩
    · obtain ⟨-, hxy⟩ := List.append_inj' hs rfl
      rw [← List.singleton_inj.1 hxy] at hy
      exact .inl hy
    · rw [← List.cons_append, ← List.append_assoc] at hs
      obtain ⟨rfl, hxz⟩ := List.append_inj' hs rfl
      rw [List.singleton_inj.1 hxz]
      exact .inr ⟨hpost z (by simp), pre, y, post, rfl, hy,
        fun w hw ↦ hpost w (List.mem_append_left _ hw)⟩
  · rintro (hx | ⟨hx, pre, y, post, rfl, hy, hpost⟩)
    · exact ⟨s, x, [], rfl, hx, nofun⟩
    · refine ⟨pre, y, post ++ [x], by simp, hy, fun z hz ↦ ?_⟩
      rcases List.mem_append.1 hz with hz | hz
      · exact hpost z hz
      · rwa [List.mem_singleton.1 hz]

theorem getLast?_flatMap {map : Char → List Char} {s : List Char} :
    (s.flatMap map).getLast? = some '.' ↔ EndsInDot map s := by
  induction s using List.reverseRecOn with
  | nil =>
    refine iff_of_false nofun ?_
    rintro ⟨pre, x, post, hnil, -⟩
    cases pre <;> cases hnil
  | append_singleton s x ih =>
    rw [List.flatMap_append, List.flatMap_singleton, List.getLast?_append, endsInDot_concat, ← ih,
      Option.or_eq_some_iff, List.getLast?_eq_none_iff]

section Law

variable {c : Crates} {map : Char → List Char} {s r : List Char}

theorem trimDots_eq_self (h : s.getLast? ≠ some '.') : trimDots s = s := by
  rw [trimDots]
  induction s using List.reverseRecOn with
  | nil => rfl
  | append_singleton s x ih =>
    refine List.rdropWhile_concat_neg _ _ _ fun hx ↦ h ?_
    rw [List.getLast?_concat, beq_iff_eq.1 hx]

theorem canonicalizeDomain_eq_ok (h : canonicalizeDomain c s = .ok r) :
    trimDots s ≠ [] ∧ c.domainToAscii (trimDots s) = .ok r ∧ r ≠ [] := by
  rw [canonicalizeDomain] at h
  split at h
  · cases h
  · next hne =>
    split at h
    · cases h
    · split at h
      · cases h
      · next ascii hascii =>
        split at h
        · cases h
        · next hne' =>
          cases h
          exact ⟨hne, hascii, hne'⟩

/-- The rule side and the connection side agree. -/
theorem canonicalizeForMatch_eq (h : canonicalizeDomain c s = .ok r) :
    canonicalizeForMatch c s = r := by
  obtain ⟨hne, hascii, hne'⟩ := canonicalizeDomain_eq_ok h
  rw [canonicalizeForMatch, if_neg hne, hascii]
  exact if_neg hne'

/-- What is asked of the canonical form `r` of a name `s`. -/
structure CanonicalLaw (c : Crates) (s r : List Char) : Prop where
  /-- The connection side agrees. -/
  same : canonicalizeForMatch c s = r
  idempotent : canonicalizeForMatch c (canonicalizeForMatch c s) = canonicalizeForMatch c s
  no_dot : r.getLast? ≠ some '.'
  /-- A rule for the name matches every connection to a spelling of it. -/
  rules : ∀ conn d, conn.domain = some d → canonicalizeForMatch c d = canonicalizeForMatch c s →
      (∃ m, parseExact c s = .ok m ∧ m.matches conn = true) ∧
        ∃ m, parseWithSubdomains c s = .ok m ∧ m.matches conn = true

theorem parse_of_canonicalizeDomain (h : canonicalizeDomain c s = .ok r)
    (hip : IpAddr.fromStr s = none) :
    parseExact c s = .ok (.exactDomain r) ∧ parseWithSubdomains c s = .ok (.subdomainDomain r) := by
  have hne : s ≠ [] := by
    rintro rfl
    exact (canonicalizeDomain_eq_ok h).1 rfl
  constructor
  · rw [parseExact, if_neg hne, hip]
    rw [h]
    rfl
  · rw [parseWithSubdomains, if_neg hne, hip, if_neg (by simp), h]
    rfl

theorem matches_canonical (h : canonicalizeDomain c s = .ok r) {conn : ConnInfo} {d : List Char}
    (hd : conn.domain = some d) (hsame : canonicalizeForMatch c d = canonicalizeForMatch c s) :
    (Matcher.exactDomain (c := c) r).matches conn = true ∧
      (Matcher.subdomainDomain (c := c) r).matches conn = true := by
  rw [canonicalizeForMatch_eq h] at hsame
  rw [Matcher.matches, Matcher.matches, hd]
  dsimp only
  rw [hsame]
  exact ⟨beq_self_eq_true r, domainMatchesWithSubdomains_iff.2 (.inl (beq_self_eq_true _))⟩

/-- A rule for the subdomains of an address does not compile. -/
theorem parseWithSubdomains_literal (hip : IpAddr.fromStr s ≠ none) (m : Matcher c) :
    parseWithSubdomains c s ≠ .ok m := by
  rw [parseWithSubdomains]
  split
  · exact nofun
  · rw [if_pos (Option.isSome_iff_ne_none.2 hip)]
    exact nofun

/-- **The law holds** of a name if and only if it is no literal of an address, and what is left of
it without its dots does not end in another spelling of one. -/
theorem canonicalLaw_iff (hidna : Uts46 c map) (h : canonicalizeDomain c s = .ok r) :
    CanonicalLaw c s r ↔ IpAddr.fromStr s = none ∧ ¬EndsInDot map (trimDots s) := by
  obtain ⟨-, hascii, hne⟩ := canonicalizeDomain_eq_ok h
  rw [← getLast?_flatMap, ← hidna.dot_at_end _ _ hascii]
  constructor
  · intro hlaw
    refine ⟨?_, hlaw.no_dot⟩
    by_contra hip
    obtain ⟨-, m, hm, -⟩ := hlaw.rules ⟨⟨.v4 0, 0⟩, some s, .tcp⟩ s rfl rfl
    exact parseWithSubdomains_literal hip m hm
  · rintro ⟨hip, hdot⟩
    obtain ⟨hexact, hsub⟩ := parse_of_canonicalizeDomain h hip
    refine ⟨canonicalizeForMatch_eq h, ?_, hdot, fun conn d hd hsame ↦ ?_⟩
    · rw [canonicalizeForMatch_eq h, canonicalizeForMatch, trimDots_eq_self hdot, if_neg hne,
        hidna.idempotent _ _ hascii]
      exact if_neg hne
    · obtain ⟨hexact', hsub'⟩ := matches_canonical h hd hsame
      exact ⟨⟨_, hexact, hexact'⟩, _, hsub, hsub'⟩

end Law

/-- The mapping, as far as ASCII, the dots and a character that is ignored go. -/
def sampleMap (x : Char) : List Char :=
  if x ∈ ['\u3002', '\uff0e', '\uff61'] then ['.'] else if x = '\u00ad' then [] else [x.toLower]

/-- The crate, on names that are mapped to ASCII. -/
def sampleIdna (s : List Char) : Except String (List Char) :=
  if (s.flatMap sampleMap).all (·.toNat < 128) then .ok (s.flatMap sampleMap) else .error "mapping"

/-- The crates, with that one. -/
def names : Crates := { ipnet with domainToAscii := sampleIdna }

theorem names_domainToAscii : names.domainToAscii = sampleIdna := rfl

theorem toLower_of_mem_sampleMap {x y : Char} (hy : y ∈ sampleMap x) : y.toLower = y := by
  rw [sampleMap] at hy
  split at hy
  · rw [List.mem_singleton.1 hy]
    rfl
  · split at hy
    · cases hy
    · rw [List.mem_singleton.1 hy, Text.toLower_toLower]

theorem sampleMap_eq_self {x y : Char} (hy : y ∈ sampleMap x) (hlt : y.toNat < 128) :
    sampleMap y = [y] := by
  have hdots : y ∉ ['\u3002', '\uff0e', '\uff61'] := by
    intro hmem
    have hbig : ∀ z ∈ ['\u3002', '\uff0e', '\uff61'], 128 ≤ z.toNat := by simp
    exact absurd hlt (Nat.not_lt.2 (hbig y hmem))
  have hignored : y ≠ '\u00ad' := by
    rintro rfl
    simp at hlt
  rw [sampleMap, if_neg hdots, if_neg hignored, toLower_of_mem_sampleMap hy]

theorem uts46_names : Uts46 names sampleMap where
  idempotent s t ht := by
    rw [names_domainToAscii] at ht ⊢
    rw [sampleIdna] at ht
    split at ht
    · next hall =>
      cases ht
      have hself : (s.flatMap sampleMap).flatMap sampleMap = s.flatMap sampleMap := by
        refine (List.flatMap_congr fun y hy ↦ ?_).trans (List.flatMap_singleton' _)
        obtain ⟨x, -, hyx⟩ := List.mem_flatMap.1 hy
        exact sampleMap_eq_self hyx (by simpa using List.all_eq_true.1 hall y hy)
      rw [sampleIdna, hself, if_pos hall]
    · cases ht
  dot_at_end s t ht := by
    rw [names_domainToAscii, sampleIdna] at ht
    split at ht
    · cases ht
      rfl
    · cases ht

theorem canonicalLaw_sample :
    CanonicalLaw names "Example.com..".toList "example.com".toList ↔
      IpAddr.fromStr "Example.com..".toList = none ∧
        ¬EndsInDot sampleMap (trimDots "Example.com..".toList) :=
  canonicalLaw_iff uts46_names (by decide)

/-- **The dot that the mapping writes stays**: a rule for `example.com`, with an ideographic full
stop behind it, matches no connection to `example.com`. And a rule for `1.2.3.4` matches no
connection to another address that has it for a name. -/
theorem dot_stays :
    canonicalizeDomain names "example.com\u3002".toList = .ok "example.com.".toList ∧
      canonicalizeForMatch names (canonicalizeForMatch names "example.com\u3002".toList) ≠
        canonicalizeForMatch names "example.com\u3002".toList ∧
      (Matcher.exactDomain (c := names) "example.com.".toList).matches
        ⟨⟨IpAddr.ofOctets 203 0 113 7, 443⟩, some "example.com".toList, .tcp⟩ = false ∧
      canonicalizeDomain names "1.2.3.4".toList = .ok "1.2.3.4".toList ∧
      ∀ m, parseExact names "1.2.3.4".toList = .ok m →
        m.matches ⟨⟨IpAddr.ofOctets 203 0 113 7, 443⟩, some "1.2.3.4".toList, .tcp⟩ = false := by
  refine ⟨by decide, by decide, by decide, by decide, fun m hm ↦ ?_⟩
  obtain rfl : .exactIp (IpAddr.ofOctets 1 2 3 4) = m := Except.ok.inj hm
  decide

end Hole.Filter
