import Hole.Filter.Canonical
import Hole.Text.Regex

/-!
# Wildcards

What `parse_wildcard` compiles a glob to, as `regex` reads it: the whole canonical form of a
connection's name, with any characters for a star, one for a question mark, and every other
character for itself but for case (`wildcard_spec`).

The name of the connection is made canonical and the glob is not, so a glob without a star and
without a question mark need not match what the rule of that very name matches. It does if it is
its own canonical form, but for case.
-/

namespace Hole.Filter

open Text Gui

/-- What is published of `regex`: `is_match` searches a text for what the pattern matches, where
`fold` is the simple case folding of Unicode. -/
def RegexPublished (c : Crates) (fold : Char → Char) : Prop :=
  ∀ pattern re e, c.newRegex pattern = .ok re → Regex.parse pattern = some e →
    ∀ s, c.isMatch re s = e.isMatch fold s

/-- What is published of the case of names: a canonical form is that of whatever differs from it in
case, and its own. -/
structure CasePublished (c : Crates) (fold : Char → Char) : Prop where
  idempotent : ∀ s t, c.domainToAscii s = .ok t → c.domainToAscii t = .ok t
  fold_eq : ∀ s t, c.domainToAscii s = .ok s → t.map fold = s.map fold → c.domainToAscii t = .ok s
  /-- The two cases of ASCII are folded to one. -/
  fold_lower : ∀ x : Char, fold x.toLower = fold x

/-! ### Globs -/

/-- A glob matches the whole of a text. -/
def GlobMatches (fold : Char → Char) : List Char → List Char → Prop
  | [], s => s = []
  | '*' :: glob, s => ∃ u v, s = u ++ v ∧ GlobMatches fold glob v
  | '?' :: glob, s => ∃ x v, s = x :: v ∧ GlobMatches fold glob v
  | c :: glob, s => ∃ x v, s = x :: v ∧ fold x = fold c ∧ GlobMatches fold glob v

/-- What a character of a glob is. -/
def globItem (c : Char) : Regex.Item :=
  if c = '*' then .many .any else if c = '?' then .one .any else .one (.lit c)

theorem escaped_subset :
    ['.', '+', '(', ')', '|', '[', ']', '\x7b', '\x7d', '^', '$', '\\'] ⊆ Regex.metaChars := by
  decide

theorem metaChars_subset : Regex.metaChars ⊆
      '*' :: '?' :: ['.', '+', '(', ')', '|', '[', ']', '\x7b', '\x7d', '^', '$', '\\'] := by
  decide

theorem parseItems_globToRegex (glob : List Char) (acc : List Regex.Item) :
    Regex.parseItems (glob.flatMap (fun c ↦
      if c = '*' then ['.', '*']
      else if c = '?' then ['.']
      else if c ∈ ['.', '+', '(', ')', '|', '[', ']', '\x7b', '\x7d', '^', '$', '\\'] then ['\\', c]
      else [c]) ++ ['$']) acc = some (acc.reverse ++ (glob.map globItem ++ [.stop])) := by
  induction glob generalizing acc with
  | nil => simp [Regex.parseItems]
  | cons c glob ih =>
    have hacc (item : Regex.Item) (rest : List Regex.Item) :
        (item :: acc).reverse ++ rest = acc.reverse ++ item :: rest := by simp
    rw [List.flatMap_cons, List.append_assoc, List.map_cons, List.cons_append, globItem]
    by_cases hstar : c = '*'
    · rw [if_pos hstar, if_pos hstar, ← hacc, ← ih]
      rfl
    rw [if_neg hstar, if_neg hstar]
    by_cases hquest : c = '?'
    · rw [if_pos hquest, if_pos hquest, ← hacc, ← ih]
      rfl
    rw [if_neg hquest, if_neg hquest, ← hacc, ← ih]
    split
    · next hmeta => exact Regex.parseItems_escaped (escaped_subset hmeta) _ _
    · next hplain =>
      refine Regex.parseItems_plain (fun hmem ↦ ?_) _ _
      rcases List.mem_cons.1 (metaChars_subset hmem) with rfl | hmem
      · exact hstar rfl
      · rcases List.mem_cons.1 hmem with rfl | hmem
        · exact hquest rfl
        · exact hplain hmem

theorem parse_globToRegex (glob : List Char) :
    Regex.parse (globToRegex glob) = some ⟨true, .start :: (glob.map globItem ++ [.stop])⟩ := by
  have hitems := parseItems_globToRegex glob [.start]
  rw [← Regex.parseItems_start] at hitems
  exact congrArg (Option.map _) hitems

theorem matchHere_star {fold : Char → Char} {items : List Regex.Item} {first : Bool}
    {s : List Char} (hnl : '\n' ∉ s) :
    Regex.matchHere fold true (.many .any :: items) first s = true ↔
      ∃ u v, s = u ++ v ∧ Regex.matchHere fold true items (first && u.isEmpty) v = true := by
  rw [Regex.matchHere, Regex.star_eq_true]
  refine exists_congr fun u ↦ exists_congr fun v ↦ and_congr_right fun hs ↦ and_iff_right ?_
  intro x hx
  have hne : x ≠ '\n' := ne_of_mem_of_not_mem (hs ▸ List.mem_append_left v hx) hnl
  simpa [Regex.Atom.accepts] using hne

/-- **What a glob is compiled to** matches what the glob matches, where there is no line feed. -/
theorem matchHere_glob {fold : Char → Char} {glob s : List Char} {first : Bool} (hnl : '\n' ∉ s) :
    Regex.matchHere fold true (glob.map globItem ++ [.stop]) first s = true ↔
      GlobMatches fold glob s := by
  induction glob generalizing s first with
  | nil => simp [Regex.matchHere, GlobMatches]
  | cons c glob ih =>
    rw [List.map_cons, List.cons_append, globItem]
    split
    · next hstar =>
      subst hstar
      rw [matchHere_star hnl, GlobMatches]
      refine exists_congr fun u ↦ exists_congr fun v ↦ and_congr_right fun hs ↦ ih fun hmem ↦ ?_
      exact hnl (hs ▸ List.mem_append_right u hmem)
    · split
      · next hquest =>
        subst hquest
        rw [GlobMatches]
        cases s with
        | nil => simp [Regex.matchHere]
        | cons x s =>
          have hx : Regex.Atom.accepts fold true .any x = true := by
            simpa [Regex.Atom.accepts] using (List.ne_of_not_mem_cons hnl).symm
          rw [Regex.matchHere, hx, Bool.true_and, ih (List.not_mem_of_not_mem_cons hnl)]
          exact ⟨fun h ↦ ⟨x, s, rfl, h⟩, by rintro ⟨_, _, ⟨⟩, h⟩; exact h⟩
      · next hstar hquest =>
        rw [GlobMatches]
        cases s with
        | nil => simp [Regex.matchHere]
        | cons x s =>
          rw [Regex.matchHere, Bool.and_eq_true, ih (List.not_mem_of_not_mem_cons hnl)]
          simp [Regex.Atom.accepts]
        · exact hstar
        · exact hquest

theorem globMatches_plain {fold : Char → Char} {glob s : List Char} (hstar : '*' ∉ glob)
    (hquest : '?' ∉ glob) : GlobMatches fold glob s ↔ s.map fold = glob.map fold := by
  induction glob generalizing s with
  | nil => simp [GlobMatches]
  | cons c glob ih =>
    rw [GlobMatches]
    · simp only [ih (List.not_mem_of_not_mem_cons hstar) (List.not_mem_of_not_mem_cons hquest)]
      rw [List.map_cons, List.map_eq_cons_iff]
    · exact (List.ne_of_not_mem_cons hstar).symm
    · exact (List.ne_of_not_mem_cons hquest).symm

/-! ### Matchers -/

section Matchers

variable {c : Crates} {fold : Char → Char} {glob d r : List Char}

theorem parseExact_eq_ok (h : parseExact c glob = .ok (.exactDomain r)) :
    canonicalizeDomain c glob = .ok r := by
  rw [parseExact] at h
  split at h
  · cases h
  · split at h
    · cases h
    · cases hr : canonicalizeDomain c glob with
      | error e =>
        rw [hr] at h
        cases h
      | ok r' =>
        rw [hr] at h
        exact congrArg _ (Matcher.exactDomain.inj (Except.ok.inj h))

theorem map_fold_toAsciiLowercase (hcase : CasePublished c fold) (s : List Char) :
    (toAsciiLowercase s).map fold = s.map fold := by
  rw [toAsciiLowercase, List.map_map]
  refine List.map_congr_left fun x _ ↦ ?_
  show fold (if x.isUpper then x.toLower else x) = fold x
  split
  · exact hcase.fold_lower x
  · rfl

/-- A canonical form that differs from that of a rule in case only is the same. -/
theorem canonicalizeForMatch_of_fold (hcase : CasePublished c fold)
    (hr : c.domainToAscii r = .ok r) (hne : r ≠ [])
    (hfold : (canonicalizeForMatch c d).map fold = r.map fold) :
    canonicalizeForMatch c d = r := by
  rw [canonicalizeForMatch] at hfold ⊢
  split
  · next hnil =>
    rw [if_pos hnil] at hfold
    exact absurd (List.map_eq_nil_iff.1 hfold.symm) hne
  · next hsome =>
    rw [if_neg hsome] at hfold
    have hfallback (hlower : (toAsciiLowercase (trimDots d)).map fold = r.map fold) :
        c.domainToAscii (trimDots d) = .ok r := by
      rw [map_fold_toAsciiLowercase hcase] at hlower
      exact hcase.fold_eq _ _ hr hlower
    cases hascii : c.domainToAscii (trimDots d) with
    | error e =>
      rw [hascii] at hfold
      cases (hfallback hfold).symm.trans hascii
    | ok ascii =>
      rw [hascii] at hfold
      dsimp only at hfold ⊢
      split
      · next hempty =>
        rw [if_pos hempty] at hfold
        have hr' := Except.ok.inj ((hfallback hfold).symm.trans hascii)
        exact absurd (hr'.trans hempty) hne
      · next hfull =>
        rw [if_neg hfull] at hfold
        have hown := hcase.idempotent _ _ hascii
        exact Except.ok.inj (hown.symm.trans (hcase.fold_eq _ _ hr hfold))

/-- **A wildcard** matches a name if its glob matches the whole of the canonical form. Without a
star and a question mark it matches what the rule of that name does, if it is its own canonical form
but for case. -/
theorem wildcard_spec (hregex : RegexPublished c fold) (hcase : CasePublished c fold)
    {m : Matcher c} (hm : parseWildcard c glob = .ok m) {conn : ConnInfo}
    (hd : conn.domain = some d) (hnl : '\n' ∉ canonicalizeForMatch c d) :
    (m.matches conn = true ↔ GlobMatches fold glob (canonicalizeForMatch c d)) ∧
      ∀ r, '*' ∉ glob → '?' ∉ glob → parseExact c glob = .ok (.exactDomain r) →
        glob.map fold = r.map fold →
          m.matches conn = (Matcher.exactDomain (c := c) r).matches conn := by
  rw [parseWildcard] at hm
  split at hm
  · cases hm
  cases hre : c.newRegex (globToRegex glob) with
  | error e =>
    rw [hre] at hm
    cases hm
  | ok re =>
    rw [hre] at hm
    cases hm
    have hmatch : (Matcher.wildcardDomain (c := c) re).matches conn = true ↔
        GlobMatches fold glob (canonicalizeForMatch c d) := by
      rw [Matcher.matches, hd]
      dsimp only
      rw [hregex _ _ _ hre (parse_globToRegex glob), Regex.isMatch_start, matchHere_glob hnl]
    refine ⟨hmatch, fun r hstar hquest hexact hfold ↦ ?_⟩
    obtain ⟨-, hascii, hne⟩ := canonicalizeDomain_eq_ok (parseExact_eq_ok hexact)
    rw [Bool.eq_iff_iff, hmatch, globMatches_plain hstar hquest, hfold, Matcher.matches, hd]
    show _ ↔ (canonicalizeForMatch c d == r) = true
    rw [beq_iff_eq]
    constructor
    · exact canonicalizeForMatch_of_fold hcase (hcase.idempotent _ _ hascii) hne
    · exact congrArg (List.map fold)

end Matchers

/-- The crates, with one for patterns. -/
def patterns : Crates :=
  { names with
    Regex := Regex.Expr
    newRegex := fun pattern ↦ (Regex.parse pattern).elim (.error "unsupported") .ok
    isMatch := fun e s ↦ e.isMatch Char.toLower s }

theorem regexPublished_patterns : RegexPublished patterns Char.toLower := by
  intro pattern re e hre hparse s
  have hnew : (Regex.parse pattern).elim (.error "unsupported") .ok =
      (Except.ok re : Except String Regex.Expr) := hre
  rw [hparse] at hnew
  cases hnew
  rfl

theorem sampleIdna_eq_ok {s t : List Char} (h : sampleIdna s = .ok t) :
    t = s.flatMap sampleMap ∧ ∀ y ∈ t, y.toNat < 128 := by
  rw [sampleIdna] at h
  split at h
  · next hall =>
    cases h
    exact ⟨rfl, fun y hy ↦ by simpa using List.all_eq_true.1 hall y hy⟩
  · cases h

theorem sampleMap_of_lt {x : Char} (hlt : x.toLower.toNat < 128) : sampleMap x = [x.toLower] := by
  have hdots : x ∉ ['\u3002', '\uff0e', '\uff61'] := by
    intro hmem
    have hbig : ∀ z ∈ ['\u3002', '\uff0e', '\uff61'], 128 ≤ z.toLower.toNat :=
      Text.forall_of_all (by decide)
    exact absurd hlt (Nat.not_lt.2 (hbig x hmem))
  have hignored : x ≠ '\u00ad' := by
    rintro rfl
    exact absurd hlt (by decide)
  rw [sampleMap, if_neg hdots, if_neg hignored]

theorem casePublished_patterns : CasePublished patterns Char.toLower where
  idempotent := uts46_names.idempotent
  fold_lower := Text.toLower_toLower
  fold_eq s t hs hfold := by
    obtain ⟨hself, hsmall⟩ := sampleIdna_eq_ok hs
    have hlower : s.map Char.toLower = s := by
      refine (List.map_congr_left fun y hy ↦ ?_).trans (List.map_id s)
      rw [hself] at hy
      obtain ⟨x, -, hyx⟩ := List.mem_flatMap.1 hy
      exact toLower_of_mem_sampleMap hyx
    have hsame : t.map Char.toLower = s := hfold.trans hlower
    have hmapped : t.flatMap sampleMap = s := by
      rw [← hsame, List.map_eq_flatMap]
      refine List.flatMap_congr fun z hz ↦ sampleMap_of_lt (hsmall _ ?_)
      rw [← hsame]
      exact List.mem_map_of_mem hz
    show sampleIdna t = .ok s
    rw [sampleIdna, hmapped, if_pos (by simpa using hsmall)]

/-- A connection to `example.com`. -/
def toExample : ConnInfo := ⟨⟨IpAddr.ofOctets 203 0 113 7, 443⟩, some "Example.com.".toList, .tcp⟩

/-- What `parse_wildcard` makes of a glob. -/
def compiled (glob : List Char) : Matcher patterns :=
  .wildcardDomain (((Regex.parse (globToRegex glob)).getD ⟨false, []⟩ : Regex.Expr))

theorem wildcard_sample :
    parseWildcard patterns "ex?mple.*".toList = .ok (compiled "ex?mple.*".toList) ∧
      ((compiled "ex?mple.*".toList).matches toExample = true ↔
        GlobMatches Char.toLower "ex?mple.*".toList "example.com".toList) :=
  ⟨by rfl, (wildcard_spec regexPublished_patterns casePublished_patterns
    (by rfl : parseWildcard patterns "ex?mple.*".toList = .ok (compiled "ex?mple.*".toList))
    (rfl : toExample.domain = some "Example.com.".toList) (by decide)).1⟩

/-- **A glob is not made canonical**: with a dot behind it, a wildcard does not match what the rule
of the same name matches. And a star does not stand for a line feed. -/
theorem wildcard_with_dot :
    parseExact patterns "example.com.".toList = .ok (.exactDomain "example.com".toList) ∧
      (Matcher.exactDomain (c := patterns) "example.com".toList).matches toExample = true ∧
      parseWildcard patterns "example.com.".toList = .ok (compiled "example.com.".toList) ∧
      (compiled "example.com.".toList).matches toExample = false ∧
      parseWildcard patterns "*".toList = .ok (compiled "*".toList) ∧
      GlobMatches Char.toLower "*".toList (canonicalizeForMatch patterns "a\nb".toList) ∧
      (compiled "*".toList).matches { toExample with domain := some "a\nb".toList } = false :=
  ⟨by rfl, by decide, by rfl, by decide, by rfl, ⟨_, [], (List.append_nil _).symm, rfl⟩, by decide⟩

end Hole.Filter
