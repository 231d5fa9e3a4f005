import Hole.Plugin.EchDoh

/-!
# What ex-ray reads of the directives

`injectPluginDirectives` takes the operator's options apart, drops what it replaces and appends its
own. What ex-ray reads of the result is the segments that were kept, then `loglevel=debug`, then the
URL that Hole offers (`parse_inject`): the first value of every other option is the operator's, and
that of `ech-doh` is the operator's unless Hole's displaces it.
-/

namespace Hole.Plugin

open Text

/-! ### Keys and values -/

def OptionKey.all : List OptionKey :=
  [.mode, .mux, .tcpKeepalive, .tls, .host, .path, .cert, .certRaw, .key, .loglevel, .server,
    .localAddr, .localPort, .remoteAddr, .remotePort, .fastOpen, .androidVpn, .fwmark,
    .ech, .echDoh]

theorem OptionKey.find?_text (k : OptionKey) : all.find? (·.text = k.text) = some k := by
  cases k <;> decide

theorem OptionKey.text_injective : Function.Injective OptionKey.text := by
  intro k k' h
  have hk := k.find?_text
  rw [h, k'.find?_text] at hk
  exact (Option.some.inj hk).symm

/-- The values of a key, in order. -/
def valuesOf (segments : List OptionSegment) (key : List Char) : List (List Char) :=
  (segments.filter (·.key = key)).map OptionSegment.exrayValue

/-- What ex-ray reads of segments. -/
def readingOf (segments : List OptionSegment) : Reading :=
  segments.map fun segment ↦ (segment.key, segment.exrayValue)

section Values

variable {segments more : List OptionSegment} {k : OptionKey}

theorem args_readingOf : (readingOf segments).args = addsOf segments := by
  simp [readingOf, Reading.args, addsOf, Function.comp_def]

/-- ex-ray reads the value that Hole reads. -/
theorem get_readingOf : (readingOf segments).get k = flagValue segments k := by
  unfold Reading.get readingOf flagValue
  induction segments with
  | nil => rfl
  | cons s segments ih =>
    by_cases hkey : s.key = k.text
    · rw [List.map_cons, List.lookup_cons, hkey]
      simp [hkey, OptionSegment.exrayValue, exRayFlagValue]
    · have hne : (k.text == s.key) = false := by simpa using fun h ↦ hkey h.symm
      rw [List.map_cons, List.lookup_cons, hne, ih, List.find?_cons_of_neg (by simpa using hkey)]

theorem hasFlag_eq : hasFlag segments k = (flagValue segments k).isSome := by
  rw [hasFlag, flagValue, Option.isSome_map, Bool.eq_iff_iff, List.any_eq_true, List.find?_isSome]

theorem flagValue_cons {s : OptionSegment} :
    flagValue (s :: segments) k =
      if s.key = k.text then some (exRayFlagValue s) else flagValue segments k := by
  by_cases hkey : s.key = k.text
  · simp [flagValue, hkey]
  · simp [flagValue, hkey]

theorem flagValue_append :
    flagValue (segments ++ more) k = (flagValue segments k).or (flagValue more k) := by
  simp [flagValue, List.find?_append, Option.map_or]

/-- Dropping other keys does not change the value of a key. -/
theorem flagValue_filter {p : OptionSegment → Bool} (h : ∀ s, s.key = k.text → p s = true) :
    flagValue (segments.filter p) k = flagValue segments k := by
  unfold flagValue
  rw [List.find?_filter]
  congr 2
  funext s
  by_cases hkey : s.key = k.text
  · simp [hkey, h s hkey]
  · simp [hkey]

/-- Dropping a key leaves it without a value. -/
theorem flagValue_filter_none {p : OptionSegment → Bool} (h : ∀ s, s.key = k.text → p s = false) :
    flagValue (segments.filter p) k = none := by
  unfold flagValue
  rw [List.find?_filter]
  refine Option.map_eq_none_iff.2 (List.find?_eq_none.2 fun s _ ↦ ?_)
  by_cases hkey : s.key = k.text
  · simp [h s hkey]
  · simp [hkey]

end Values

/-! ### The directives are well formed -/

def logSegment : OptionSegment := ⟨"loglevel=debug".toList, "loglevel".toList, "debug".toList, true⟩

def echDohSegment (e : EchDoh) : OptionSegment := ⟨echDohDirective e, "ech-doh".toList, e.url, true⟩

theorem logSegment_key : logSegment.key = OptionKey.text .loglevel := rfl

theorem echDohSegment_key (e : EchDoh) : (echDohSegment e).key = OptionKey.text .echDoh := rfl

theorem logSegment_wellFormed : logSegment.WellFormed := by
  have hsplit : splitPluginOptions logSegment.raw = .ok [logSegment] := by decide +kernel
  exact (wellFormed_of_split hsplit).1 _ (List.mem_singleton_self _)

/-- No mark is in the URL of an address. -/
theorem plain_dohUrl (ip : IpAddr) : ∀ c ∈ dohUrlForIp ip, c ≠ '\\' ∧ c ≠ ';' := by
  have hdisplay (ip : IpAddr) : ∀ c ∈ ip.display.toList, c ≠ '\\' ∧ c ≠ ';' := by
    intro c hc
    constructor
    · rintro rfl
      exact IpAddr.not_mem_display (by decide) (by decide) (by decide) ip hc
    · rintro rfl
      exact IpAddr.not_mem_display (by decide) (by decide) (by decide) ip hc
  have hscheme : ∀ c ∈ "https://".toList, c ≠ '\\' ∧ c ≠ ';' := Text.forall_of_all (by decide)
  have hpath : ∀ c ∈ "/dns-query".toList, c ≠ '\\' ∧ c ≠ ';' := Text.forall_of_all (by decide)
  have hopen : ∀ c ∈ "https://[".toList, c ≠ '\\' ∧ c ≠ ';' := Text.forall_of_all (by decide)
  have hclose : ∀ c ∈ "]/dns-query".toList, c ≠ '\\' ∧ c ≠ ';' := Text.forall_of_all (by decide)
  cases ip with
  | v4 b =>
    exact List.forall_mem_append.2 ⟨List.forall_mem_append.2 ⟨hscheme, hdisplay _⟩, hpath⟩
  | v6 b =>
    exact List.forall_mem_append.2 ⟨List.forall_mem_append.2 ⟨hopen, hdisplay _⟩, hclose⟩

/-- A key and a value without marks are read as they are. -/
theorem wellFormed_of_plain {key value : List Char} (hne : key ≠ [])
    (hkey : ∀ c ∈ key, c ≠ '\\' ∧ charMarks.endsKey c = false)
    (hvalue : ∀ c ∈ value, c ≠ '\\' ∧ c ≠ ';') :
    OptionSegment.WellFormed ⟨key ++ '=' :: value, key, value, true⟩ := by
  refine ⟨⟨key, some value⟩, ⟨hne, whole_of_plain hkey, fun v hv ↦ ?_⟩, ?_⟩
  · cases hv
    exact whole_of_plain fun c hc ↦ ⟨(hvalue c hc).1, decide_eq_false (hvalue c hc).2⟩
  · have hname : unescape '\\' key = some key := unescape_of_plain fun c hc ↦ (hkey c hc).1
    have hread : unescape '\\' value = some value := unescape_of_plain fun c hc ↦ (hvalue c hc).1
    rw [segmentOf, Option.bind_some, hname, hread]
    rfl

theorem echDohSegment_wellFormed (e : EchDoh) : (echDohSegment e).WellFormed := by
  have hurl : ∀ c ∈ e.url, c ≠ '\\' ∧ c ≠ ';' := by
    rw [e.url_eq]
    exact plain_dohUrl e.resolver
  have hkey : ∀ c ∈ "ech-doh".toList, c ≠ '\\' ∧ charMarks.endsKey c = false :=
    Text.forall_of_all (by decide)
  have hne : "ech-doh".toList ≠ [] := by decide
  have htext : "ech-doh=".toList = "ech-doh".toList ++ ['='] := by decide
  have hraw : echDohDirective e = "ech-doh".toList ++ '=' :: e.url :=
    (congrArg (· ++ e.url) htext).trans (List.append_assoc _ _ _)
  rw [echDohSegment, hraw]
  exact wellFormed_of_plain hne hkey hurl

/-! ### What is read -/

section Inject

variable (hostStr : List Char → Option (List Char))

/-- The segments of what is injected. -/
def injected (segments : List OptionSegment) (echDoh : Option EchDoh) : List OptionSegment :=
  let owned := ownedKeys (echDohDisplaces hostStr segments echDoh)
  (segments.filter fun s ↦ s.key ∉ owned.map OptionKey.text) ++ logSegment ::
    (echDoh.map echDohSegment).toList

variable {hostStr} {pluginName : String} {opts : Option (List Char)} {echDoh : Option EchDoh}
  {segments : List OptionSegment}

theorem classifyEchDoh_snd :
    (classifyEchDoh hostStr segments echDoh).2 = echDohDisplaces hostStr segments echDoh := by
  unfold classifyEchDoh
  dsimp only
  split
  · rfl
  · split
    · rfl
    · split <;> rfl

/-- **What is injected is read as the segments that were kept, and Hole's.** -/
theorem inject_eq (hname : takesEchDirectives pluginName = true)
    (hsplit : splitPluginOptions (opts.getD []) = .ok segments) :
    ∃ out, injectPluginDirectives hostStr pluginName opts echDoh = .ok (some out) ∧
      splitPluginOptions out = .ok (injected hostStr segments echDoh) := by
  refine ⟨joinPluginOptions ((injected hostStr segments echDoh).map (·.raw)), ?_, ?_⟩
  · have hraw : (injected hostStr segments echDoh).map (·.raw) = (segments.filter fun s ↦
          s.key ∉ (ownedKeys (echDohDisplaces hostStr segments echDoh)).map OptionKey.text).map
          (·.raw) ++ ["loglevel=debug".toList] ++ (echDoh.map echDohDirective).toList := by
      rw [injected, List.map_append, List.append_assoc]
      cases echDoh <;> rfl
    unfold injectPluginDirectives
    rw [hraw, hname, hsplit, Bool.not_true, if_neg Bool.false_ne_true, ok_bind, classifyEchDoh_snd]
  · refine split_join fun segment hsegment ↦ ?_
    obtain hkept | hown := List.mem_append.1 hsegment
    · exact (wellFormed_of_split hsplit).1 segment (List.mem_of_mem_filter hkept)
    · obtain rfl | hdoh := List.mem_cons.1 hown
      · exact logSegment_wellFormed
      · obtain ⟨e, -, rfl⟩ := Option.map_eq_some_iff.1 (Option.mem_toList.1 hdoh)
        exact echDohSegment_wellFormed e

/-- The keys of Hole's own segments. -/
theorem flagValue_directives {k : OptionKey} (echDoh : Option EchDoh) :
    flagValue (logSegment :: (echDoh.map echDohSegment).toList) k =
      if k = .loglevel then some "debug".toList
      else if k = .echDoh then echDoh.map (·.url) else none := by
  rw [flagValue_cons, logSegment_key]
  by_cases hk : k = .loglevel
  · rw [if_pos (congrArg _ hk.symm), if_pos hk]
    rfl
  · rw [if_neg fun h ↦ hk (OptionKey.text_injective h).symm, if_neg hk]
    cases echDoh with
    | none => simp [flagValue]
    | some e =>
      rw [Option.map_some, Option.toList_some, flagValue_cons, echDohSegment_key]
      by_cases hk' : k = .echDoh
      · rw [if_pos (congrArg _ hk'.symm), if_pos hk']
        rfl
      · rw [if_neg fun h ↦ hk' (OptionKey.text_injective h).symm, if_neg hk']
        rfl

theorem mem_ownedKeys {k : OptionKey} {displaces : Bool} :
    k ∈ ownedKeys displaces ↔ k = .loglevel ∨ displaces = true ∧ k = .echDoh := by
  cases displaces <;> simp [ownedKeys]

/-- The segments that are kept are those of the other keys. -/
theorem flagValue_kept {k : OptionKey} {displaces : Bool} :
    flagValue (segments.filter fun s ↦ s.key ∉ (ownedKeys displaces).map OptionKey.text) k =
      if k ∈ ownedKeys displaces then none else flagValue segments k := by
  split
  · rename_i hk
    refine flagValue_filter_none fun s hs ↦ decide_eq_false (not_not_intro ?_)
    exact hs ▸ List.mem_map_of_mem hk
  · rename_i hk
    refine flagValue_filter fun s hs ↦ decide_eq_true fun hmem ↦ hk ?_
    obtain ⟨k', hk', htext⟩ := List.mem_map.1 hmem
    exact OptionKey.text_injective (htext.trans hs) ▸ hk'

/-- **The first value of every option that Hole does not set is the operator's.** -/
theorem flagValue_injected {k : OptionKey} (hlog : k ≠ .loglevel) (hdoh : k ≠ .echDoh) :
    flagValue (injected hostStr segments echDoh) k = flagValue segments k := by
  have hk : k ∉ ownedKeys (echDohDisplaces hostStr segments echDoh) := by
    rw [mem_ownedKeys]
    exact fun h ↦ h.elim hlog fun h ↦ hdoh h.2
  rw [injected, flagValue_append, flagValue_kept, if_neg hk, flagValue_directives, if_neg hlog,
    if_neg hdoh, Option.or_none]

theorem flagValue_injected_loglevel :
    flagValue (injected hostStr segments echDoh) .loglevel = some "debug".toList := by
  rw [injected, flagValue_append, flagValue_kept, if_pos (mem_ownedKeys.2 (.inl rfl)),
    flagValue_directives, if_pos rfl, Option.none_or]

/-- **The `ech-doh` that is read is the operator's, unless Hole's displaces it.** -/
theorem flagValue_injected_echDoh :
    flagValue (injected hostStr segments echDoh) .echDoh =
      if echDohDisplaces hostStr segments echDoh then echDoh.map (·.url)
      else (flagValue segments .echDoh).or (echDoh.map (·.url)) := by
  have hne : OptionKey.echDoh ≠ .loglevel := by decide
  rw [injected, flagValue_append, flagValue_kept, flagValue_directives, if_neg hne, if_pos rfl]
  cases echDohDisplaces hostStr segments echDoh with
  | true => rw [if_pos (mem_ownedKeys.2 (.inr ⟨rfl, rfl⟩)), Option.none_or, if_pos rfl]
  | false =>
    have hnot : OptionKey.echDoh ∉ ownedKeys false := by decide
    rw [if_neg hnot, if_neg Bool.false_ne_true]

/-- Every key that Hole does not set keeps its values. -/
theorem valuesOf_injected {key : List Char} (hlog : key ≠ OptionKey.text .loglevel)
    (hdoh : key ≠ OptionKey.text .echDoh) :
    valuesOf (injected hostStr segments echDoh) key = valuesOf segments key := by
  have hkept : ∀ s ∈ segments, (decide (s.key = key) &&
      decide (s.key ∉ (ownedKeys (echDohDisplaces hostStr segments echDoh)).map OptionKey.text)) =
      decide (s.key = key) := by
    intro s _
    by_cases hs : s.key = key
    · have hnot : s.key ∉
          (ownedKeys (echDohDisplaces hostStr segments echDoh)).map OptionKey.text := by
        intro hmem
        obtain ⟨k, hk, htext⟩ := List.mem_map.1 hmem
        obtain rfl | ⟨-, rfl⟩ := mem_ownedKeys.1 hk
        · exact hlog (hs.symm.trans htext.symm)
        · exact hdoh (hs.symm.trans htext.symm)
      rw [decide_eq_true hnot, Bool.and_true]
    · rw [decide_eq_false hs, Bool.false_and]
  have hown : (logSegment :: (echDoh.map echDohSegment).toList).filter (·.key = key) = [] := by
    rw [List.filter_eq_nil_iff]
    intro s hs
    obtain rfl | hs := List.mem_cons.1 hs
    · rw [logSegment_key]
      simpa using hlog.symm
    · obtain ⟨e, -, rfl⟩ := Option.map_eq_some_iff.1 (Option.mem_toList.1 hs)
      rw [echDohSegment_key]
      simpa using hdoh.symm
  rw [valuesOf, injected, List.filter_append, hown, List.append_nil, List.filter_filter,
    List.filter_congr hkept]
  rfl

end Inject

end Hole.Plugin
