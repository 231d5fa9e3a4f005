import Hole.Plugin.Wiring

/-!
# The permit and the plugin

The cover of a start permits one resolver, on the strength of `effectiveEchDoh`; the plugin is
started with what `injectPluginDirectives` makes of the same options. Here the two are laid against
each other: whose `ech-doh` is permitted is whose ex-ray reads, and where none is permitted ex-ray
asks nobody (`permit_agrees`).

ex-ray may still refuse to start where one is permitted, for a reason that Hole does not look at
(`Unpredicted`). It takes the server name from `remoteAddr` where the host is the bare
`experiment:8357`, and reads that name twice; `SettledName` says that the second reading changes
nothing.
-/

namespace Hole.Plugin

open Text

/-! ### The name that is asked for -/

section Name

variable {s : List Char}

theorem parseAddress_eq : parseAddress s =
    match IpAddr.fromStr (v2rayCoreNormalize s) with
    | some ip => .ip ip.toCanonical
    | none => .domain (v2rayCoreNormalize s) := rfl

/-- A name is asked for exactly if Hole takes it for a domain. -/
theorem echCacheDomain_ne_nil : echCacheDomain s ≠ [] ↔ v2rayCoreParsesAsADomain s = true := by
  rw [echCacheDomain, parseAddress_eq, v2rayCoreParsesAsADomain]
  cases IpAddr.fromStr (v2rayCoreNormalize s) with
  | some ip => simp
  | none => simp

theorem echCacheDomain_display (ip : IpAddr) : echCacheDomain ip.display.toList = [] := by
  rw [echCacheDomain, parseAddress_display]

theorem echCacheDomain_nil : echCacheDomain [] = [] := by decide

end Name

section Permit

variable {hostStr : List Char → Option (List Char)} {segments : List OptionSegment}
  {echDoh : Option EchDoh} {loc remote : SocketAddr} {env : ChainEnv} {out : List Char}
  {certs : Flags → Bool} {config : Config}

/-- Where the host gives no name, that of `remoteAddr` is still one when it is read again. -/
def SettledName (segments : List OptionSegment) : Prop :=
  stripPrefix exp8357 ((flagValue segments .host).getD "cloudfront.com".toList) ≠ [] ∨
    v2rayCoreParsesAsADomain (v2rayCoreNormalize ((flagValue segments .remoteAddr).getD [])) = true

/-- What an instance needs to ask for the ECH configuration. -/
theorem fetches_eq_some {f : Flags} (hbuilt : BuiltFrom f config) {v : List Char} :
    config.fetches = some v ↔ f.tlsOn = true ∧ f.echMode ≠ "never".toList ∧ f.echDoh = v ∧ v ≠ [] ∧
        echCacheDomain (config.serverName ⟨f.host, [], false⟩) ≠ [] := by
  rw [Config.fetches, hbuilt.tls, Flags.tlsConfig]
  cases f.tlsOn with
  | false => simp
  | true =>
    rw [if_pos rfl]
    have hname (doh : List Char) (require : Bool) :
        config.serverName ⟨f.host, doh, require⟩ = config.serverName ⟨f.host, [], false⟩ := rfl
    dsimp only
    rw [hname]
    by_cases hnever : f.echMode = "never".toList
    · rw [if_pos hnever]
      simp [hnever]
    · rw [if_neg hnever]
      constructor
      · intro h
        split at h
        · cases h
        · rename_i hnot
          cases h
          rw [Bool.or_eq_true, decide_eq_true_eq, decide_eq_true_eq, not_or] at hnot
          exact ⟨rfl, hnever, rfl, hnot.1, hnot.2⟩
      · rintro ⟨-, -, rfl, hne, hdomain⟩
        rw [if_neg]
        rw [Bool.or_eq_true, decide_eq_true_eq, decide_eq_true_eq, not_or]
        exact ⟨hne, hdomain⟩

/-- The name that an instance arrives at is the one Hole expects, or it is read again. -/
theorem domain_of_expected (hbuilt : BuiltFrom (flagsByExRay hostStr env segments echDoh) config)
    (hout : splitPluginOptions out = .ok (injected hostStr segments echDoh))
    (henv : sip003Env (some out) loc remote = .ok env) (hsettled : SettledName segments)
    (hexpected : v2rayCoreParsesAsADomain (expectedSni segments) = true) :
    echCacheDomain (config.serverName ⟨(flagsByExRay hostStr env segments echDoh).host, [],
      false⟩) ≠ [] := by
  obtain ⟨hlocalAddr, -, hremoteAddr, -⟩ := flags_ends hout henv
  unfold Config.serverName
  unfold expectedSni at hexpected
  unfold SettledName at hsettled
  dsimp only at hexpected ⊢
  rw [flags_host, hbuilt.server, flags_server]
  generalize stripPrefix exp8357 ((flagValue segments .host).getD "cloudfront.com".toList) = name
    at hexpected hsettled ⊢
  by_cases hname : name = []
  · rw [if_pos hname] at hexpected
    have hdomain := hsettled.resolve_left (not_not_intro hname)
    have hvalue : IpAddr.fromStr (v2rayCoreNormalize ((flagValue segments .remoteAddr).getD [])) =
        none := by
      rw [v2rayCoreParsesAsADomain, Bool.and_eq_true, Option.isNone_iff_eq_none] at hexpected
      exact hexpected.2
    obtain ⟨v, hv⟩ : ∃ v, flagValue segments .remoteAddr = some v := by
      cases hremote : flagValue segments .remoteAddr with
      | some v => exact ⟨v, rfl⟩
      | none =>
        rw [hremote] at hexpected
        exact absurd hexpected (by decide)
    rw [hv, Option.getD_some] at hvalue hdomain
    cases hserver : hasFlag segments .server with
    | true =>
      -- a server listens on that address, so it is none that is a domain
      have hlisten := hbuilt.listen
      rw [hlocalAddr, endText, hserver, optionFor, if_pos rfl, hv, Option.getD_some,
        canonicalLocalAddr, parseAddress_eq, hvalue] at hlisten
      split at hlisten
      · cases hlisten
      · cases hlisten
    | false =>
      have hremote := hbuilt.remote
      rw [hremoteAddr, endText, hserver, optionFor, if_neg Bool.false_ne_true, hv, Option.getD_some,
        parseAddress_eq, hvalue] at hremote
      rw [hname, hremote]
      exact echCacheDomain_ne_nil.2 hdomain
  · rw [if_neg hname] at hexpected
    rw [if_pos (by simp [hname])]
    exact echCacheDomain_ne_nil.2 hexpected

/-- Where an instance asks for a name, Hole expects one. -/
theorem expected_of_domain (hbuilt : BuiltFrom (flagsByExRay hostStr env segments echDoh) config)
    (hout : splitPluginOptions out = .ok (injected hostStr segments echDoh))
    (henv : sip003Env (some out) loc remote = .ok env)
    (hdomain : echCacheDomain (config.serverName
      ⟨(flagsByExRay hostStr env segments echDoh).host, [], false⟩) ≠ []) :
    v2rayCoreParsesAsADomain (expectedSni segments) = true := by
  obtain ⟨-, -, hremoteAddr, -⟩ := flags_ends hout henv
  unfold Config.serverName at hdomain
  unfold expectedSni
  dsimp only at hdomain ⊢
  rw [flags_host, hbuilt.server, flags_server] at hdomain
  generalize stripPrefix exp8357 ((flagValue segments .host).getD "cloudfront.com".toList) = name
    at hdomain ⊢
  by_cases hname : name = []
  · rw [if_pos hname]
    cases hserver : hasFlag segments .server with
    | true =>
      rw [hserver, hname] at hdomain
      exact absurd echCacheDomain_nil hdomain
    | false =>
      have hremote := hbuilt.remote
      rw [hremoteAddr, endText, hserver, optionFor, if_neg Bool.false_ne_true] at hremote
      rw [hserver, hname] at hdomain
      cases hv : flagValue segments .remoteAddr with
      | none =>
        rw [hv, Option.getD_none, parseAddress_display] at hremote
        rw [hremote] at hdomain
        exact absurd (echCacheDomain_display _) hdomain
      | some v =>
        rw [hv, Option.getD_some, parseAddress_eq] at hremote
        rw [Option.getD_some, v2rayCoreParsesAsADomain]
        cases hip : IpAddr.fromStr (v2rayCoreNormalize v) with
        | some ip =>
          rw [hip] at hremote
          rw [hremote] at hdomain
          exact absurd (echCacheDomain_display _) hdomain
        | none =>
          rw [hip] at hremote
          rw [hremote] at hdomain
          by_cases hnil : v2rayCoreNormalize v = []
          · rw [hnil] at hdomain
            exact absurd echCacheDomain_nil hdomain
          · simp [hnil]
  · rw [if_neg hname]
    rw [if_pos (by simp [hname])] at hdomain
    exact echCacheDomain_ne_nil.1 hdomain

/-! ### Whose `ech-doh` is used -/

/-- ex-ray starts, and asks a resolver for the ECH configuration. -/
def Attempts (certs : Flags → Bool) (env : ChainEnv) (out resolver : List Char) : Prop :=
  ∃ config, exRay certs env out = .ok config ∧ config.fetches = some resolver

/-- The values of a key in a reading, in order. -/
def Reading.values (reading : Reading) (key : List Char) : List (List Char) :=
  (reading.filter (·.1 = key)).map (·.2)

theorem values_readingOf (segments : List OptionSegment) (key : List Char) :
    (readingOf segments).values key = valuesOf segments key := by
  simp [Reading.values, readingOf, valuesOf, List.filter_map, Function.comp_def]

/-- The addresses of a chain are ones that ex-ray accepts, if they are addresses at all. -/
theorem valid_sip003Env (hout : splitPluginOptions out = .ok (injected hostStr segments echDoh))
    (henv : sip003Env (some out) loc remote = .ok env) (hloc : loc.port ≠ 0)
    (hremote : remote.port ≠ 0) (hip : remote.ip.toCanonical.isUnspecified = false) :
    env.Valid (hasFlag segments .server) := by
  have hport {port : BitVec 16} (h : port ≠ 0) :
      (validPort (SocketAddr.portText port)).any (· ≠ 0) = true := by
    have hne : port.toNat ≠ 0 := fun hzero ↦ h (BitVec.eq_of_toNat_eq (by simpa using hzero))
    rw [validPort_portText]
    simpa using hne
  have hdial : (checkRemoteAddr remote.ip.display.toList).isOk = true := by
    rw [checkRemoteAddr, parseAddress_display]
    dsimp only
    rw [if_neg (by simp [hip])]
    rfl
  have hlisten : (canonicalLocalAddr loc.ip.display.toList).isSome = true := by
    rw [canonicalLocalAddr_display]
    rfl
  obtain rfl := sip003Env_eq hout henv
  cases hasFlag segments .server with
  | true => exact ⟨hlisten, hdial, hport hremote, hport hloc⟩
  | false => exact ⟨hlisten, hdial, hport hloc, hport hremote⟩

theorem reachable_iff : echFetchIsReachable hostStr segments echDoh = true ↔
    exRayFatalConfigError hostStr segments echDoh = none ∧
      flagValue segments .ech ≠ some "never".toList ∧ tlsIsEnabled segments = true ∧
      v2rayCoreParsesAsADomain (expectedSni segments) = true := by
  unfold echFetchIsReachable
  cases exRayFatalConfigError hostStr segments echDoh with
  | some k => simp
  | none =>
    rw [if_neg (by simp)]
    by_cases hnever : flagValue segments .ech = some "never".toList
    · rw [if_pos hnever]
      constructor
      · intro h
        cases h
      · intro h
        exact absurd hnever h.2.1
    · rw [if_neg hnever, Bool.and_eq_true]
      exact ⟨fun h ↦ ⟨rfl, hnever, h⟩, fun h ↦ h.2.2⟩

/-- What is permitted, and what ex-ray reads. -/
theorem classify_cases :
    match (classifyEchDoh hostStr segments echDoh).1 with
    | .holes => echFetchIsReachable hostStr segments echDoh = true ∧ ∃ e, echDoh = some e ∧
        ((flagValue segments .echDoh).isNone || echDohDisplaces hostStr segments echDoh) = true
    | .operators v => echFetchIsReachable hostStr segments echDoh = true ∧ v ≠ [] ∧
        flagValue segments .echDoh = some v ∧ echDohDisplaces hostStr segments echDoh = false
    | .none => echFetchIsReachable hostStr segments echDoh = false ∨
        resolvedEchDohIsEmpty hostStr segments echDoh = true := by
  unfold classifyEchDoh resolvedEchDohIsEmpty
  cases hreach : echFetchIsReachable hostStr segments echDoh with
  | false => exact .inl rfl
  | true =>
    rw [Bool.not_true, if_neg Bool.false_ne_true]
    cases hholes : echDoh.isSome &&
        ((flagValue segments .echDoh).isNone || echDohDisplaces hostStr segments echDoh) with
    | true =>
      obtain ⟨hsome, hwins⟩ := Bool.and_eq_true_iff.1 hholes
      obtain ⟨e, rfl⟩ := Option.isSome_iff_exists.1 hsome
      exact ⟨rfl, e, rfl, hwins⟩
    | false =>
      rw [if_neg Bool.false_ne_true, if_neg Bool.false_ne_true]
      cases hvalue : flagValue segments .echDoh with
      | none => exact .inr rfl
      | some v =>
        by_cases hnil : v = []
        · subst hnil
          exact .inr rfl
        · have hfilter : (some v).filter (fun v ↦ decide (v ≠ [])) = some v := by simp [hnil]
          rw [hfilter]
          refine ⟨rfl, hnil, rfl, ?_⟩
          -- without an offer nothing is displaced
          cases echDoh with
          | none => rfl
          | some e =>
            rw [hvalue] at hholes
            simpa using hholes

/-- ex-ray starts where Hole takes a fetch to be reachable, or refuses what Hole does not look
at. -/
theorem starts_of_reachable (certs : Flags → Bool)
    (hout : splitPluginOptions out = .ok (injected hostStr segments echDoh))
    (hvalid : env.Valid (hasFlag segments .server))
    (hreach : echFetchIsReachable hostStr segments echDoh = true) :
    (∃ config, exRay certs env out = .ok config ∧
      BuiltFrom (flagsByExRay hostStr env segments echDoh) config) ∨
    ∃ r, exRay certs env out = .error r ∧ Unpredicted hostStr segments echDoh r := by
  have hchecks : Checks (exRay certs env out) _ _ := checks_exRay certs hout
  have hagrees := @agrees_verdict hostStr _ _ echDoh certs hvalid
  rw [(reachable_iff.1 hreach).1] at hagrees
  cases hverdict : (refusedParse (readByExRay hostStr env segments echDoh)).or
      (refusedFlags certs (flagsByExRay hostStr env segments echDoh)) with
  | none =>
    rw [hverdict] at hchecks
    exact .inl hchecks
  | some r =>
    rw [hverdict] at hagrees hchecks
    refine .inr ⟨r, hchecks, hagrees.resolve_right ?_⟩
    rintro ⟨k, k', hsome, -⟩
    cases hsome

/-- An instance asks for the configuration exactly where Hole takes that to be reachable. -/
theorem fetches_of_reachable (hout : splitPluginOptions out = .ok
    (injected hostStr segments echDoh))
    (henv : sip003Env (some out) loc remote = .ok env)
    (hbuilt : BuiltFrom (flagsByExRay hostStr env segments echDoh) config)
    (hreach : echFetchIsReachable hostStr segments echDoh = true)
    (hsettled : SettledName segments)
    (hempty : (flagsByExRay hostStr env segments echDoh).echDoh ≠ []) :
    config.fetches = some (flagsByExRay hostStr env segments echDoh).echDoh := by
  have hne : "auto".toList ≠ "never".toList := by decide
  obtain ⟨-, hnever, htls, hexpected⟩ := reachable_iff.1 hreach
  refine (fetches_eq_some hbuilt).2 ⟨?_, ?_, rfl, hempty, ?_⟩
  · rw [flags_tlsOn]
    exact htls
  · rw [flags_echMode]
    exact fun h ↦ hnever ((getD_eq_iff hne).1 h)
  · exact domain_of_expected hbuilt hout henv hsettled hexpected

theorem reachable_of_fetches (hout : splitPluginOptions out = .ok
    (injected hostStr segments echDoh))
    (henv : sip003Env (some out) loc remote = .ok env)
    (hvalid : env.Valid (hasFlag segments .server)) (hrun : exRay certs env out = .ok config)
    {v : List Char} (hfetch : config.fetches = some v) :
    echFetchIsReachable hostStr segments echDoh = true ∧
      resolvedEchDohIsEmpty hostStr segments echDoh = false := by
  have hne : "auto".toList ≠ "never".toList := by decide
  have hchecks : Checks (exRay certs env out) _ _ := checks_exRay certs hout
  obtain ⟨hverdict, hbuilt⟩ := hchecks.of_ok hrun
  have hagrees := @agrees_verdict hostStr _ _ echDoh certs hvalid
  rw [hverdict] at hagrees
  obtain ⟨htls, hnever, hdoh, hempty, hdomain⟩ := (fetches_eq_some hbuilt).1 hfetch
  rw [flags_tlsOn] at htls
  rw [flags_echMode] at hnever
  refine ⟨reachable_iff.2 ⟨hagrees, fun h ↦ hnever ((getD_eq_iff hne).2 h), htls,
    expected_of_domain hbuilt hout henv hdomain⟩, ?_⟩
  rw [← @flags_echDoh_eq_nil _ env, hdoh]
  exact decide_eq_false hempty

/-- Whose `ech-doh` is permitted is whose ex-ray reads and asks. -/
theorem permit_cases (hout : splitPluginOptions out = .ok (injected hostStr segments echDoh))
    (henv : sip003Env (some out) loc remote = .ok env)
    (hvalid : env.Valid (hasFlag segments .server)) :
    match (classifyEchDoh hostStr segments echDoh).1 with
    | .holes => ∃ e, echDoh = some e ∧
        (readingOf (injected hostStr segments echDoh)).get .echDoh = some e.url ∧
        (SettledName segments →
          Attempts certs env out e.url ∨ exRay certs env out = .error .certificate)
    | .operators v => (readingOf (injected hostStr segments echDoh)).get .echDoh = some v ∧
        (SettledName segments → Attempts certs env out v ∨
          ∃ r, exRay certs env out = .error r ∧ Unpredicted hostStr segments echDoh r)
    | .none => ¬∃ v, Attempts certs env out v := by
  have hread : (readingOf (injected hostStr segments echDoh)).get .echDoh = _ :=
    get_readingOf.trans flagValue_injected_echDoh
  have hflag : (flagsByExRay hostStr env segments echDoh).echDoh =
      ((readingOf (injected hostStr segments echDoh)).get .echDoh).getD [] := by
    rw [hread, flags_echDoh]
  have hcases := @classify_cases hostStr segments echDoh
  cases hclass : (classifyEchDoh hostStr segments echDoh).1 with
  | holes =>
    rw [hclass] at hcases
    obtain ⟨hreach, e, rfl, hwins⟩ := hcases
    have hurl : (readingOf (injected hostStr segments (some e))).get .echDoh = some e.url := by
      rw [hread]
      cases hdisplaces : echDohDisplaces hostStr segments (some e) with
      | true => rfl
      | false =>
        rw [hdisplaces, Bool.or_false, Option.isNone_iff_eq_none] at hwins
        rw [hwins]
        rfl
    refine ⟨e, rfl, hurl, fun hsettled ↦ ?_⟩
    rw [hurl, Option.getD_some] at hflag
    obtain ⟨config, hrun, hbuilt⟩ | ⟨r, hrun, hunpredicted⟩ :=
      starts_of_reachable certs hout hvalid hreach
    · refine .inl ⟨config, hrun, ?_⟩
      rw [fetches_of_reachable hout henv hbuilt hreach hsettled (hflag ▸ e.url_ne_nil), hflag]
    · obtain rfl | ⟨-, v, hvalue, hdisplaces, -⟩ := hunpredicted
      · exact .inr hrun
      · rw [hvalue, hdisplaces] at hwins
        cases hwins
  | operators v =>
    rw [hclass] at hcases
    obtain ⟨hreach, hnil, hvalue, hdisplaces⟩ := hcases
    rw [hdisplaces, if_neg Bool.false_ne_true, hvalue, Option.some_or] at hread
    refine ⟨hread, fun hsettled ↦ ?_⟩
    rw [hread, Option.getD_some] at hflag
    obtain ⟨config, hrun, hbuilt⟩ | hrefused := starts_of_reachable certs hout hvalid hreach
    · refine .inl ⟨config, hrun, ?_⟩
      rw [fetches_of_reachable hout henv hbuilt hreach hsettled (hflag ▸ hnil), hflag]
    · exact .inr hrefused
  | none =>
    rw [hclass] at hcases
    rintro ⟨v, config, hrun, hfetch⟩
    obtain ⟨hreach, hempty⟩ := reachable_of_fetches hout henv hvalid hrun hfetch
    obtain hnot | hnot := hcases
    · rw [hreach] at hnot
      cases hnot
    · rw [hempty] at hnot
      cases hnot

/-- **The permit and the plugin agree.** What is injected is read with the operator's values and
Hole's own; the resolver that is permitted is the one ex-ray reads, and asks unless it refuses what
Hole does not look at; where none is permitted, it asks nobody. -/
theorem permit_agrees {pluginName : String} {opts : Option (List Char)} (certs : Flags → Bool)
    (hname : takesEchDirectives pluginName = true) (hloc : loc.port ≠ 0) (hremote : remote.port ≠ 0)
    (hip : remote.ip.toCanonical.isUnspecified = false) :
    match injectPluginDirectives hostStr pluginName opts echDoh with
    | .error _ => effectiveEchDoh hostStr pluginName opts echDoh = .none
    | .ok injection => ∃ (out : List Char) (segments : List OptionSegment) (reading : Reading)
        (env : ChainEnv), injection = some out ∧
        splitPluginOptions (opts.getD []) = .ok segments ∧
        parsePluginOptions (utf8 (opts.getD [])) = .ok (readingOf segments).args ∧
        parsePluginOptions (utf8 out) = .ok reading.args ∧
        (∀ k, k ≠ OptionKey.text .loglevel → k ≠ OptionKey.text .echDoh →
          reading.values k = (readingOf segments).values k) ∧
        reading.get .loglevel = some "debug".toList ∧
        sip003Env (some out) loc remote = .ok env ∧
        match effectiveEchDoh hostStr pluginName opts echDoh with
        | .holes => ∃ e, echDoh = some e ∧ reading.get .echDoh = some e.url ∧
            (SettledName segments →
              Attempts certs env out e.url ∨ exRay certs env out = .error .certificate)
        | .operators v => reading.get .echDoh = some v ∧
            (SettledName segments → Attempts certs env out v ∨
              ∃ r, exRay certs env out = .error r ∧ Unpredicted hostStr segments echDoh r)
        | .none => ¬∃ v, Attempts certs env out v := by
  cases hsplit : splitPluginOptions (opts.getD []) with
  | error e =>
    have heffective : effectiveEchDoh hostStr pluginName opts echDoh = .none := by
      rw [effectiveEchDoh, hname, hsplit]
      rfl
    have hinject : injectPluginDirectives hostStr pluginName opts echDoh = .error e := by
      unfold injectPluginDirectives
      rw [hname, hsplit]
      rfl
    rw [hinject]
    exact heffective
  | ok segments =>
    have heffective : effectiveEchDoh hostStr pluginName opts echDoh =
        (classifyEchDoh hostStr segments echDoh).1 := by
      rw [effectiveEchDoh, hname, hsplit]
      rfl
    obtain ⟨out, hinject, hout⟩ := @inject_eq hostStr _ _ echDoh _ hname hsplit
    rw [hinject, heffective]
    obtain ⟨env, henv⟩ := sip003Env_ok loc remote hout
    have hvalid := valid_sip003Env hout henv hloc hremote hip
    have hparse {s : List Char} {segments : List OptionSegment}
        (h : splitPluginOptions s = .ok segments) :
        parsePluginOptions (utf8 s) = .ok (readingOf segments).args := by
      have hargs := parsePluginOptions_utf8 s
      rw [h, toOption_ok, Option.map_some, toOption_eq_some] at hargs
      rw [hargs, args_readingOf]
    refine ⟨out, segments, readingOf (injected hostStr segments echDoh), env, rfl, rfl,
      hparse hsplit, hparse hout, fun k hlog hdoh ↦ ?_, ?_, henv, ?_⟩
    · rw [values_readingOf, values_readingOf, valuesOf_injected hlog hdoh]
    · rw [get_readingOf, flagValue_injected_loglevel]
    · exact permit_cases hout henv hvalid

end Permit

/-- An operator's resolver that is named by its address. -/
theorem permit_agrees_operators : effectiveEchDoh (fun _ ↦ none) "ex-ray"
        (some "tls;host=example.com;ech-doh=https://1.1.1.1/dns-query".toList) none =
      .operators "https://1.1.1.1/dns-query".toList ∧
    ∃ (out : List Char) (reading : Reading) (env : ChainEnv),
      injectPluginDirectives (fun _ ↦ none) "ex-ray"
        (some "tls;host=example.com;ech-doh=https://1.1.1.1/dns-query".toList) none =
          .ok (some out) ∧
      parsePluginOptions (utf8 out) = .ok reading.args ∧
      sip003Env (some out) allocated serverAddr = .ok env ∧
      reading.get .echDoh = some "https://1.1.1.1/dns-query".toList := by
  have hreads (opts : Option (List Char)) (v : List Char)
      (heffective : effectiveEchDoh (fun _ ↦ none) "ex-ray" opts none = .operators v) :
      ∃ (out : List Char) (reading : Reading) (env : ChainEnv),
        injectPluginDirectives (fun _ ↦ none) "ex-ray" opts none = .ok (some out) ∧
        parsePluginOptions (utf8 out) = .ok reading.args ∧
        sip003Env (some out) allocated serverAddr = .ok env ∧ reading.get .echDoh = some v := by
    have hagrees := @permit_agrees (fun _ ↦ none) none allocated serverAddr "ex-ray" opts
      (fun _ ↦ true) (by decide) (by decide) (by decide) (by decide)
    rw [heffective] at hagrees
    split at hagrees
    · cases hagrees
    · rename_i hinject
      obtain ⟨out, -, reading, env, rfl, -, -, hparse, -, -, henv, hread, -⟩ := hagrees
      exact ⟨out, reading, env, hinject, hparse, henv, hread⟩
  have heffective : effectiveEchDoh (fun _ ↦ none) "ex-ray"
      (some "tls;host=example.com;ech-doh=https://1.1.1.1/dns-query".toList) none =
        .operators "https://1.1.1.1/dns-query".toList := by decide +kernel
  exact ⟨heffective, hreads _ _ heffective⟩

/-- The segments of `tls;host=example.com;cert=/c;ech-doh=https://1.1.1.1/dns-query`. -/
def certSegments : List OptionSegment :=
  [⟨"tls".toList, "tls".toList, [], false⟩,
    ⟨"host=example.com".toList, "host".toList, "example.com".toList, true⟩,
    ⟨"cert=/c".toList, "cert".toList, "/c".toList, true⟩,
    ⟨"ech-doh=https://1.1.1.1/dns-query".toList, "ech-doh".toList,
      "https://1.1.1.1/dns-query".toList, true⟩]

/-- A resolver is permitted, and ex-ray refuses to start for a certificate that it cannot read. -/
theorem permitted_without_start : effectiveEchDoh (fun _ ↦ none) "ex-ray"
        (some "tls;host=example.com;cert=/c;ech-doh=https://1.1.1.1/dns-query".toList) none =
      .operators "https://1.1.1.1/dns-query".toList ∧
    ∃ out, injectPluginDirectives (fun _ ↦ none) "ex-ray"
        (some "tls;host=example.com;cert=/c;ech-doh=https://1.1.1.1/dns-query".toList) none =
          .ok (some out) ∧
      exRay (fun _ ↦ false) (chainEnv allocated serverAddr) out = .error .certificate := by
  have hsplit : splitPluginOptions
      "tls;host=example.com;cert=/c;ech-doh=https://1.1.1.1/dns-query".toList =
        .ok certSegments := by decide +kernel
  refine ⟨by decide +kernel, ?_⟩
  exact exRay_refuses (fun _ ↦ none) (chainEnv allocated serverAddr) (fun _ ↦ false) none hsplit
    .certificate (by decide)

end Hole.Plugin
