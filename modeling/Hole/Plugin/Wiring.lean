import Hole.Plugin.Prediction

/-!
# The wiring of a plugin

A chain hands a plugin the address to listen on and the address to forward to, in four variables
(`sip003Env`). In server mode ex-ray exchanges the two ends, so they are exchanged first. ex-ray
reads the variables after the options, and the options know the same four keys: **an end is the
chain's unless the operator's options set it** (`wiring`).

The address that the plugin reports is the one it listens on (`fromStr_readyAddr`).
-/

namespace Hole.Plugin

open Text

/-! ### The variables -/

/-- `garter::Mode`. -/
inductive ChainMode
  | client
  | server

/-- `Mode::from_plugin_options`. -/
def ChainMode.fromPluginOptions : Option (List Char) → Except MalformedOptions ChainMode
  | none => .ok .client
  | some opts => do
    let segments ← splitPluginOptions opts
    .ok (if segments.any (·.key = "server".toList) then .server else .client)

/-- `Sip003Env`. -/
def chainEnv (ssLocal ssRemote : SocketAddr) : ChainEnv where
  remoteHost := ssRemote.ip.display.toList
  remotePort := SocketAddr.portText ssRemote.port
  localHost := ssLocal.ip.display.toList
  localPort := SocketAddr.portText ssLocal.port

/-- `BinaryPlugin::sip003_env`. -/
def sip003Env (options : Option (List Char)) (loc remote : SocketAddr) :
    Except MalformedOptions ChainEnv := do
  match ← ChainMode.fromPluginOptions options with
  | .client => .ok (chainEnv loc remote)
  | .server => .ok (chainEnv remote loc)

/-! ### Addresses as texts -/

theorem trimSpace_of_forall {s : List Char} (h : ∀ c ∈ s, isWhiteSpace c = false) :
    trimSpace s = s := by
  have hdrop {s : List Char} (h : ∀ c ∈ s, isWhiteSpace c = false) :
      s.dropWhile isWhiteSpace = s := by
    cases s with
    | nil => rfl
    | cons c s => exact List.dropWhile_cons_of_neg (by simp [h c List.mem_cons_self])
  rw [trimSpace, hdrop h, hdrop fun c hc ↦ h c (List.mem_reverse.1 hc), List.reverse_reverse]

/-- v2ray-core reads the text of an address as the address. -/
theorem parseAddress_display (ip : IpAddr) :
    parseAddress ip.display.toList = .ip ip.toCanonical := by
  have hplain : ∀ c ∈ IpAddr.displayChars, isWhiteSpace c = false ∧ c ≠ '[' :=
    Text.forall_of_all (by decide)
  have hspace : ∀ c ∈ ip.display.toList, isWhiteSpace c = false :=
    fun c hc ↦ (hplain c (IpAddr.mem_displayChars hc)).1
  have hopen : '[' ∉ ip.display.toList := fun h ↦ (hplain _ (IpAddr.mem_displayChars h)).2 rfl
  have hunbracket : unbracket ip.display.toList = ip.display.toList := by
    unfold unbracket
    rw [if_neg fun h ↦ hopen (List.mem_of_mem_head? h.1)]
  have htrim : trimUnlessAlphanumeric ip.display.toList = ip.display.toList := by
    unfold trimUnlessAlphanumeric
    rw [trimSpace_of_forall hspace, ite_self]
  unfold parseAddress
  dsimp only
  rw [hunbracket, htrim, IpAddr.fromStr_display]

theorem canonicalLocalAddr_display (ip : IpAddr) :
    canonicalLocalAddr ip.display.toList = some ip.toCanonical := by
  have hbar : '|' ∉ ip.display.toList := by
    intro h
    have hall : '|' ∉ IpAddr.displayChars := by decide
    exact hall (IpAddr.mem_displayChars h)
  rw [canonicalLocalAddr, if_neg hbar, parseAddress_display]

theorem validPort_portText (port : BitVec 16) :
    validPort (SocketAddr.portText port) = some port.toNat := by
  have hdigits : (SocketAddr.portText port).all Char.isDigit = true := by
    rw [List.all_eq_true]
    intro c hc
    obtain ⟨d, hd, rfl⟩ := mem_toDigits (by decide) hc
    have hall : ∀ d < 10, d.digitChar.isDigit = true := by decide
    exact hall d hd
  have hle : port.toNat ≤ 65535 := Nat.le_of_lt_succ port.isLt
  rw [validPort, if_pos hdigits, SocketAddr.portText, readNat_toDigits (by decide) (by decide)]
  simp [hle]

theorem readPort_of_validPort {text : List Char} {n : Nat} (h : validPort text = some n) :
    SocketAddr.readPort text = some (BitVec.ofNat 16 n) := by
  unfold validPort at h
  split at h
  · obtain ⟨hread, hle⟩ := Option.filter_eq_some_iff.1 h
    have hlt : n < 65536 := Nat.lt_succ_of_le (of_decide_eq_true hle)
    rw [SocketAddr.readPort, hread]
    simp [hlt]
  · cases h

/-! ### The ends -/

section Ends

variable {hostStr : List Char → Option (List Char)} {segments : List OptionSegment}
  {echDoh : Option EchDoh} {loc remote : SocketAddr} {env : ChainEnv} {out : List Char}

theorem sip003Env_eq (hout : splitPluginOptions out = .ok (injected hostStr segments echDoh))
    (henv : sip003Env (some out) loc remote = .ok env) :
    env = if hasFlag segments .server then chainEnv remote loc else chainEnv loc remote := by
  have hserver : (injected hostStr segments echDoh).any (·.key = "server".toList) =
      hasFlag segments .server := by
    have hinjected : hasFlag (injected hostStr segments echDoh) .server = _ := hasFlag_eq
    have hvalue : flagValue (injected hostStr segments echDoh) .server = _ :=
      flagValue_injected (k := .server) nofun nofun
    rw [hvalue, ← hasFlag_eq] at hinjected
    exact hinjected
  rw [sip003Env, ChainMode.fromPluginOptions, hout, ok_bind, ok_bind, hserver] at henv
  cases hflag : hasFlag segments .server with
  | true =>
    rw [hflag] at henv
    exact (Except.ok.inj henv).symm
  | false =>
    rw [hflag] at henv
    exact (Except.ok.inj henv).symm

theorem sip003Env_ok (loc remote : SocketAddr)
    (hout : splitPluginOptions out = .ok (injected hostStr segments echDoh)) :
    ∃ env, sip003Env (some out) loc remote = .ok env := by
  rw [sip003Env, ChainMode.fromPluginOptions, hout, ok_bind, ok_bind]
  split
  · exact ⟨_, rfl⟩
  · exact ⟨_, rfl⟩

/-- What the operator's options set of an end, and else the chain. -/
def endText (segments : List OptionSegment) (k : OptionKey) (chain : List Char) : List Char :=
  (flagValue segments (optionFor (hasFlag segments .server) k)).getD chain

theorem flags_ends (hout : splitPluginOptions out = .ok (injected hostStr segments echDoh))
    (henv : sip003Env (some out) loc remote = .ok env) :
    (flagsByExRay hostStr env segments echDoh).localAddr =
        endText segments .localAddr loc.ip.display.toList ∧
      (flagsByExRay hostStr env segments echDoh).localPort =
        endText segments .localPort (SocketAddr.portText loc.port) ∧
      (flagsByExRay hostStr env segments echDoh).remoteAddr =
        endText segments .remoteAddr remote.ip.display.toList ∧
      (flagsByExRay hostStr env segments echDoh).remotePort =
        endText segments .remotePort (SocketAddr.portText remote.port) := by
  have hserver : ((readByExRay hostStr env segments echDoh).get .server).isSome =
      hasFlag segments .server := flags_server
  have hend {k : OptionKey} {chain d : List Char} (hlog : k ≠ .loglevel) (hdoh : k ≠ .echDoh)
      (hk : env.value k = some chain) :
      ((readByExRay hostStr env segments echDoh).get k).getD d =
        (flagValue segments k).getD chain := by
    rw [get_readByExRay hlog hdoh, hk]
    cases flagValue segments k <;> rfl
  have henv := sip003Env_eq hout henv
  unfold flagsByExRay flagsOf endText
  rw [hserver]
  cases hflag : hasFlag segments .server with
  | true =>
    rw [hflag, if_pos rfl] at henv
    subst henv
    exact ⟨hend nofun nofun rfl, hend nofun nofun rfl, hend nofun nofun rfl, hend nofun nofun rfl⟩
  | false =>
    rw [hflag, if_neg Bool.false_ne_true] at henv
    subst henv
    exact ⟨hend nofun nofun rfl, hend nofun nofun rfl, hend nofun nofun rfl, hend nofun nofun rfl⟩

/-- ex-ray starts with what its flags give, and reports the address it listens on. -/
theorem builtFrom_of_exRay {certs : Flags → Bool} {config : Config}
    (hout : splitPluginOptions out = .ok (injected hostStr segments echDoh))
    (hrun : exRay certs env out = .ok config) :
    BuiltFrom (flagsByExRay hostStr env segments echDoh) config ∧
      ∃ text, readyAddr env out = .ok text ∧
        SocketAddr.fromStr text = some ⟨config.listen, BitVec.ofNat 16 config.listenPort⟩ := by
  have hopts : exRayOpts env out = .ok (readByExRay hostStr env segments echDoh) :=
    exRayOpts_of_split hout
  have hchecks : Checks (exRay certs env out) _ _ := checks_exRay certs hout
  obtain ⟨hverdict, hbuilt⟩ := hchecks.of_ok hrun
  have hparse : Checks (parseOptsIntoFlags (readByExRay hostStr env segments echDoh) {}) _ _ :=
    checks_parse
  rw [(Option.or_eq_none_iff.1 hverdict).1] at hparse
  obtain ⟨f, hflags, hf⟩ := hparse
  have hlisten : checkLocalAddr (flagsByExRay hostStr env segments echDoh).localAddr =
      .ok config.listen := by
    rw [checkLocalAddr, hbuilt.listen]
  refine ⟨hbuilt, _, ?_, SocketAddr.fromStr_joinHostPort config.listen
    (readPort_of_validPort hbuilt.listenPort)⟩
  rw [readyAddr, hopts, ok_bind, hflags, ok_bind, hf]
  exact congrArg (· >>= _) hlisten

/-- **A plugin is wired between the addresses of the chain, except for the ends that the operator's
options set.** -/
theorem wiring {pluginName : String} {opts : Option (List Char)} {certs : Flags → Bool}
    {config : Config} (hname : takesEchDirectives pluginName = true)
    (hsplit : splitPluginOptions (opts.getD []) = .ok segments)
    (hinject : injectPluginDirectives hostStr pluginName opts echDoh = .ok (some out))
    (henv : sip003Env (some out) loc remote = .ok env)
    (hrun : exRay certs env out = .ok config) :
    canonicalLocalAddr (endText segments .localAddr loc.ip.display.toList) = some config.listen ∧
      validPort (endText segments .localPort (SocketAddr.portText loc.port)) =
        some config.listenPort ∧
      config.remote = parseAddress (endText segments .remoteAddr remote.ip.display.toList) ∧
      validPort (endText segments .remotePort (SocketAddr.portText remote.port)) =
        some config.remotePort ∧
      (∃ text, readyAddr env out = .ok text ∧
        SocketAddr.fromStr text = some ⟨config.listen, BitVec.ofNat 16 config.listenPort⟩) ∧
      ((∀ k ∈ [OptionKey.localAddr, .localPort, .remoteAddr, .remotePort],
          flagValue segments k = none) →
        config.listen = loc.ip.toCanonical ∧ config.listenPort = loc.port.toNat ∧
          config.remote = .ip remote.ip.toCanonical ∧ config.remotePort = remote.port.toNat) := by
  obtain ⟨out', hinject', hout⟩ := @inject_eq hostStr _ _ echDoh _ hname hsplit
  obtain rfl : out = out' := by
    rw [hinject] at hinject'
    exact Option.some.inj (Except.ok.inj hinject')
  obtain ⟨hbuilt, hready⟩ := builtFrom_of_exRay hout hrun
  obtain ⟨hlocalAddr, hlocalPort, hremoteAddr, hremotePort⟩ := flags_ends hout henv
  have hlisten := hlocalAddr ▸ hbuilt.listen
  have hlistenPort := hlocalPort ▸ hbuilt.listenPort
  have hremote := hremoteAddr ▸ hbuilt.remote
  have hdialPort := hremotePort ▸ hbuilt.remotePort
  refine ⟨hlisten, hlistenPort, hremote, hdialPort, hready, fun hnone ↦ ?_⟩
  have hchain {k : OptionKey} {chain : List Char} (hk : ∀ server, optionFor server k ∈
        [OptionKey.localAddr, .localPort, .remoteAddr, .remotePort]) :
      endText segments k chain = chain := by
    rw [endText, hnone _ (hk _)]
    rfl
  rw [hchain (by decide), canonicalLocalAddr_display] at hlisten
  rw [hchain (by decide), validPort_portText] at hlistenPort
  rw [hchain (by decide), parseAddress_display] at hremote
  rw [hchain (by decide), validPort_portText] at hdialPort
  exact ⟨(Option.some.inj hlisten).symm, (Option.some.inj hlistenPort).symm, hremote,
    (Option.some.inj hdialPort).symm⟩

end Ends

/-- The address that a start allocates, and a server. -/
def allocated : SocketAddr := ⟨.ofOctets 127 0 0 1, 1984#16⟩

def serverAddr : SocketAddr := ⟨.ofOctets 203 0 113 5, 443#16⟩

/-- ex-ray starts with options in which nothing is refused. -/
theorem exRay_starts (env : ChainEnv) (certs : Flags → Bool) {s : List Char}
    {segments : List OptionSegment} (hsplit : splitPluginOptions s = .ok segments)
    (henv : (if hasFlag segments .server then chainEnv serverAddr allocated
      else chainEnv allocated serverAddr) = env)
    (hverdict : (refusedParse (readByExRay (fun _ ↦ none) env segments none)).or
      (refusedFlags certs (flagsByExRay (fun _ ↦ none) env segments none)) = none) :
    ∃ out config, injectPluginDirectives (fun _ ↦ none) "ex-ray" (some s) none = .ok (some out) ∧
      sip003Env (some out) allocated serverAddr = .ok env ∧ exRay certs env out = .ok config ∧
      BuiltFrom (flagsByExRay (fun _ ↦ none) env segments none) config := by
  have hname : takesEchDirectives "ex-ray" = true := by decide
  obtain ⟨out, hinject, hout⟩ := @inject_eq (fun _ ↦ none) _ (some s) none _ hname hsplit
  have hchecks : Checks (exRay certs env out) _ _ := checks_exRay certs hout
  rw [hverdict] at hchecks
  obtain ⟨config, hrun, hbuilt⟩ := hchecks
  obtain ⟨env', henv'⟩ := sip003Env_ok allocated serverAddr hout
  obtain rfl := (sip003Env_eq hout henv').trans henv
  exact ⟨out, config, hinject, henv', hrun, hbuilt⟩

/-- Options that set no end. -/
theorem wiring_tls : ∃ out config, injectPluginDirectives (fun _ ↦ none) "ex-ray"
        (some "tls;host=example.com".toList) none = .ok (some out) ∧
      exRay (fun _ ↦ true) (chainEnv allocated serverAddr) out = .ok config ∧
      config.listen = allocated.ip ∧ config.listenPort = 1984 ∧
      config.remote = .ip serverAddr.ip ∧ config.remotePort = 443 := by
  have hsplit : splitPluginOptions "tls;host=example.com".toList =
      .ok [⟨"tls".toList, "tls".toList, [], false⟩,
        ⟨"host=example.com".toList, "host".toList, "example.com".toList, true⟩] := by decide +kernel
  obtain ⟨out, config, hinject, henv, hrun, -⟩ := exRay_starts (chainEnv allocated serverAddr)
    (fun _ ↦ true) hsplit rfl (by decide +kernel)
  have hname : takesEchDirectives "ex-ray" = true := by decide
  obtain ⟨-, -, -, -, -, hchain⟩ := @wiring _ _ _ _ _ _ _ _ (some _) _ _ hname hsplit hinject henv
    hrun
  exact ⟨out, config, hinject, hrun, hchain (by decide)⟩

/-- The segments of `remoteAddr=198.51.100.7;localPort=9999`. -/
def movedSegments : List OptionSegment :=
  [⟨"remoteAddr=198.51.100.7".toList, "remoteAddr".toList, "198.51.100.7".toList, true⟩,
    ⟨"localPort=9999".toList, "localPort".toList, "9999".toList, true⟩]

/-- The operator's options move both ends. -/
theorem wiring_overridden : ∃ out config, injectPluginDirectives (fun _ ↦ none) "ex-ray"
        (some "remoteAddr=198.51.100.7;localPort=9999".toList) none = .ok (some out) ∧
      sip003Env (some out) allocated serverAddr = .ok (chainEnv allocated serverAddr) ∧
      exRay (fun _ ↦ true) (chainEnv allocated serverAddr) out = .ok config ∧
      config.listenPort = 9999 ∧ config.remote = .ip (.ofOctets 198 51 100 7) := by
  have hsplit : splitPluginOptions "remoteAddr=198.51.100.7;localPort=9999".toList =
      .ok movedSegments := by decide +kernel
  obtain ⟨out, config, hinject, henv, hrun, hbuilt⟩ := exRay_starts
    (chainEnv allocated serverAddr) (fun _ ↦ true) hsplit rfl (by decide +kernel)
  have hport : validPort (flagsByExRay (fun _ ↦ none) (chainEnv allocated serverAddr) movedSegments
      none).localPort = some 9999 := by decide +kernel
  have hremote : parseAddress (flagsByExRay (fun _ ↦ none) (chainEnv allocated serverAddr)
      movedSegments none).remoteAddr = .ip (.ofOctets 198 51 100 7) := by decide +kernel
  exact ⟨out, config, hinject, henv, hrun, Option.mem_unique hbuilt.listenPort hport,
    hbuilt.remote.trans hremote⟩

end Hole.Plugin
