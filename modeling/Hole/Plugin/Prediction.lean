import Hole.Plugin.Verdict

/-!
# The prediction and the verdict

`exRayFatalConfigError` says, before anything is started, for which option ex-ray refuses to start.
Here its checks are laid against those of ex-ray (`checks_startWith`), one by one and in order, on
what ex-ray reads of the directives and of the variables of a chain.

`Agrees` relates a prediction to a verdict: the prediction names the option of the flag that is
refused, or the refusal is one that Hole does not predict. There are two of those: the certificates
are read from files, and ex-ray parses a URL where Hole looks at its beginning. In server mode the
ports and the addresses are looked at in another order, so another option of them may be named
(`names`).
-/

namespace Hole.Plugin

open Text

/-! ### The variables of a chain -/

/-- The value of an option in the variables. -/
def ChainEnv.value (env : ChainEnv) : OptionKey → Option (List Char)
  | .remoteAddr => some env.remoteHost
  | .remotePort => some env.remotePort
  | .localAddr => some env.localHost
  | .localPort => some env.localPort
  | _ => none

/-- The addresses and the ports are ones that ex-ray accepts: it listens on one end and dials the
other, and in server mode these are exchanged. -/
structure ChainEnv.Valid (env : ChainEnv) (server : Bool) : Prop where
  listen : (canonicalLocalAddr (if server then env.remoteHost else env.localHost)).isSome = true
  dial : (checkRemoteAddr (if server then env.localHost else env.remoteHost)).isOk = true
  localPort : (validPort env.localPort).any (· ≠ 0) = true
  remotePort : (validPort env.remotePort).any (· ≠ 0) = true

theorem OptionKey.text_beq (k k' : OptionKey) : (k.text == k'.text) = decide (k = k') := by
  by_cases h : k = k'
  · simp [h]
  · have hne : k.text ≠ k'.text := fun htext ↦ h (text_injective htext)
    simp [h, hne]

/-- The options come before the variables. -/
theorem get_parseEnv (options : Reading) (env : ChainEnv) (k : OptionKey) :
    (parseEnv options env).get k = (options.get k).or (env.value k) := by
  rw [Reading.get, Reading.get, parseEnv, List.lookup_append]
  congr 1
  simp only [List.lookup_cons, OptionKey.text_beq]
  cases k <;> rfl

variable {env : ChainEnv} {server : Bool}

theorem ChainEnv.Valid.exRayLocalAddr (h : env.Valid server) :
    exRayLocalAddrIsInvalid (if server then env.remoteHost else env.localHost) = false := by
  have hchecks := checks_localAddr (if server then env.remoteHost else env.localHost)
  obtain ⟨ip, hip⟩ := Option.isSome_iff_exists.1 h.listen
  cases hinvalid : exRayLocalAddrIsInvalid (if server then env.remoteHost else env.localHost) with
  | false => rfl
  | true =>
    rw [hinvalid] at hchecks
    have herror : checkLocalAddr _ = .error (.flag .localAddr) := hchecks
    rw [checkLocalAddr, hip] at herror
    cases herror

theorem ChainEnv.Valid.exRayRemoteAddr (h : env.Valid server) :
    exRayRemoteAddrIsInvalid (if server then env.localHost else env.remoteHost) = false := by
  have hchecks := checks_remoteAddr (if server then env.localHost else env.remoteHost)
  cases hinvalid : exRayRemoteAddrIsInvalid (if server then env.localHost else env.remoteHost) with
  | false => rfl
  | true =>
    rw [hinvalid] at hchecks
    have herror : checkRemoteAddr _ = .error (.flag .remoteAddr) := hchecks
    have hok := h.dial
    rw [herror] at hok
    cases hok

theorem ChainEnv.Valid.isNoPort_localPort (h : env.Valid server) :
    isNoPort env.localPort = false := by
  rw [isNoPort_eq, h.localPort]
  rfl

theorem ChainEnv.Valid.isNoPort_remotePort (h : env.Valid server) :
    isNoPort env.remotePort = false := by
  rw [isNoPort_eq, h.remotePort]
  rfl

variable {segments : List OptionSegment}

theorem exRayOpts_of_split {s : List Char} (h : splitPluginOptions s = .ok segments) :
    exRayOpts env s = .ok (parseEnv (readingOf segments) env) := by
  have hargs := parsePluginOptions_utf8 s
  rw [h, toOption_ok, Option.map_some, toOption_eq_some] at hargs
  have hreading : (addsOf segments).reading = readingOf segments := by
    rw [← args_readingOf]
    simp [Args.reading, Reading.args, Function.comp_def]
  rw [exRayOpts, hargs]
  exact congrArg (fun r ↦ Except.ok (parseEnv r env)) hreading

theorem exRay_of_split {certs : Flags → Bool} {s : List Char}
    (h : splitPluginOptions s = .ok segments) :
    exRay certs env s = startWith certs (parseEnv (readingOf segments) env) := by
  rw [exRay, exRayOpts_of_split h]
  rfl

/-! ### Predictions that agree -/

/-- The option that sets a flag. -/
def optionFor (server : Bool) : OptionKey → OptionKey
  | .localAddr => if server then .remoteAddr else .localAddr
  | .remoteAddr => if server then .localAddr else .remoteAddr
  | .localPort => if server then .remotePort else .localPort
  | .remotePort => if server then .localPort else .remotePort
  | k => k

/-- A prediction names the option of a flag that is refused. In server mode ex-ray looks first at
`remotePort`, then at `remoteAddr`, then at `localPort`, and Hole the other way round. -/
def names (server : Bool) (named refused : OptionKey) : Bool := optionFor server refused = named ||
    (server && (named, optionFor server refused) ∈ [(OptionKey.localPort, OptionKey.remotePort),
      (.localPort, .remoteAddr), (.remoteAddr, .remotePort)])

/-- A prediction agrees with a verdict, up to refusals that are not predicted. -/
def Agrees (server : Bool) (unseen : Refusal → Prop) (predicted : Option OptionKey)
    (verdict : Option Refusal) : Prop :=
  match verdict with
  | none => predicted = none
  | some r => unseen r ∨ ∃ k k', predicted = some k ∧ r = .flag k' ∧ names server k k' = true

section Agrees

variable {server : Bool} {unseen : Refusal → Prop} {p p' : Option OptionKey}
  {v v' : Option Refusal} {k : OptionKey} {c : Bool}

theorem agrees_none : Agrees server unseen none none := rfl

theorem Agrees.or (h : Agrees server unseen p v)
    (h' : p = none → v = none → Agrees server unseen p' v') :
    Agrees server unseen (p.or p') (v.or v') := by
  cases v with
  | none =>
    obtain rfl : p = none := h
    exact h' rfl rfl
  | some r =>
    obtain hunseen | ⟨k, k', rfl, hr, hnames⟩ := h
    · exact .inl hunseen
    · exact .inr ⟨k, k', rfl, hr, hnames⟩

/-- A refusal that is not predicted. -/
theorem agrees_unseen {r : Refusal} (h : c = true → unseen r) :
    Agrees server unseen none (if c then some r else none) := by
  cases c with
  | true => exact .inl (h rfl)
  | false => rfl

/-- The prediction of one option. -/
def predicted (k : OptionKey) (c : Bool) : Option OptionKey := if c then some k else none

theorem agrees_refusal (hk : optionFor server k = k) :
    Agrees server unseen (predicted k c) (refusal k c) := by
  cases c with
  | true => exact .inr ⟨k, k, rfl, rfl, by simp [names, hk]⟩
  | false => rfl

end Agrees

/-! ### The flags -/

section Verdict

variable (hostStr : List Char → Option (List Char)) (env : ChainEnv)
  (segments : List OptionSegment) (echDoh : Option EchDoh)

/-- What ex-ray reads of the directives and the variables. -/
def readByExRay : Reading := parseEnv (readingOf (injected hostStr segments echDoh)) env

/-- ex-ray refuses a URL that Hole takes for one: the operator's, where it is left in place. -/
def StricterUrl : Prop :=
  ∃ v, flagValue segments .echDoh = some v ∧ echDohDisplaces hostStr segments echDoh = false ∧
    v ≠ [] ∧ exRayValueIsHttpsUrl v = true ∧ isHttpsUrl v = false

/-- The refusals that are not predicted. -/
def Unpredicted (r : Refusal) : Prop :=
  r = .certificate ∨ r = .flag .echDoh ∧ StricterUrl hostStr segments echDoh

variable {hostStr env segments echDoh}

theorem get_readByExRay {k : OptionKey} (hlog : k ≠ .loglevel) (hdoh : k ≠ .echDoh) :
    (readByExRay hostStr env segments echDoh).get k = (flagValue segments k).or (env.value k) := by
  rw [readByExRay, get_parseEnv, get_readingOf, flagValue_injected hlog hdoh]

/-- An option that neither Hole nor a chain sets is read as the operator has it. -/
theorem get_readByExRay_own (k : OptionKey) (hlog : k ≠ .loglevel) (hdoh : k ≠ .echDoh)
    (henv : env.value k = none) :
    (readByExRay hostStr env segments echDoh).get k = flagValue segments k := by
  rw [get_readByExRay hlog hdoh, henv, Option.or_none]

theorem get_readByExRay_loglevel :
    (readByExRay hostStr env segments echDoh).get .loglevel = some "debug".toList := by
  rw [readByExRay, get_parseEnv, get_readingOf, flagValue_injected_loglevel, Option.some_or]

theorem get_readByExRay_echDoh :
    (readByExRay hostStr env segments echDoh).get .echDoh =
      if echDohDisplaces hostStr segments echDoh then echDoh.map (·.url)
      else (flagValue segments .echDoh).or (echDoh.map (·.url)) := by
  rw [readByExRay, get_parseEnv, get_readingOf, flagValue_injected_echDoh]
  exact Option.or_none

theorem isHttpsUrl_of_parse {v h : List Char} (hparse : GoUrl.parse v = some ⟨"https".toList, h⟩)
    (hh : h ≠ []) : isHttpsUrl v = true := by
  rw [isHttpsUrl, hparse]
  simp [hh]

/-- ex-ray accepts the URL of an address. -/
theorem isHttpsUrl_dohUrl (ip : IpAddr) : isHttpsUrl (dohUrlForIp ip) = true := by
  cases ip with
  | v4 b =>
    refine isHttpsUrl_of_parse (GoUrl.parse_v4 b) fun hnil ↦ ?_
    have hdisplay := IpAddr.fromStr_display (.v4 b)
    rw [hnil] at hdisplay
    cases hdisplay
  | v6 b =>
    have hopen : "https://[".toList = "https://".toList ++ ['['] := by decide
    have hclose : "]/dns-query".toList = ']' :: "/dns-query".toList := by decide
    have happend (p d q : List Char) : (p ++ ['[']) ++ d ++ ']' :: q =
        p ++ ('[' :: (d ++ [']'])) ++ q := by simp
    have hurl : dohUrlForIp (.v6 b) = "https://".toList ++
        ('[' :: ((IpAddr.v6 b).display.toList ++ [']'])) ++ "/dns-query".toList :=
      (congrArg₂ (fun p q ↦ p ++ (IpAddr.v6 b).display.toList ++ q) hopen hclose).trans
        (happend _ _ _)
    rw [hurl]
    exact isHttpsUrl_of_parse (GoUrl.parse_v6 b) (List.cons_ne_nil _ _)

/-- What ex-ray accepts begins as Hole looks for. -/
theorem exRayValueIsHttpsUrl_of_isHttpsUrl {v : List Char} (h : isHttpsUrl v = true) :
    exRayValueIsHttpsUrl v = true := by
  unfold isHttpsUrl at h
  split at h
  · cases h
  · rename_i u hparse
    obtain ⟨hscheme, hhost⟩ := Bool.and_eq_true_iff.1 h
    obtain ⟨scheme, c, rest, rfl, hlower, hc⟩ :=
      GoUrl.authority_of_parse hparse (of_decide_eq_true hhost)
    have hlower : scheme.map Char.toLower = "https".toList :=
      hlower.trans (of_decide_eq_true hscheme)
    have hlength : scheme.length = 5 := by
      rw [← List.length_map Char.toLower, hlower]
      rfl
    have hsplit : scheme ++ ':' :: '/' :: '/' :: c :: rest =
        (scheme ++ [':', '/', '/']) ++ c :: rest := by simp
    have hfirst : (scheme ++ [':', '/', '/']).length = 8 := by simp [hlength]
    rw [exRayValueIsHttpsUrl, hsplit, List.take_left' hfirst, List.drop_left' hfirst,
      List.map_append, hlower]
    have htake : (c :: rest).takeWhile (fun c ↦ c ∉ ['/', '?', '#']) ≠ [] := by
      rw [List.takeWhile_cons_of_pos (by simpa using hc)]
      exact List.cons_ne_nil _ _
    rw [decide_eq_true htake, Bool.and_true]
    decide

theorem EchDoh.isHttpsUrl (e : EchDoh) : Plugin.isHttpsUrl e.url = true :=
  e.url_eq ▸ isHttpsUrl_dohUrl e.resolver

variable {server : Bool}

theorem agrees_echDoh : Agrees server (Unpredicted hostStr segments echDoh)
      (fails segments .echDoh fun v ↦
        v ≠ [] && !echDohDisplaces hostStr segments echDoh && !exRayValueIsHttpsUrl v)
      (refusal .echDoh (((readByExRay hostStr env segments echDoh).get .echDoh).any fun c ↦
        c ≠ [] && !isHttpsUrl c)) := by
  have hown : (echDoh.map (·.url)).any (fun c ↦ c ≠ [] && !isHttpsUrl c) = false := by
    cases echDoh with
    | none => rfl
    | some e => simp [e.isHttpsUrl]
  rw [get_readByExRay_echDoh]
  cases hdisplaces : echDohDisplaces hostStr segments echDoh with
  | true =>
    rw [if_pos rfl, hown]
    simp [fails]
    rfl
  | false =>
    rw [if_neg Bool.false_ne_true]
    cases hvalue : flagValue segments .echDoh with
    | none =>
      rw [Option.none_or, hown, fails, hvalue]
      exact agrees_none
    | some v =>
      rw [Option.some_or, fails, hvalue]
      by_cases hnil : v = []
      · simp [hnil, refusal]
        rfl
      · cases hurl : isHttpsUrl v with
        | true => simp [hnil, refusal, hurl, exRayValueIsHttpsUrl_of_isHttpsUrl hurl]; rfl
        | false =>
          cases hpre : exRayValueIsHttpsUrl v with
          | true =>
            simp [hnil, refusal, hurl, hpre]
            exact .inl (.inr ⟨rfl, v, hvalue, hdisplaces, hnil, hpre, hurl⟩)
          | false =>
            simp [hnil, refusal, hurl, hpre]
            exact .inr ⟨.echDoh, .echDoh, rfl, rfl, by simp [names, optionFor]⟩

/-- The modes that Hole knows are those of ex-ray. -/
theorem mem_allowedEchModes (v : List Char) :
    v ∈ ["never".toList, "auto".toList, "always".toList] ↔ v ∈ allowedEchModes := by
  have hperm (a b c : List Char) : v ∈ [a, b, c] ↔ v ∈ [b, c, a] := by
    simp only [List.mem_cons, List.not_mem_nil, or_false]
    tauto
  exact hperm _ _ _

theorem agrees_parse :
    Agrees server (Unpredicted hostStr segments echDoh) (fatalParse hostStr segments echDoh)
      (refusedParse (readByExRay hostStr env segments echDoh)) := by
  unfold refusedParse fatalParse
  simp only [mem_allowedEchModes]
  rw [get_readByExRay_own .mux nofun nofun rfl, get_readByExRay_own .tcpKeepalive nofun nofun rfl,
    get_readByExRay_own .tls nofun nofun rfl,
    get_readByExRay_own .host nofun nofun rfl,
    get_readByExRay_own .path nofun nofun rfl,
    get_readByExRay_own .server nofun nofun rfl,
    get_readByExRay_own .fastOpen nofun nofun rfl,
    get_readByExRay_own .androidVpn nofun nofun rfl,
    get_readByExRay_own .fwmark nofun nofun rfl,
    get_readByExRay_own .ech nofun nofun rfl, get_readByExRay_loglevel]
  iterate 5 refine Agrees.or (agrees_refusal rfl) fun _ _ ↦ ?_
  refine Agrees.or (p := none) agrees_none fun _ _ ↦ ?_
  iterate 5 refine Agrees.or (agrees_refusal rfl) fun _ _ ↦ ?_
  exact agrees_echDoh

/-! ### The checks of the flags -/

section Values

variable {o : Option (List Char)}

/-- A value that is accepted by default is refused only where it is given. -/
theorem getD_or_some {bad : List Char → Bool} {d d' : List Char} (hd : bad d = false) :
    bad ((o.or (some d)).getD d') = o.any bad := by
  cases o with
  | none => exact hd
  | some v => rfl

theorem outOfRange_eq {lo hi d : Int} (hd : lo ≤ d ∧ d ≤ hi) (ho : o.any isNoInteger = false) :
    (!decide (lo ≤ (o.bind readInt64).getD d ∧ (o.bind readInt64).getD d ≤ hi)) =
      o.any (isOutOfRange lo hi) := by
  cases o with
  | none =>
    rw [Option.bind_none, Option.getD_none, decide_eq_true hd]
    rfl
  | some v =>
    rw [Option.bind_some, Option.any_some, isOutOfRange]
    cases hv : readInt64 v with
    | none => simp [isNoInteger, hv] at ho
    | some n => rfl

theorem keepAliveOutOfRange (v : Int) : (v < 0 || v > 32767) = !decide (0 ≤ v ∧ v ≤ 32767) := by
  by_cases hv : 0 ≤ v ∧ v ≤ 32767
  · rw [decide_eq_true hv]
    simpa using hv
  · rw [decide_eq_false hv]
    simp only [Bool.not_false, Bool.or_eq_true, decide_eq_true_eq]
    omega

theorem getD_eq_iff {d v : List Char} (hne : d ≠ v) : o.getD d = v ↔ o = some v := by
  cases o with
  | none => simp [hne]
  | some w => simp

theorem not_mem_getD {d : List Char} {l : List (List Char)} (hd : d ∈ l) :
    decide (o.getD d ∉ l) = o.any (· ∉ l) := by
  cases o with
  | none => simp [hd]
  | some w => rfl

theorem getD_nil_ne {d : List Char} (hd : d = []) : decide (o.getD d ≠ []) = o.any (· ≠ []) := by
  cases o with
  | none => simp [hd]
  | some w => rfl

theorem or_or_self {γ : Type} (a b x y : Option γ) :
    a.or (b.or ((a.or (b.or x)).or y)) = a.or (b.or (x.or y)) := by
  cases a with
  | some _ => rfl
  | none =>
    cases b with
    | some _ => rfl
    | none => rfl

end Values

variable {unseen : Refusal → Prop}

/-- The ports and the addresses, in the two orders. -/
theorem agrees_ends {lp rp la ra : Bool} :
    Agrees server unseen ((predicted .localPort lp).or <|
        (predicted (if server then .remoteAddr else .localAddr) la).or <|
        (predicted .remotePort rp).or <|
        predicted (if server then .localAddr else .remoteAddr) ra)
      ((refusal .localPort (if server then rp else lp)).or <| (refusal .localAddr la).or <|
        (refusal .remotePort (if server then lp else rp)).or <| refusal .remoteAddr ra) := by
  cases server with
  | false =>
    refine Agrees.or (agrees_refusal rfl) fun _ _ ↦ ?_
    refine Agrees.or (agrees_refusal rfl) fun _ _ ↦ ?_
    refine Agrees.or (agrees_refusal rfl) fun _ _ ↦ ?_
    exact agrees_refusal rfl
  | true =>
    cases lp <;> cases rp <;> cases la <;> cases ra <;>
      first | rfl | exact .inr ⟨_, _, rfl, rfl, by decide⟩

/-! ### The flags that ex-ray arrives at -/

variable (hostStr env segments echDoh) in
/-- The flags of ex-ray, in the words of Hole. -/
def flagsByExRay : Flags := flagsOf (readByExRay hostStr env segments echDoh)

theorem flags_server :
    (flagsByExRay hostStr env segments echDoh).server = hasFlag segments .server := by
  rw [hasFlag_eq]
  exact congrArg Option.isSome (get_readByExRay_own .server nofun nofun rfl)

theorem flags_mode : (flagsByExRay hostStr env segments echDoh).mode =
    (flagValue segments .mode).getD "websocket".toList :=
  congrArg (·.getD "websocket".toList) (get_readByExRay_own .mode nofun nofun rfl)

theorem flags_echMode : (flagsByExRay hostStr env segments echDoh).echMode =
    (flagValue segments .ech).getD "auto".toList :=
  congrArg (·.getD "auto".toList) (get_readByExRay_own .ech nofun nofun rfl)

theorem flags_host : (flagsByExRay hostStr env segments echDoh).host =
    (flagValue segments .host).getD "cloudfront.com".toList :=
  congrArg (·.getD "cloudfront.com".toList) (get_readByExRay_own .host nofun nofun rfl)

theorem flags_mux : (flagsByExRay hostStr env segments echDoh).mux =
    ((flagValue segments .mux).bind readInt64).getD 1 :=
  congrArg (fun o ↦ (o.bind readInt64).getD 1) (get_readByExRay_own .mux nofun nofun rfl)

theorem flags_fwmark : (flagsByExRay hostStr env segments echDoh).fwmark =
    ((flagValue segments .fwmark).bind readInt64).getD 0 :=
  congrArg (fun o ↦ (o.bind readInt64).getD 0) (get_readByExRay_own .fwmark nofun nofun rfl)

theorem flags_tcpKeepAlive : (flagsByExRay hostStr env segments echDoh).tcpKeepAlive =
    ((flagValue segments .tcpKeepalive).bind readInt64).getD 15 :=
  congrArg (fun o ↦ (o.bind readInt64).getD 15) (get_readByExRay_own .tcpKeepalive nofun nofun rfl)

theorem flags_logLevel : (flagsByExRay hostStr env segments echDoh).logLevel = "debug".toList :=
  congrArg (·.getD []) get_readByExRay_loglevel

theorem flags_echDoh : (flagsByExRay hostStr env segments echDoh).echDoh =
    (if echDohDisplaces hostStr segments echDoh then echDoh.map (·.url)
      else (flagValue segments .echDoh).or (echDoh.map (·.url))).getD [] :=
  congrArg (·.getD []) get_readByExRay_echDoh

theorem flags_tlsOn : (flagsByExRay hostStr env segments echDoh).tlsOn = tlsIsEnabled segments := by
  have hne : "websocket".toList ≠ "quic".toList := by decide
  have htls : (flagsByExRay hostStr env segments echDoh).tlsEnabled = hasFlag segments .tls := by
    rw [hasFlag_eq]
    exact congrArg Option.isSome (get_readByExRay_own .tls nofun nofun rfl)
  rw [Flags.tlsOn, tlsIsEnabled, htls, flags_mode, decide_eq_decide.2 (getD_eq_iff hne)]

/-- Certificate material is given. -/
theorem flags_cert : (decide ((flagsByExRay hostStr env segments echDoh).cert ≠ []) ||
      decide ((flagsByExRay hostStr env segments echDoh).certRaw ≠ []) ||
      decide ((flagsByExRay hostStr env segments echDoh).key ≠ [])) =
    [OptionKey.cert, .certRaw, .key].any fun k ↦ (flagValue segments k).any (· ≠ []) := by
  have hcert : (flagsByExRay hostStr env segments echDoh).cert =
      (flagValue segments .cert).getD [] :=
    congrArg (·.getD []) (get_readByExRay_own .cert nofun nofun rfl)
  have hraw : (flagsByExRay hostStr env segments echDoh).certRaw =
      (flagValue segments .certRaw).getD [] :=
    congrArg (·.getD []) (get_readByExRay_own .certRaw nofun nofun rfl)
  have hkey : (flagsByExRay hostStr env segments echDoh).key =
      (flagValue segments .key).getD [] :=
    congrArg (·.getD []) (get_readByExRay_own .key nofun nofun rfl)
  rw [hcert, hraw, hkey, getD_nil_ne rfl, getD_nil_ne rfl, getD_nil_ne rfl]
  simp [Bool.or_assoc]

theorem EchDoh.url_ne_nil (e : EchDoh) : e.url ≠ [] := by
  intro hnil
  have hurl := e.isHttpsUrl
  rw [hnil] at hurl
  cases hurl

/-- The `ech-doh` that ex-ray arrives at is empty exactly if Hole takes it to be. -/
theorem flags_echDoh_eq_nil :
    decide ((flagsByExRay hostStr env segments echDoh).echDoh = []) =
      resolvedEchDohIsEmpty hostStr segments echDoh := by
  rw [flags_echDoh, resolvedEchDohIsEmpty]
  cases echDoh with
  | none =>
    have hnot : echDohDisplaces hostStr segments none = false := rfl
    rw [hnot]
    cases flagValue segments .echDoh <;> simp
  | some e =>
    cases hdisplaces : echDohDisplaces hostStr segments (some e) with
    | true => simp [e.url_ne_nil]
    | false =>
      cases flagValue segments .echDoh with
      | none => simp [e.url_ne_nil]
      | some v => simp

/-- An address or a port is read from the option, and else from the variables. -/
theorem flags_end {bad : List Char → Bool} (k k' : OptionKey) {d v v' : List Char}
    (hk : env.value k = some v) (hk' : env.value k' = some v')
    (hv : bad (if hasFlag segments .server then v else v') = false) :
    bad (((readByExRay hostStr env segments echDoh).get
        (if ((readByExRay hostStr env segments echDoh).get .server).isSome then k
          else k')).getD d) =
      (flagValue segments (if hasFlag segments .server then k else k')).any bad := by
  have hserver : ((readByExRay hostStr env segments echDoh).get .server).isSome =
      hasFlag segments .server := flags_server
  have hne {k : OptionKey} {v : List Char} (hk : env.value k = some v) :
      k ≠ .loglevel ∧ k ≠ .echDoh := by
    constructor
    · rintro rfl
      cases hk
    · rintro rfl
      cases hk
  rw [hserver]
  cases hflag : hasFlag segments .server with
  | true =>
    rw [hflag] at hv
    rw [if_pos rfl, get_readByExRay (hne hk).1 (hne hk).2, hk]
    exact getD_or_some hv
  | false =>
    rw [hflag] at hv
    rw [if_neg Bool.false_ne_true, get_readByExRay (hne hk').1 (hne hk').2, hk']
    exact getD_or_some hv

/-- The checks of the ports and the addresses. -/
theorem agrees_flagEnds (henv : env.Valid (hasFlag segments .server)) :
    Agrees (hasFlag segments .server) unseen ((fails segments .localPort isNoPort).or <|
        (fails segments (if hasFlag segments .server then .remoteAddr else .localAddr)
          exRayLocalAddrIsInvalid).or <|
        (fails segments .remotePort isNoPort).or <|
        fails segments (if hasFlag segments .server then .localAddr else .remoteAddr)
          exRayRemoteAddrIsInvalid)
      ((refusal .localPort (isNoPort (flagsByExRay hostStr env segments echDoh).localPort)).or <|
        (refusal .localAddr
          (exRayLocalAddrIsInvalid (flagsByExRay hostStr env segments echDoh).localAddr)).or <|
        (refusal .remotePort (isNoPort (flagsByExRay hostStr env segments echDoh).remotePort)).or <|
        refusal .remoteAddr
          (exRayRemoteAddrIsInvalid (flagsByExRay hostStr env segments echDoh).remoteAddr)) := by
  have hports (server : Bool) :
      isNoPort (if server then env.remotePort else env.localPort) = false ∧
        isNoPort (if server then env.localPort else env.remotePort) = false := by
    cases server with
    | true => exact ⟨henv.isNoPort_remotePort, henv.isNoPort_localPort⟩
    | false => exact ⟨henv.isNoPort_localPort, henv.isNoPort_remotePort⟩
  have hany {k k' : OptionKey} :
      (flagValue segments (if hasFlag segments .server then k else k')).any isNoPort =
        if hasFlag segments .server then (flagValue segments k).any isNoPort
        else (flagValue segments k').any isNoPort := by
    split <;> rfl
  have hlocalPort : isNoPort (flagsByExRay hostStr env segments echDoh).localPort = _ :=
    (flags_end .remotePort .localPort rfl rfl (hports _).1).trans hany
  have hremotePort : isNoPort (flagsByExRay hostStr env segments echDoh).remotePort = _ :=
    (flags_end .localPort .remotePort rfl rfl (hports _).2).trans hany
  have hlocalAddr : exRayLocalAddrIsInvalid
    (flagsByExRay hostStr env segments echDoh).localAddr = _ :=
    flags_end .remoteAddr .localAddr rfl rfl henv.exRayLocalAddr
  have hremoteAddr :
      exRayRemoteAddrIsInvalid (flagsByExRay hostStr env segments echDoh).remoteAddr = _ :=
    flags_end .localAddr .remoteAddr rfl rfl henv.exRayRemoteAddr
  rw [hlocalPort, hremotePort, hlocalAddr, hremoteAddr]
  exact agrees_ends

/-- What is known of the operator's values once they are parsed. -/
structure Parsed (segments : List OptionSegment) : Prop where
  mux : (flagValue segments .mux).any isNoInteger = false
  tcpKeepalive : (flagValue segments .tcpKeepalive).any isNoInteger = false
  fwmark : (flagValue segments .fwmark).any isNoInteger = false
  ech : (flagValue segments .ech).any (· ∉ allowedEchModes) = false

theorem fails_eq_none {k : OptionKey} {bad : List Char → Bool} :
    fails segments k bad = none ↔ (flagValue segments k).any bad = false := by
  rw [fails]
  cases (flagValue segments k).any bad <;> simp

theorem parsed_of_fatalParse (h : fatalParse hostStr segments echDoh = none) : Parsed segments := by
  simp only [fatalParse, Option.or_eq_none_iff, fails_eq_none, mem_allowedEchModes] at h
  obtain ⟨hmux, hkeepalive, -, -, -, -, -, -, hfwmark, hech, -⟩ := h
  exact ⟨hmux, hkeepalive, hfwmark, hech⟩

theorem flags_keepAlive (h : Parsed segments) :
    ((flagsByExRay hostStr env segments echDoh).tcpKeepAlive < 0 ||
      (flagsByExRay hostStr env segments echDoh).tcpKeepAlive > 32767) =
      (flagValue segments .tcpKeepalive).any (isOutOfRange 0 32767) := by
  rw [keepAliveOutOfRange, flags_tcpKeepAlive]
  exact outOfRange_eq (by decide) h.tcpKeepalive

theorem flags_mux_range (h : Parsed segments) :
    (!decide (0 ≤ (flagsByExRay hostStr env segments echDoh).mux ∧
      (flagsByExRay hostStr env segments echDoh).mux ≤ 2 ^ 32 - 1)) =
      (flagValue segments .mux).any (isOutOfRange 0 (2 ^ 32 - 1)) := by
  rw [flags_mux]
  exact outOfRange_eq (by decide) h.mux

theorem flags_fwmark_range (h : Parsed segments) :
    (!decide (0 ≤ (flagsByExRay hostStr env segments echDoh).fwmark ∧
      (flagsByExRay hostStr env segments echDoh).fwmark ≤ 2 ^ 32 - 1)) =
      (flagValue segments .fwmark).any (isOutOfRange 0 (2 ^ 32 - 1)) := by
  rw [flags_fwmark]
  exact outOfRange_eq (by decide) h.fwmark

theorem flags_echMode_allowed (h : Parsed segments) :
    decide ((flagsByExRay hostStr env segments echDoh).echMode ∉ allowedEchModes) = false := by
  have hauto : "auto".toList ∈ allowedEchModes := by decide
  rw [flags_echMode, not_mem_getD hauto]
  exact h.ech

theorem flags_always : decide
    ((flagsByExRay hostStr env segments echDoh).echMode = "always".toList) =
    decide (flagValue segments .ech = some "always".toList) := by
  have hne : "auto".toList ≠ "always".toList := by decide
  rw [flags_echMode]
  exact decide_eq_decide.2 (getD_eq_iff hne)

/-- A known mode is the default or the other one. -/
theorem getD_eq_default {o : Option (List Char)} {d v : List Char} (hne : d ≠ v)
    (ho : o.any (· ∉ [d, v]) = false) : o.getD d = d ↔ o ≠ some v := by
  cases o with
  | none => simp
  | some w =>
    have hmem : w = d ∨ w = v := by simpa using of_not_not (of_decide_eq_false ho)
    obtain rfl | rfl := hmem
    · simpa using hne
    · simpa using hne.symm

/-- The two spellings of the check of `core.New`. -/
theorem coreCheck_eq {mux : Int} (hmux : 0 ≤ mux) (websocket server : Bool) :
    (if websocket && !server then
      if mux ≠ 0 ∧ ¬(1 ≤ mux ∧ mux ≤ 1024) then some OptionKey.mux else none
      else none) =
    predicted .mux (!server && (websocket && decide (mux ≠ 0)) &&
      (mux.toNat < 1 || mux.toNat > 1024)) := by
  have hcond : (mux ≠ 0 ∧ ¬(1 ≤ mux ∧ mux ≤ 1024)) ↔
      mux ≠ 0 ∧ (mux.toNat < 1 ∨ mux.toNat > 1024) := by
    omega
  cases server with
  | true => rw [Bool.not_true, Bool.and_false, Bool.false_and, Bool.false_and]; rfl
  | false =>
    cases websocket with
    | false => rfl
    | true =>
      rw [predicted, Bool.not_false, Bool.true_and, Bool.true_and, Bool.true_and, if_pos rfl]
      by_cases hc : mux ≠ 0 ∧ ¬(1 ≤ mux ∧ mux ≤ 1024)
      · have hyes := hcond.1 hc
        rw [if_pos hc, if_pos (by simpa using hyes)]
      · have hno := mt hcond.2 hc
        rw [if_neg hc, if_neg (by simpa using hno)]

/-- The check of `core.New`. -/
theorem agrees_core (h : Parsed segments)
    (hmux : (flagValue segments .mux).any (isOutOfRange 0 (2 ^ 32 - 1)) = false)
    (hmode : (flagValue segments .mode).any (· ∉ knownModes) = false) :
    Agrees server unseen (fatalCore segments)
      (refusedCore (flagsByExRay hostStr env segments echDoh)) := by
  have hne : "websocket".toList ≠ "quic".toList := by decide
  have hrange : 0 ≤ (flagsByExRay hostStr env segments echDoh).mux := by
    have hnot := (@flags_mux_range hostStr env segments echDoh h).trans hmux
    rw [Bool.not_eq_false'] at hnot
    exact (of_decide_eq_true hnot).1
  have hpredicted : fatalCore segments = _ := coreCheck_eq (flags_mux ▸ hrange)
    (decide (flagValue segments .mode ≠ some "quic".toList)) (hasFlag segments .server)
  rw [hpredicted, refusedCore, flags_server, flags_mode,
    decide_eq_decide.2 (getD_eq_default hne hmode), flags_mux]
  exact agrees_refusal rfl

/-- The checks of the TLS settings. -/
theorem agrees_tls (certs : Flags → Bool) (h : Parsed segments) :
    Agrees server (Unpredicted hostStr segments echDoh)
      (predicted .echDoh (decide (flagValue segments .ech = some "always".toList) &&
        tlsIsEnabled segments && resolvedEchDohIsEmpty hostStr segments echDoh))
      (refusedTls certs (flagsByExRay hostStr env segments echDoh)) := by
  unfold refusedTls
  rw [flags_tlsOn, flags_echMode_allowed h, flags_always, flags_echDoh_eq_nil]
  cases tlsIsEnabled segments with
  | false =>
    rw [Bool.and_false, Bool.false_and]
    exact agrees_none
  | true =>
    rw [Bool.and_true, if_pos rfl]
    refine Agrees.or (p := none) (agrees_unseen fun _ ↦ .inl rfl) fun _ _ ↦ ?_
    refine Agrees.or (p := none) agrees_none fun _ _ ↦ ?_
    exact agrees_refusal rfl

theorem or_regroup {γ : Type} (a b c d e t w : Option γ) :
    (a.or (b.or c)).or ((d.or (e.or t)).or w) = a.or ((b.or (c.or (d.or e))).or (t.or w)) := by
  simp only [Option.or_assoc]

/-- The ports and the addresses of the listener are checked twice. -/
theorem or_regroup_twice {γ : Type} (a b c d e t w : Option γ) :
    a.or (b.or (c.or ((b.or (c.or (d.or (e.or t)))).or w))) =
      a.or ((b.or (c.or (d.or e))).or (t.or w)) := by
  rw [or_or_self]
  simp only [Option.or_assoc]

/-- The checks of the flags that are read. -/
theorem agrees_flags (certs : Flags → Bool) (h : Parsed segments)
    (henv : env.Valid (hasFlag segments .server)) :
    Agrees (hasFlag segments .server) (Unpredicted hostStr segments echDoh)
      ((fatalLocal segments).or ((fatalGenerate hostStr segments echDoh).or (fatalCore segments)))
      (refusedFlags certs (flagsByExRay hostStr env segments echDoh)) := by
  have hserver : optionFor (hasFlag segments .server) .tcpKeepalive = .tcpKeepalive := rfl
  have hfirst : Agrees (hasFlag segments .server) (Unpredicted hostStr segments echDoh)
      (if hasFlag segments .server then none
        else fails segments .tcpKeepalive (isOutOfRange 0 32767))
      (if hasFlag segments .server then none
        else refusal .tcpKeepalive ((flagValue segments .tcpKeepalive).any
          (isOutOfRange 0 32767))) := by
    split
    · exact agrees_none
    · exact agrees_refusal hserver
  have hlevel : decide ((flagsByExRay hostStr env segments echDoh).logLevel.map lowerASCII ∉
      logLevels) = false := by
    rw [flags_logLevel]
    decide
  have hwebsocket : "websocket".toList ∈ knownModes := by decide
  unfold fatalLocal fatalGenerate refusedFlags refusedGenerate
  rw [or_regroup, or_regroup_twice, flags_keepAlive h, flags_mux_range h, flags_fwmark_range h,
    flags_echMode_allowed h, flags_always, flags_tlsOn, flags_cert, hlevel, flags_server,
    flags_mode, not_mem_getD hwebsocket]
  refine Agrees.or hfirst fun hkeepalive hkeepalive' ↦ ?_
  refine Agrees.or (agrees_flagEnds henv) fun _ _ ↦ ?_
  simp only [Option.or_assoc]
  refine Agrees.or (agrees_refusal rfl) fun hmux _ ↦ ?_
  refine Agrees.or (agrees_refusal rfl) fun _ _ ↦ ?_
  refine Agrees.or (agrees_refusal rfl) fun hmode _ ↦ ?_
  refine Agrees.or (p := none) agrees_none fun _ _ ↦ ?_
  refine Agrees.or (agrees_refusal rfl) fun _ _ ↦ ?_
  refine Agrees.or (agrees_refusal rfl) fun _ _ ↦ ?_
  -- a client has checked this before, a server checks it here
  have hagain : Agrees (hasFlag segments .server) (Unpredicted hostStr segments echDoh)
      (if hasFlag segments .server then fails segments .tcpKeepalive (isOutOfRange 0 32767)
        else none)
      (refusal .tcpKeepalive ((flagValue segments .tcpKeepalive).any (isOutOfRange 0 32767))) := by
    cases hflag : hasFlag segments .server with
    | true => exact agrees_refusal hserver
    | false =>
      rw [hflag, if_neg Bool.false_ne_true] at hkeepalive'
      rw [hkeepalive']
      exact agrees_none
  refine Agrees.or hagain fun _ _ ↦ ?_
  refine Agrees.or (agrees_tls certs h) fun _ _ ↦ ?_
  refine Agrees.or (p := none) agrees_none fun _ _ ↦ ?_
  exact agrees_core h (fails_eq_none.1 hmux) (fails_eq_none.1 hmode)

/-- **The prediction agrees with the verdict**, check by check. -/
theorem agrees_verdict (certs : Flags → Bool) (henv : env.Valid (hasFlag segments .server)) :
    Agrees (hasFlag segments .server) (Unpredicted hostStr segments echDoh)
      (exRayFatalConfigError hostStr segments echDoh)
      ((refusedParse (readByExRay hostStr env segments echDoh)).or
        (refusedFlags certs (flagsByExRay hostStr env segments echDoh))) :=
  Agrees.or agrees_parse fun hparse _ ↦ agrees_flags certs (parsed_of_fatalParse hparse) henv

/-- ex-ray refuses what is named first, and starts with what the flags give if nothing is. -/
theorem checks_exRay {out : List Char} (certs : Flags → Bool)
    (hout : splitPluginOptions out = .ok (injected hostStr segments echDoh)) :
    Checks (exRay certs env out) ((refusedParse (readByExRay hostStr env segments echDoh)).or
        (refusedFlags certs (flagsByExRay hostStr env segments echDoh)))
      (BuiltFrom (flagsByExRay hostStr env segments echDoh)) := by
  rw [exRay_of_split hout]
  exact checks_startWith certs _

/-- What ex-ray refuses of a text. -/
theorem exRay_refuses (hostStr : List Char → Option (List Char)) (env : ChainEnv)
    (certs : Flags → Bool) (echDoh : Option EchDoh) {s : List Char} {segments : List OptionSegment}
    (hsplit : splitPluginOptions s = .ok segments) (r : Refusal)
    (hverdict : (refusedParse (readByExRay hostStr env segments echDoh)).or
      (refusedFlags certs (flagsByExRay hostStr env segments echDoh)) = some r) :
    ∃ out, injectPluginDirectives hostStr "ex-ray" (some s) echDoh = .ok (some out) ∧
      exRay certs env out = .error r := by
  have hname : takesEchDirectives "ex-ray" = true := by decide
  obtain ⟨out, hinject, hout⟩ := @inject_eq hostStr _ (some s) echDoh _ hname hsplit
  have hchecks : Checks (exRay certs env out) _ _ := checks_exRay certs hout
  rw [hverdict] at hchecks
  exact ⟨out, hinject, hchecks⟩

/-- **ex-ray refuses to start where Hole predicts it, and for that option; and it starts where Hole
predicts none**, but for the certificates and the syntax of a URL. -/
theorem prediction_agrees {pluginName : String} {opts : Option (List Char)} (certs : Flags → Bool)
    (hname : takesEchDirectives pluginName = true)
    (hsplit : splitPluginOptions (opts.getD []) = .ok segments)
    (henv : env.Valid (hasFlag segments .server)) :
    ∃ out, injectPluginDirectives hostStr pluginName opts echDoh = .ok (some out) ∧
      (∀ k, exRayFatalConfigError hostStr segments echDoh = some k →
        ∃ r, exRay certs env out = .error r ∧ (Unpredicted hostStr segments echDoh r ∨
          ∃ k', r = .flag k' ∧ names (hasFlag segments .server) k k' = true)) ∧
      (exRayFatalConfigError hostStr segments echDoh = none →
        (∃ config, exRay certs env out = .ok config) ∨
        ∃ r, exRay certs env out = .error r ∧ Unpredicted hostStr segments echDoh r) := by
  obtain ⟨out, hinject, hout⟩ := @inject_eq hostStr _ _ echDoh _ hname hsplit
  have hchecks : Checks (exRay certs env out) _ _ := checks_exRay certs hout
  have hagrees := @agrees_verdict hostStr _ _ echDoh certs henv
  refine ⟨out, hinject, fun k hk ↦ ?_, fun hnone ↦ ?_⟩
  · rw [hk] at hagrees
    cases hverdict : (refusedParse (readByExRay hostStr env segments echDoh)).or
        (refusedFlags certs (flagsByExRay hostStr env segments echDoh)) with
    | none =>
      rw [hverdict] at hagrees
      cases hagrees
    | some r =>
      rw [hverdict] at hagrees hchecks
      refine ⟨r, hchecks, hagrees.imp_right ?_⟩
      rintro ⟨k, k', hsome, hr, hnames⟩
      cases hsome
      exact ⟨k', hr, hnames⟩
  · rw [hnone] at hagrees
    cases hverdict : (refusedParse (readByExRay hostStr env segments echDoh)).or
        (refusedFlags certs (flagsByExRay hostStr env segments echDoh)) with
    | none =>
      rw [hverdict] at hchecks
      obtain ⟨config, hok, -⟩ := hchecks
      exact .inl ⟨config, hok⟩
    | some r =>
      rw [hverdict] at hagrees hchecks
      refine .inr ⟨r, hchecks, hagrees.resolve_right ?_⟩
      rintro ⟨k, k', hsome, -⟩
      cases hsome

end Verdict

/-- The variables of a chain between two loopback addresses. -/
def loopbackEnv : ChainEnv := ⟨"127.0.0.1".toList, "8388".toList, "127.0.0.1".toList, "1984".toList⟩

/-- A concurrency that `core.New` refuses. -/
theorem prediction_agrees_mux :
    ∃ out, injectPluginDirectives (fun _ ↦ none) "ex-ray" (some "tls;mux=2000".toList) none =
        .ok (some out) ∧
      ∃ r, exRay (fun _ ↦ true) loopbackEnv out = .error r ∧
        (Unpredicted (fun _ ↦ none) [⟨"tls".toList, "tls".toList, [], false⟩,
            ⟨"mux=2000".toList, "mux".toList, "2000".toList, true⟩] none r ∨
          ∃ k', r = .flag k' ∧ names false .mux k' = true) := by
  obtain ⟨out, hinject, hfatal, -⟩ := @prediction_agrees (fun _ ↦ none) loopbackEnv
    [⟨"tls".toList, "tls".toList, [], false⟩,
      ⟨"mux=2000".toList, "mux".toList, "2000".toList, true⟩] none "ex-ray"
    (some "tls;mux=2000".toList) (fun _ ↦ true) (by decide) (by decide +kernel)
    ⟨by decide, by decide, by decide, by decide⟩
  exact ⟨out, hinject, hfatal .mux (by decide)⟩

/-- The segments of `ech-doh=https://%/;localPort=0`. -/
def percentHostSegments : List OptionSegment :=
  [⟨"ech-doh=https://%/".toList, "ech-doh".toList, "https://%/".toList, true⟩,
    ⟨"localPort=0".toList, "localPort".toList, "0".toList, true⟩]

/-- The segments of `server;localPort=0;remoteAddr=example.com`. -/
def serverEndSegments : List OptionSegment :=
  [⟨"server".toList, "server".toList, [], false⟩,
    ⟨"localPort=0".toList, "localPort".toList, "0".toList, true⟩,
    ⟨"remoteAddr=example.com".toList, "remoteAddr".toList, "example.com".toList, true⟩]

/-- Hole looks at the beginning of the URL only, and in server mode at `localPort` first. -/
theorem prediction_differs :
    (∃ out, splitPluginOptions "ech-doh=https://%/;localPort=0".toList = .ok percentHostSegments ∧
      injectPluginDirectives (fun _ ↦ none) "ex-ray"
        (some "ech-doh=https://%/;localPort=0".toList) none = .ok (some out) ∧
      exRayFatalConfigError (fun _ ↦ none) percentHostSegments none = some .localPort ∧
      exRay (fun _ ↦ true) loopbackEnv out = .error (.flag .echDoh)) ∧
    ∃ out, splitPluginOptions "server;localPort=0;remoteAddr=example.com".toList =
        .ok serverEndSegments ∧
      injectPluginDirectives (fun _ ↦ none) "ex-ray"
        (some "server;localPort=0;remoteAddr=example.com".toList) none = .ok (some out) ∧
      exRayFatalConfigError (fun _ ↦ none) serverEndSegments none = some .localPort ∧
      exRay (fun _ ↦ true) loopbackEnv out = .error (.flag .localAddr) ∧
      optionFor true .localAddr = .remoteAddr := by
  have hurl : splitPluginOptions "ech-doh=https://%/;localPort=0".toList =
      .ok percentHostSegments := by decide +kernel
  have hserver : splitPluginOptions "server;localPort=0;remoteAddr=example.com".toList =
      .ok serverEndSegments := by decide +kernel
  obtain ⟨out, hinject, hexRay⟩ := exRay_refuses (fun _ ↦ none) loopbackEnv (fun _ ↦ true) none hurl
    (.flag .echDoh) (by decide)
  obtain ⟨out', hinject', hexRay'⟩ := exRay_refuses (fun _ ↦ none) loopbackEnv (fun _ ↦ true) none
    hserver (.flag .localAddr) (by decide)
  have hfatal : exRayFatalConfigError
    (fun _ ↦ none) percentHostSegments none = some .localPort := by
    decide
  have hfatal' : exRayFatalConfigError (fun _ ↦ none) serverEndSegments none = some .localPort := by
    decide
  exact ⟨⟨out, hurl, hinject, hfatal, hexRay⟩, out', hserver, hinject', hfatal', hexRay', rfl⟩

end Hole.Plugin
