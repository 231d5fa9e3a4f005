import Hole.Plugin.Directives

/-!
# The predicted verdict

Hole predicts for which option ex-ray refuses to start, from the operator's segments and before
anything is started. `startWith` is a sequence of checks, and so is the prediction; `Checks` says of
a computation which check it fails first, if any. The checks of ex-ray, on what it reads of the
directives, are those that Hole predicts, with three differences: ex-ray's syntax of a URL is
stricter than Hole's, it reads the certificates, and in server mode it looks at the ports and the
addresses in another order.
-/

namespace Hole.Plugin

open Text

/-! ### Sequences of checks -/

/-- A computation fails the check that is named, or none of them, with a value as described. -/
def Checks {α : Type} (x : Except Refusal α) (o : Option Refusal) (P : α → Prop) : Prop :=
  match o with
  | some r => x = .error r
  | none => ∃ a, x = .ok a ∧ P a

section Checks

variable {α β : Type} {x : Except Refusal α} {f : α → Except Refusal β} {o o' : Option Refusal}
  {P P' : α → Prop} {Q : β → Prop} {a : α}

theorem checks_ok (h : P a) : Checks (.ok a) none P := ⟨a, rfl, h⟩

theorem Checks.bind (h : Checks x o P) (hf : ∀ a, P a → Checks (f a) o' Q) :
    Checks (x >>= f) (o.or o') Q := by
  cases o with
  | some r =>
    obtain rfl : x = .error r := h
    exact rfl
  | none =>
    obtain ⟨a, rfl, ha⟩ := h
    exact hf a ha

theorem Checks.last (h : Checks x o P) (hf : ∀ a, P a → Checks (f a) none Q) :
    Checks (x >>= f) o Q := by
  have hbind := h.bind hf
  rwa [Option.or_none] at hbind

/-- A computation that succeeds failed no check. -/
theorem Checks.of_ok (h : Checks x o P) (hx : x = .ok a) : o = none ∧ P a := by
  subst hx
  cases o with
  | some r => cases h
  | none =>
    obtain ⟨b, hb, hP⟩ := h
    exact ⟨rfl, Except.ok.inj hb ▸ hP⟩

end Checks

/-- The refusal of a flag, on a condition. -/
def refusal (k : OptionKey) (c : Bool) : Option Refusal := if c then some (.flag k) else none

theorem checks_refuse (k : OptionKey) (c : Bool) : Checks (refuse k c)
    (refusal k c) fun _ ↦ True := by
  cases c with
  | true => exact rfl
  | false => exact ⟨(), rfl, trivial⟩

/-! ### The flags that are read -/

section Flags

variable (opts : Reading)

/-- The flags, where every option is accepted. -/
def flagsOf : Flags where
  vpn := (opts.get .androidVpn).isSome
  fastOpen := (opts.get .fastOpen).isSome
  localAddr := (opts.get (if (opts.get .server).isSome then .remoteAddr else .localAddr)).getD
    "127.0.0.1".toList
  localPort := (opts.get (if (opts.get .server).isSome then .remotePort else .localPort)).getD
    "1984".toList
  remoteAddr := (opts.get (if (opts.get .server).isSome then .localAddr else .remoteAddr)).getD
    "127.0.0.1".toList
  remotePort := (opts.get (if (opts.get .server).isSome then .localPort else .remotePort)).getD
    "1080".toList
  path := (opts.get .path).getD "/".toList
  host := (opts.get .host).getD "cloudfront.com".toList
  tlsEnabled := (opts.get .tls).isSome
  cert := (opts.get .cert).getD []
  certRaw := (opts.get .certRaw).getD []
  key := (opts.get .key).getD []
  mode := (opts.get .mode).getD "websocket".toList
  mux := ((opts.get .mux).bind readInt64).getD 1
  server := (opts.get .server).isSome
  logLevel := (opts.get .loglevel).getD []
  fwmark := ((opts.get .fwmark).bind readInt64).getD 0
  echMode := (opts.get .ech).getD "auto".toList
  echDoh := (opts.get .echDoh).getD []
  tcpKeepAlive := ((opts.get .tcpKeepalive).bind readInt64).getD 15

variable {opts} {k : OptionKey}

theorem checks_int (d : Int) :
    Checks (parseIntOption opts k d) (refusal k ((opts.get k).any isNoInteger))
      (· = ((opts.get k).bind readInt64).getD d) := by
  unfold parseIntOption atoi
  cases opts.get k with
  | none => exact checks_ok rfl
  | some c =>
    cases hc : readInt64 c with
    | none => simp [Checks, refusal, isNoInteger, hc]
    | some i => simp [Checks, refusal, isNoInteger, hc]

theorem checks_bool :
    Checks (parseBoolOption opts k false) (refusal k ((opts.get k).any (· ≠ ['1'])))
      (· = (opts.get k).isSome) := by
  unfold parseBoolOption
  cases opts.get k with
  | none => exact checks_ok rfl
  | some c =>
    by_cases hc : c = ['1']
    · simp [Checks, refusal, hc]
    · simp [Checks, refusal, hc]

theorem checks_enum (d : List Char) : Checks (parseEnumOption opts k allowedEchModes d)
      (refusal k ((opts.get k).any (· ∉ allowedEchModes))) (· = (opts.get k).getD d) := by
  unfold parseEnumOption
  cases opts.get k with
  | none => exact checks_ok rfl
  | some c =>
    by_cases hc : c ∈ allowedEchModes
    · simp [Checks, refusal, hc]
    · simp [Checks, refusal, hc]

theorem checks_url : Checks (parseURLOption opts k [])
      (refusal k ((opts.get k).any fun c ↦ c ≠ [] && !isHttpsUrl c))
      (· = (opts.get k).getD []) := by
  unfold parseURLOption
  cases opts.get k with
  | none => exact checks_ok rfl
  | some c =>
    by_cases hnil : c = []
    · simp [Checks, refusal, hnil]
    · cases hc : isHttpsUrl c with
      | true => simp [Checks, refusal, hc, hnil]
      | false => simp [Checks, refusal, hc, hnil]

theorem checks_string (d : List Char) :
    Checks (parseStringOption opts k d false) (refusal k ((opts.get k).any (· = [])))
      (· = (opts.get k).getD d) := by
  unfold parseStringOption
  cases opts.get k with
  | none => exact checks_ok rfl
  | some c =>
    by_cases hnil : c = []
    · simp [Checks, refusal, hnil]
    · simp [Checks, refusal, hnil]

theorem checks_emptyOK (d : List Char) :
    Checks (parseStringOption opts k d true) none (· = (opts.get k).getD d) := by
  unfold parseStringOption
  cases opts.get k with
  | none => exact checks_ok rfl
  | some c => simp [Checks]

/-- What `parseOptsIntoFlags` refuses. -/
def refusedParse (opts : Reading) : Option Refusal :=
  (refusal .mux ((opts.get .mux).any isNoInteger)).or <|
  (refusal .tcpKeepalive ((opts.get .tcpKeepalive).any isNoInteger)).or <|
  (refusal .tls ((opts.get .tls).any (· ≠ ['1']))).or <|
  (refusal .host ((opts.get .host).any (· = []))).or <|
  (refusal .path ((opts.get .path).any (· = []))).or <|
  (refusal .loglevel ((opts.get .loglevel).any (· = []))).or <|
  (refusal .server ((opts.get .server).any (· ≠ ['1']))).or <|
  (refusal .fastOpen ((opts.get .fastOpen).any (· ≠ ['1']))).or <|
  (refusal .androidVpn ((opts.get .androidVpn).any (· ≠ ['1']))).or <|
  (refusal .fwmark ((opts.get .fwmark).any isNoInteger)).or <|
  (refusal .ech ((opts.get .ech).any (· ∉ allowedEchModes))).or <|
  refusal .echDoh ((opts.get .echDoh).any fun c ↦ c ≠ [] && !isHttpsUrl c)

theorem checks_parse : Checks (parseOptsIntoFlags opts {}) (refusedParse opts)
    (· = flagsOf opts) := by
  refine (checks_int _).bind fun mux hmux ↦ ?_
  refine (checks_int _).bind fun keepAlive hkeepAlive ↦ ?_
  refine checks_bool.bind fun tls htls ↦ ?_
  refine (checks_string _).bind fun host hhost ↦ ?_
  refine (checks_string _).bind fun path hpath ↦ ?_
  refine (Checks.bind (o := none) (checks_emptyOK _) fun cert hcert ↦ ?_)
  refine (Checks.bind (o := none) (checks_emptyOK _) fun certRaw hcertRaw ↦ ?_)
  refine (Checks.bind (o := none) (checks_emptyOK _) fun key hkey ↦ ?_)
  refine (checks_string _).bind fun logLevel hlogLevel ↦ ?_
  refine checks_bool.bind fun server hserver ↦ ?_
  refine checks_bool.bind fun fastOpen hfastOpen ↦ ?_
  refine checks_bool.bind fun vpn hvpn ↦ ?_
  refine (checks_int _).bind fun fwmark hfwmark ↦ ?_
  refine (checks_enum _).bind fun echMode hechMode ↦ ?_
  refine checks_url.last fun echDoh hechDoh ↦ checks_ok ?_
  subst hmux hkeepAlive htls hhost hpath hcert hcertRaw hkey hlogLevel hserver hfastOpen hvpn
    hfwmark hechMode hechDoh
  rfl

end Flags

/-! ### The configuration that is built -/

theorem any_exRayParsesAsUint32 (s : List Char) :
    (exRayParsesAsUint32 s).any (fun p ↦ p ≠ 0 && p ≤ 65535) = (validPort s).any (· ≠ 0) := by
  unfold exRayParsesAsUint32 validPort
  by_cases hnil : s = []
  · simp [hnil, readNat]
  · by_cases hdigits : s.all Char.isDigit = true
    · have hplus : '+' ∉ s := fun hmem ↦ by
        have hdigit := List.all_eq_true.1 hdigits '+' hmem
        exact absurd hdigit (by decide)
      rw [hdigits, if_pos rfl, readUnsigned, dropPlus_of_not_mem hplus]
      cases readNat 10 s with
      | none => simp
      | some n =>
        by_cases hn : n ≤ 65535
        · have hlt : n < 4294967296 := by omega
          simp [hnil, hn, hlt]
        · by_cases hlt : n < 4294967296
          · simp [hnil, hn, hlt]
          · simp [hnil, hn, hlt]
    · simp [hnil, hdigits]

theorem isNoPort_eq (s : List Char) : isNoPort s = !(validPort s).any (· ≠ 0) := by
  rw [isNoPort, any_exRayParsesAsUint32]

theorem checks_port (k : OptionKey) (s : List Char) :
    Checks (checkPort k s) (refusal k (isNoPort s)) fun p ↦ validPort s = some p ∧ p ≠ 0 := by
  rw [isNoPort_eq]
  unfold checkPort
  cases hport : validPort s with
  | none => exact rfl
  | some p =>
    by_cases hp : p = 0
    · simp [Checks, refusal, hp]
    · simp [Checks, refusal, hp]

theorem checks_localAddr (s : List Char) :
    Checks (checkLocalAddr s) (refusal .localAddr (exRayLocalAddrIsInvalid s))
      (canonicalLocalAddr s = some ·) := by
  unfold checkLocalAddr canonicalLocalAddr exRayLocalAddrIsInvalid v2rayCoreParsesAsAnIp
    v2rayCoreNormalize parseAddress
  by_cases hbar : '|' ∈ s
  · simp [Checks, refusal, hbar]
  · cases hip : IpAddr.fromStr (trimUnlessAlphanumeric (unbracket s)) with
    | none => simp [Checks, refusal, hbar, hip]
    | some ip => simp [Checks, refusal, hbar, hip]

theorem checks_remoteAddr (s : List Char) :
    Checks (checkRemoteAddr s) (refusal .remoteAddr (exRayRemoteAddrIsInvalid s))
      (· = parseAddress s) := by
  unfold checkRemoteAddr exRayRemoteAddrIsInvalid v2rayCoreNormalize parseAddress
  generalize trimUnlessAlphanumeric (unbracket s) = name
  cases hip : IpAddr.fromStr name with
  | none =>
    by_cases hnil : name = []
    · subst hnil
      simp [Checks, refusal, hip]
    · simp [Checks, refusal, hnil, hip]
  | some ip =>
    cases hspec : ip.toCanonical.isUnspecified with
    | true => simp [Checks, refusal, hspec, hip]
    | false => simp [Checks, refusal, hspec, hip]

theorem checks_uint32 (k : OptionKey) (v : Int) :
    Checks (uint32Opt k v) (refusal k (!decide (0 ≤ v ∧ v ≤ 2 ^ 32 - 1))) (· = v.toNat) := by
  unfold uint32Opt
  by_cases hv : 0 ≤ v ∧ v ≤ 2 ^ 32 - 1
  · rw [if_pos hv, decide_eq_true hv]
    exact checks_ok rfl
  · rw [if_neg hv, decide_eq_false hv]
    exact rfl

/-- Whether TLS is on, of a mode that is known. -/
def Flags.tlsOn (f : Flags) : Bool := f.tlsEnabled || f.mode = "quic".toList

def knownModes : List (List Char) := ["websocket".toList, "quic".toList]

theorem checks_modeTls (f : Flags) :
    Checks (modeTls f) (refusal .mode (f.mode ∉ knownModes)) (· = f.tlsOn) := by
  have hne : "websocket".toList ≠ "quic".toList := by decide
  unfold modeTls knownModes Flags.tlsOn
  by_cases hws : f.mode = "websocket".toList
  · rw [if_pos hws, decide_eq_false (not_not_intro (hws ▸ List.mem_cons_self))]
    refine checks_ok ?_
    rw [decide_eq_false (hws ▸ hne), Bool.or_false]
  · rw [if_neg hws]
    by_cases hquic : f.mode = "quic".toList
    · rw [if_pos hquic,
        decide_eq_false (not_not_intro (hquic ▸ .tail _ (.head _)))]
      refine checks_ok ?_
      rw [decide_eq_true hquic, Bool.or_true]
    · have hnot : f.mode ∉ ["websocket".toList, "quic".toList] := by
        intro hmem
        obtain h | hmem := List.mem_cons.1 hmem
        · exact hws h
        · exact hquic (List.mem_singleton.1 hmem)
      rw [if_neg hquic, decide_eq_true hnot]
      exact rfl

/-- The TLS settings of flags that are accepted. -/
def Flags.tlsConfig (f : Flags) : Option TlsConfig :=
  if f.tlsOn then
    some ⟨f.host, if f.echMode = "never".toList then [] else f.echDoh,
      f.echMode = "always".toList && f.echDoh ≠ []⟩
  else none

/-- What `buildTLSConfig` refuses, where TLS is on. -/
def refusedTls (certs : Flags → Bool) (f : Flags) : Option Refusal :=
  if f.tlsOn then
    (if f.readsCertificate && !certs f then some .certificate else none).or <|
    (refusal .ech (f.echMode ∉ allowedEchModes)).or <|
    refusal .echDoh (f.echMode = "always".toList && f.echDoh = [])
  else none

theorem checks_tlsSettings (certs : Flags → Bool) (f : Flags) :
    Checks (tlsSettings certs f f.tlsOn) (refusedTls certs f) (· = f.tlsConfig) := by
  have hne : "never".toList ≠ "always".toList := by decide
  unfold tlsSettings refusedTls Flags.tlsConfig
  cases f.tlsOn with
  | false => exact checks_ok rfl
  | true =>
    rw [if_pos rfl, if_pos rfl, if_pos rfl]
    unfold buildTLSConfig
    cases f.readsCertificate && !certs f with
    | true => exact rfl
    | false =>
      rw [if_neg Bool.false_ne_true, if_neg Bool.false_ne_true, Option.none_or]
      by_cases hmode : f.echMode ∈ allowedEchModes
      · rw [if_neg (not_not_intro hmode), decide_eq_false (not_not_intro hmode)]
        show Checks _ (refusal .echDoh _) _
        by_cases hnever : f.echMode = "never".toList
        · rw [if_pos hnever, if_pos hnever, decide_eq_false (hnever ▸ hne)]
          exact checks_ok rfl
        · rw [if_neg hnever, if_neg hnever]
          by_cases hdoh : f.echDoh = []
          · rw [if_neg (not_not_intro hdoh), decide_eq_true hdoh, Bool.and_true]
            by_cases halways : f.echMode = "always".toList
            · rw [if_pos halways, decide_eq_true halways]
              exact rfl
            · rw [if_neg halways, decide_eq_false halways]
              refine checks_ok ?_
              rw [hdoh]
              rfl
          · rw [if_pos hdoh, decide_eq_false hdoh, Bool.and_false, decide_eq_true hdoh,
              Bool.and_true]
            exact checks_ok rfl
      · rw [if_pos hmode, decide_eq_true hmode]
        exact rfl

/-- A configuration that the flags give. -/
structure BuiltFrom (f : Flags) (config : Config) : Prop where
  server : config.server = f.server
  mode : config.mode = f.mode
  listen : canonicalLocalAddr f.localAddr = some config.listen
  listenPort : validPort f.localPort = some config.listenPort
  remote : config.remote = parseAddress f.remoteAddr
  remotePort : validPort f.remotePort = some config.remotePort
  tls : config.tls = f.tlsConfig
  multiplex : config.multiplex =
    if !f.server && (f.mode = "websocket".toList && f.mux ≠ 0) then some f.mux.toNat else none

/-- What `generateConfig` refuses. -/
def refusedGenerate (certs : Flags → Bool) (f : Flags) : Option Refusal :=
  (refusal .localPort (isNoPort f.localPort)).or <|
  (refusal .localAddr (exRayLocalAddrIsInvalid f.localAddr)).or <|
  (refusal .remotePort (isNoPort f.remotePort)).or <|
  (refusal .remoteAddr (exRayRemoteAddrIsInvalid f.remoteAddr)).or <|
  (refusal .mux (!decide (0 ≤ f.mux ∧ f.mux ≤ 2 ^ 32 - 1))).or <|
  (refusal .fwmark (!decide (0 ≤ f.fwmark ∧ f.fwmark ≤ 2 ^ 32 - 1))).or <|
  (refusal .mode (f.mode ∉ knownModes)).or <|
  (refusal .ech (f.echMode ∉ allowedEchModes)).or <|
  (refusal .ech (f.echMode = "always".toList && !f.tlsOn)).or <|
  (refusal .cert (!f.tlsOn && (f.cert ≠ [] || f.certRaw ≠ [] || f.key ≠ []))).or <|
  (refusal .tcpKeepalive (f.tcpKeepAlive < 0 || f.tcpKeepAlive > 32767)).or <|
  (refusedTls certs f).or <|
  refusal .loglevel (f.logLevel.map lowerASCII ∉ logLevels)

theorem checks_generate (certs : Flags → Bool) (f : Flags) :
    Checks (generateConfig certs f) (refusedGenerate certs f) (BuiltFrom f) := by
  refine (checks_port _ _).bind fun listenPort hlistenPort ↦ ?_
  refine (checks_localAddr _).bind fun listen hlisten ↦ ?_
  refine (checks_port _ _).bind fun remotePort hremotePort ↦ ?_
  refine (checks_remoteAddr _).bind fun remote hremote ↦ ?_
  refine (checks_uint32 _ _).bind fun mux hmux ↦ ?_
  refine (checks_uint32 _ _).bind fun _ _ ↦ ?_
  refine (checks_modeTls f).bind fun tlsOn htlsOn ↦ ?_
  subst htlsOn
  refine (checks_refuse _ _).bind fun _ _ ↦ ?_
  refine (checks_refuse _ _).bind fun _ _ ↦ ?_
  refine (checks_refuse _ _).bind fun _ _ ↦ ?_
  refine (checks_refuse _ _).bind fun _ _ ↦ ?_
  refine (checks_tlsSettings certs f).bind fun tls htls ↦ ?_
  refine (checks_refuse _ _).last fun _ _ ↦ checks_ok ?_
  exact ⟨rfl, rfl, hlisten, hlistenPort.1, hremote, hremotePort.1, htls, by rw [hmux]⟩

/-! ### The start -/

/-- What `core.New` refuses of the configuration that the flags give. -/
def refusedCore (f : Flags) : Option Refusal :=
  refusal .mux (!f.server && (f.mode = "websocket".toList && f.mux ≠ 0) &&
    (f.mux.toNat < 1 || f.mux.toNat > 1024))

theorem checks_core {f : Flags} {config : Config} (h : BuiltFrom f config) :
    Checks (coreNew config) (refusedCore f) fun _ ↦ True := by
  unfold coreNew refusedCore
  rw [h.multiplex]
  cases !f.server && (f.mode = "websocket".toList && f.mux ≠ 0) with
  | true => exact checks_refuse _ _
  | false => exact checks_refuse _ _

/-- What ex-ray refuses, of flags that are read. -/
def refusedFlags (certs : Flags → Bool) (f : Flags) : Option Refusal := (if f.server then none
    else refusal .tcpKeepalive (f.tcpKeepAlive < 0 || f.tcpKeepAlive > 32767)).or <|
  (refusal .localPort (isNoPort f.localPort)).or <|
  (refusal .localAddr (exRayLocalAddrIsInvalid f.localAddr)).or <|
  (refusedGenerate certs f).or (refusedCore f)

/-- **The checks of a start**, and what it builds where it passes them. -/
theorem checks_startWith (certs : Flags → Bool) (opts : Reading) :
    Checks (startWith certs opts) ((refusedParse opts).or (refusedFlags certs (flagsOf opts)))
      (BuiltFrom (flagsOf opts)) := by
  refine checks_parse.bind fun f hf ↦ ?_
  subst hf
  have hregister : Checks (registerTCPKeepAlive (flagsOf opts)) (if (flagsOf opts).server then none
        else refusal .tcpKeepalive
          ((flagsOf opts).tcpKeepAlive < 0 || (flagsOf opts).tcpKeepAlive > 32767))
      fun _ ↦ True := by
    unfold registerTCPKeepAlive
    cases (flagsOf opts).server with
    | true => exact checks_ok trivial
    | false => exact checks_refuse _ _
  refine hregister.bind fun _ _ ↦ ?_
  refine (checks_port _ _).bind fun _ _ ↦ ?_
  refine (checks_localAddr _).bind fun _ _ ↦ ?_
  refine (checks_generate certs _).bind fun config hconfig ↦ ?_
  exact (checks_core hconfig).last fun _ _ ↦ checks_ok hconfig

end Hole.Plugin
