import Hole.Net.GoUrl
import Hole.Net.SocketAddr
import Hole.Plugin.Options

/-!
# The start of ex-ray

What ex-ray does from its options to the instance it starts: the flags it reads
(`parseOptsIntoFlags`), the checks of `main`, the configuration (`generateConfig`) and what
`core.New` refuses of it. The strings are lists of characters: the options of a text are read as
texts (`parsePluginOptions_utf8`).

`exRay` is the whole of it. A refusal names the flag that was refused; whether the certificate
material is usable is decided by the files of the host, and is the parameter `certs`. `fetches` says
whether an instance asks for the ECH configuration, and of whom.
-/

namespace Hole.Plugin

open Text

/-! ### Options -/

/-- The options that ex-ray knows. -/
inductive OptionKey
  | mode | mux | tcpKeepalive | tls | host | path | cert | certRaw | key | loglevel | server
  | localAddr | localPort | remoteAddr | remotePort | fastOpen | androidVpn | fwmark | ech | echDoh
  deriving DecidableEq

def OptionKey.text : OptionKey → List Char
  | mode => "mode".toList
  | mux => "mux".toList
  | tcpKeepalive => "tcp-keepalive".toList
  | tls => "tls".toList
  | host => "host".toList
  | path => "path".toList
  | cert => "cert".toList
  | certRaw => "certRaw".toList
  | key => "key".toList
  | loglevel => "loglevel".toList
  | server => "server".toList
  | localAddr => "localAddr".toList
  | localPort => "localPort".toList
  | remoteAddr => "remoteAddr".toList
  | remotePort => "remotePort".toList
  | fastOpen => "fastOpen".toList
  | androidVpn => "__android_vpn".toList
  | fwmark => "fwmark".toList
  | ech => "ech".toList
  | echDoh => "ech-doh".toList

/-- The arguments, by characters. -/
abbrev Reading := List (List Char × List Char)

/-- The arguments of a reading. -/
def Reading.args (reading : Reading) : Args := reading.map fun x ↦ (utf8 x.1, utf8 x.2)

/-- The first value of a key. -/
def Reading.get (reading : Reading) (k : OptionKey) : Option (List Char) := reading.lookup k.text

/-- Why ex-ray does not start. -/
inductive Refusal
  | malformed (error : OptionsError)
  | flag (k : OptionKey)
  | certificate
  deriving DecidableEq

/-- The four variables through which a chain hands its addresses over. -/
structure ChainEnv where
  remoteHost : List Char
  remotePort : List Char
  localHost : List Char
  localPort : List Char

/-- `parseEnv` with all four variables set: their values are added after those of the options. -/
def parseEnv (options : Reading) (env : ChainEnv) : Reading :=
  options ++ [(OptionKey.text .remoteAddr, env.remoteHost),
    (OptionKey.text .remotePort, env.remotePort),
    (OptionKey.text .localAddr, env.localHost), (OptionKey.text .localPort, env.localPort)]

/-! ### Flags -/

/-- The flags of the command line. -/
structure Flags where
  vpn : Bool := false
  fastOpen : Bool := false
  localAddr : List Char := "127.0.0.1".toList
  localPort : List Char := "1984".toList
  remoteAddr : List Char := "127.0.0.1".toList
  remotePort : List Char := "1080".toList
  path : List Char := "/".toList
  host : List Char := "cloudfront.com".toList
  tlsEnabled : Bool := false
  cert : List Char := []
  certRaw : List Char := []
  key : List Char := []
  mode : List Char := "websocket".toList
  mux : Int := 1
  server : Bool := false
  logLevel : List Char := []
  fwmark : Int := 0
  echMode : List Char := "auto".toList
  echDoh : List Char := []
  tcpKeepAlive : Int := 15

def allowedEchModes : List (List Char) := ["auto".toList, "always".toList, "never".toList]

/-- Refuse a flag on a condition. -/
def refuse (k : OptionKey) (c : Bool) : Except Refusal Unit :=
  if c then .error (.flag k) else .ok ()

/-- `strconv.Atoi`. -/
def atoi (c : List Char) : Option Int := readInt64 c

def parseIntOption (opts : Reading) (k : OptionKey) (dest : Int) : Except Refusal Int :=
  match opts.get k with
  | none => .ok dest
  | some c =>
    match atoi c with
    | none => .error (.flag k)
    | some i => .ok i

def parseBoolOption (opts : Reading) (k : OptionKey) (dest : Bool) : Except Refusal Bool :=
  match opts.get k with
  | none => .ok dest
  | some c => if c ≠ ['1'] then .error (.flag k) else .ok true

def parseEnumOption (opts : Reading) (k : OptionKey) (allowed : List (List Char))
    (dest : List Char) : Except Refusal (List Char) :=
  match opts.get k with
  | none => .ok dest
  | some c => if c ∈ allowed then .ok c else .error (.flag k)

/-- Whether `parseURLOption` accepts a value that is not empty. -/
def isHttpsUrl (c : List Char) : Bool :=
  match GoUrl.parse c with
  | none => false
  | some u => u.scheme = "https".toList && u.host ≠ []

def parseURLOption (opts : Reading) (k : OptionKey) (dest : List Char) :
    Except Refusal (List Char) :=
  match opts.get k with
  | none => .ok dest
  | some c => if c = [] then .ok [] else if isHttpsUrl c then .ok c else .error (.flag k)

def parseStringOption (opts : Reading) (k : OptionKey) (dest : List Char) (emptyOK : Bool) :
    Except Refusal (List Char) :=
  match opts.get k with
  | none => .ok dest
  | some c => if c = [] && !emptyOK then .error (.flag k) else .ok c

/-- `parseOptsIntoFlags`. In server mode the addresses of the two ends are exchanged. -/
def parseOptsIntoFlags (opts : Reading) (f : Flags) : Except Refusal Flags := do
  let mode := (opts.get .mode).getD f.mode
  let mux ← parseIntOption opts .mux f.mux
  let tcpKeepAlive ← parseIntOption opts .tcpKeepalive f.tcpKeepAlive
  let tlsEnabled ← parseBoolOption opts .tls f.tlsEnabled
  let host ← parseStringOption opts .host f.host false
  let path ← parseStringOption opts .path f.path false
  let cert ← parseStringOption opts .cert f.cert true
  let certRaw ← parseStringOption opts .certRaw f.certRaw true
  let key ← parseStringOption opts .key f.key true
  let logLevel ← parseStringOption opts .loglevel f.logLevel false
  let server ← parseBoolOption opts .server f.server
  let localAddr := (opts.get (if server then .remoteAddr else .localAddr)).getD f.localAddr
  let localPort := (opts.get (if server then .remotePort else .localPort)).getD f.localPort
  let remoteAddr := (opts.get (if server then .localAddr else .remoteAddr)).getD f.remoteAddr
  let remotePort := (opts.get (if server then .localPort else .remotePort)).getD f.remotePort
  let fastOpen ← parseBoolOption opts .fastOpen f.fastOpen
  let vpn ← parseBoolOption opts .androidVpn f.vpn
  let fwmark ← parseIntOption opts .fwmark f.fwmark
  let echMode ← parseEnumOption opts .ech allowedEchModes f.echMode
  let echDoh ← parseURLOption opts .echDoh f.echDoh
  return { vpn, fastOpen, localAddr, localPort, remoteAddr, remotePort, path, host, tlsEnabled,
           cert, certRaw, key, mode, mux, server, logLevel, fwmark, echMode, echDoh, tcpKeepAlive }

/-! ### Addresses -/

/-- `net.Address` of v2ray-core. -/
inductive Address
  | ip (ip : IpAddr)
  | domain (name : List Char)
  deriving DecidableEq

/-- White space of Unicode, as `strings.TrimSpace` and `str::trim` have it. -/
def isWhiteSpace (c : Char) : Bool :=
  (9 ≤ c.toNat && c.toNat ≤ 13) || c.toNat ∈ [0x20, 0x85, 0xa0, 0x1680, 0x2028, 0x2029, 0x202f,
    0x205f, 0x3000] || (0x2000 ≤ c.toNat && c.toNat ≤ 0x200a)

/-- A text without the white space around it. -/
def trimSpace (s : List Char) : List Char :=
  ((s.dropWhile isWhiteSpace).reverse.dropWhile isWhiteSpace).reverse

/-- A text without one pair of brackets around it. -/
def unbracket (s : List Char) : List Char :=
  if s.head? = some '[' ∧ s.getLast? = some ']' then s.tail.dropLast else s

/-- A text without white space around it, if it begins or ends with something else than a letter or
a digit. -/
def trimUnlessAlphanumeric (s : List Char) : List Char :=
  if s.head?.any (!·.isAlphanum) || s.getLast?.any (!·.isAlphanum) then trimSpace s else s

/-- `net.ParseAddress` of v2ray-core. A v4-mapped address is folded. -/
def parseAddress (addr : List Char) : Address :=
  let addr := trimUnlessAlphanumeric (unbracket addr)
  match IpAddr.fromStr addr with
  | some ip => .ip ip.toCanonical
  | none => .domain addr

/-- `canonicalLocalAddr`: a single IP literal. -/
def canonicalLocalAddr (s : List Char) : Option IpAddr :=
  if '|' ∈ s then none
  else
    match parseAddress s with
    | .ip ip => some ip
    | .domain _ => none

/-- `validPort`: `net.PortFromString`. -/
def validPort (s : List Char) : Option Nat :=
  if s.all Char.isDigit then (readNat 10 s).filter (· ≤ 65535) else none

/-! ### The configuration -/

/-- What `buildTLSConfig` sets, less the certificates. -/
structure TlsConfig where
  serverName : List Char
  echDohServer : List Char
  requireEch : Bool

/-- What `generateConfig` builds. -/
structure Config where
  server : Bool
  mode : List Char
  listen : IpAddr
  listenPort : Nat
  remote : Address
  remotePort : Nat
  /-- The concurrency of the multiplexed sender. -/
  multiplex : Option Nat
  tls : Option TlsConfig

/-- A port that is valid and not zero. -/
def checkPort (k : OptionKey) (s : List Char) : Except Refusal Nat :=
  match validPort s with
  | none => .error (.flag k)
  | some port => if port = 0 then .error (.flag k) else .ok port

def checkLocalAddr (s : List Char) : Except Refusal IpAddr :=
  match canonicalLocalAddr s with
  | none => .error (.flag .localAddr)
  | some ip => .ok ip

/-- An address that is neither empty nor unspecified. -/
def checkRemoteAddr (s : List Char) : Except Refusal Address :=
  match parseAddress s with
  | .ip ip => if ip.isUnspecified then .error (.flag .remoteAddr) else .ok (.ip ip)
  | .domain name => if name = [] then .error (.flag .remoteAddr) else .ok (.domain name)

def uint32Opt (k : OptionKey) (v : Int) : Except Refusal Nat :=
  if 0 ≤ v ∧ v ≤ 2 ^ 32 - 1 then .ok v.toNat else .error (.flag k)

def tcpKeepAliveParams (v : Int) : Except Refusal Unit := refuse .tcpKeepalive (v < 0 || v > 32767)

def registerTCPKeepAlive (f : Flags) : Except Refusal Unit :=
  if f.server then .ok () else tcpKeepAliveParams f.tcpKeepAlive

/-- Whether TLS is on after the mode is read: `quic` forces it. -/
def modeTls (f : Flags) : Except Refusal Bool :=
  if f.mode = "websocket".toList then .ok f.tlsEnabled
  else if f.mode = "quic".toList then .ok true
  else .error (.flag .mode)

/-- Whether certificate material is read at all. -/
def Flags.readsCertificate (f : Flags) : Bool := f.server || f.cert ≠ [] || f.certRaw ≠ []

def buildTLSConfig (certs : Flags → Bool) (f : Flags) : Except Refusal TlsConfig :=
  if f.readsCertificate && !certs f then .error .certificate
  else if f.echMode ∉ allowedEchModes then .error (.flag .ech)
  else if f.echMode = "never".toList then .ok ⟨f.host, [], false⟩
  else if f.echDoh ≠ [] then .ok ⟨f.host, f.echDoh, f.echMode = "always".toList⟩
  else if f.echMode = "always".toList then .error (.flag .echDoh)
  else .ok ⟨f.host, [], false⟩

/-- The TLS settings, where TLS is on. -/
def tlsSettings (certs : Flags → Bool) (f : Flags) (tls : Bool) :
    Except Refusal (Option TlsConfig) :=
  if tls then (buildTLSConfig certs f).map some else .ok none

/-- `strings.ToLower` as far as ASCII is concerned: two characters above it have a lower case in
it. -/
def lowerASCII (c : Char) : Char :=
  if c.toNat = 0x130 then 'i' else if c.toNat = 0x212a then 'k' else c.toLower

def logLevels : List (List Char) :=
  [[], "warning".toList, "debug".toList, "info".toList, "error".toList, "none".toList]

def generateConfig (certs : Flags → Bool) (f : Flags) : Except Refusal Config := do
  let listenPort ← checkPort .localPort f.localPort
  let listen ← checkLocalAddr f.localAddr
  let remotePort ← checkPort .remotePort f.remotePort
  let remote ← checkRemoteAddr f.remoteAddr
  let muxU32 ← uint32Opt .mux f.mux
  let _ ← uint32Opt .fwmark f.fwmark
  let tlsEnabled ← modeTls f
  refuse .ech (f.echMode ∉ allowedEchModes)
  refuse .ech (f.echMode = "always".toList && !tlsEnabled)
  refuse .cert (!tlsEnabled && (f.cert ≠ [] || f.certRaw ≠ [] || f.key ≠ []))
  tcpKeepAliveParams f.tcpKeepAlive
  let tls ← tlsSettings certs f tlsEnabled
  refuse .loglevel (f.logLevel.map lowerASCII ∉ logLevels)
  let reuses := f.mode = "websocket".toList && f.mux ≠ 0
  return { server := f.server, mode := f.mode, listen, listenPort, remote, remotePort,
           multiplex := if !f.server && reuses then some muxU32 else none, tls }

/-- What `core.New` refuses: a concurrency out of range. -/
def coreNew (config : Config) : Except Refusal Unit :=
  refuse .mux (config.multiplex.any fun n ↦ n < 1 || n > 1024)

/-- `main`, from the arguments to the instance. -/
def startWith (certs : Flags → Bool) (opts : Reading) : Except Refusal Config := do
  let f ← parseOptsIntoFlags opts {}
  registerTCPKeepAlive f
  let _ ← checkPort .localPort f.localPort
  let _ ← checkLocalAddr f.localAddr
  let config ← generateConfig certs f
  coreNew config
  return config

/-- The arguments of a text, by characters. -/
def Args.reading (args : Args) : Reading := args.map fun x ↦ (fromUtf8 x.1, fromUtf8 x.2)

/-- The arguments of a process, from the text of its options and the variables of a chain. -/
def exRayOpts (env : ChainEnv) (options : List Char) : Except Refusal Reading :=
  match parsePluginOptions (utf8 options) with
  | .error e => .error (.malformed e)
  | .ok args => .ok (parseEnv args.reading env)

/-- ex-ray, from the text of its options and the variables of a chain to the instance. -/
def exRay (certs : Flags → Bool) (env : ChainEnv) (options : List Char) :
    Except Refusal Config := do
  startWith certs (← exRayOpts env options)

/-- The address of the `ready` event: `localListenAddr` of `main`. -/
def readyAddr (env : ChainEnv) (options : List Char) : Except Refusal (List Char) := do
  let f ← parseOptsIntoFlags (← exRayOpts env options) {}
  let canonicalAddr ← checkLocalAddr f.localAddr
  return SocketAddr.joinHostPort canonicalAddr.display.toList f.localPort

/-! ### The ECH fetch -/

/-- The prefix that `parseServerName` strips. -/
def exp8357 : List Char := "experiment:8357".toList

/-- The text after a prefix, the whole if it is not one. -/
def stripPrefix (pre s : List Char) : List Char := if pre.isPrefixOf s then s.drop pre.length else s

/-- The server name that `GetTLSConfig` arrives at. A client dials with the destination as an
option, which fills a name that is empty. -/
def Config.serverName (config : Config) (tls : TlsConfig) : List Char :=
  let name := stripPrefix exp8357 tls.serverName
  if name ≠ [] || config.server then name
  else
    match config.remote with
    | .ip ip => ip.display.toList
    | .domain name => name

/-- `echCacheDomain`: the domain that is asked for. -/
def echCacheDomain (serverName : List Char) : List Char :=
  match parseAddress serverName with
  | .ip _ => []
  | .domain name => name

/-- The resolver that an instance asks for the ECH configuration, if it asks. -/
def Config.fetches (config : Config) : Option (List Char) :=
  match config.tls with
  | none => none
  | some tls =>
    if tls.echDohServer = [] || echCacheDomain (config.serverName tls) = [] then none
    else some tls.echDohServer

end Hole.Plugin
