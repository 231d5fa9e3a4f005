import Hole.Plugin.ExRay

/-!
# The directives of Hole

Hole offers ex-ray a resolver for its ECH lookup, and predicts what ex-ray does with the options it
is given: whether it refuses to start (`exRayFatalConfigError`), whether it asks for the ECH
configuration at all (`echFetchIsReachable`), and whose `ech-doh` it uses (`effectiveEchDoh`). The
cover of a start permits an address on the strength of that prediction; the plugin is started with
what `injectPluginDirectives` makes of the options.

Whether the authority of a URL is a name is judged by the parser of the `url` crate, of which only
the host matters: the parameter `hostStr` is `Url::parse(v).ok().and_then(host_str)`.
-/

namespace Hole.Plugin

open Text

/-! ### The offer -/

/-- Which resolver the lookup is pinned to, or why it is not pinned. -/
inductive PinSource
  | answered (ip : IpAddr)
  | noQueryNeeded
  | secureBootstrapFailed
  | resolverDeselected

def PinSource.verifiedIp : PinSource → Option IpAddr
  | answered ip => some ip
  | _ => none

/-- `doh_url_for_ip`: a v6 address is bracketed. -/
def dohUrlForIp : IpAddr → List Char
  | .v4 b => "https://".toList ++ (IpAddr.v4 b).display.toList ++ "/dns-query".toList
  | .v6 b => "https://[".toList ++ (IpAddr.v6 b).display.toList ++ "]/dns-query".toList

/-- The `ech-doh` that Hole offers. Its URL is the one of the resolver. -/
structure EchDoh where
  url : List Char
  resolver : IpAddr
  source : PinSource
  url_eq : url = dohUrlForIp resolver

def EchDoh.isPinned (e : EchDoh) : Bool := e.source.verifiedIp.isSome

section Prediction

variable (hostStr : List Char → Option (List Char))

/-- `authority_is_a_name`: whatever is not demonstrably an IP literal. -/
def authorityIsAName (url : List Char) : Bool :=
  match hostStr url with
  | some host =>
    (IpAddr.fromStr (((host.dropWhile (· = '[')).reverse.dropWhile (· = ']')).reverse)).isNone
  | none => true

def takesEchDirectives (pluginName : String) : Bool :=
  pluginName ∈ ["v2ray-plugin", "ex-ray", "galoshes"]

def holeEchDohOutranks (echDoh : EchDoh) (configValue : List Char) : Bool :=
  echDoh.isPinned || authorityIsAName hostStr configValue

/-- Which `ech-doh` reaches ex-ray and is used by it. -/
inductive EffectiveEchDoh
  | none
  | holes
  | operators (value : List Char)
  deriving DecidableEq

/-! ### Reading the segments -/

def exRayFlagValue (s : OptionSegment) : List Char := if s.hasValue then s.value else ['1']

/-- The value of the first segment with a key. -/
def flagValue (segments : List OptionSegment) (k : OptionKey) : Option (List Char) :=
  (segments.find? (·.key = k.text)).map exRayFlagValue

/-- Whether any segment has a key. -/
def hasFlag (segments : List OptionSegment) (k : OptionKey) : Bool := segments.any (·.key = k.text)

def echDohDisplaces (segments : List OptionSegment) (echDoh : Option EchDoh) : Bool :=
  match echDoh, flagValue segments .echDoh with
  | some e, some value => holeEchDohOutranks hostStr e value
  | _, _ => false

def resolvedEchDohIsEmpty (segments : List OptionSegment) (echDoh : Option EchDoh) : Bool :=
  if echDoh.isSome &&
      ((flagValue segments .echDoh).isNone || echDohDisplaces hostStr segments echDoh) then false
  else (flagValue segments .echDoh).all (· = [])

/-! ### Values that ex-ray refuses -/

/-- `v.parse::<i64>().is_err()`. -/
def isNoInteger (v : List Char) : Bool := (readInt64 v).isNone

/-- `!v.parse::<i64>().is_ok_and(|v| (lo..=hi).contains(&v))`. -/
def isOutOfRange (lo hi : Int) (v : List Char) : Bool := !(readInt64 v).any fun n ↦ lo ≤ n ∧ n ≤ hi

/-- `ex_ray_parses_as_uint32`: Rust's own parser would allow a sign. -/
def exRayParsesAsUint32 (v : List Char) : Option Nat :=
  if v = [] || !v.all Char.isDigit then none else readUnsigned (2 ^ 32) v

def isNoPort (v : List Char) : Bool := !(exRayParsesAsUint32 v).any fun p ↦ p ≠ 0 && p ≤ 65535

def v2rayCoreNormalize (value : List Char) : List Char := trimUnlessAlphanumeric (unbracket value)

def v2rayCoreParsesAsADomain (value : List Char) : Bool :=
  v2rayCoreNormalize value ≠ [] && (IpAddr.fromStr (v2rayCoreNormalize value)).isNone

def v2rayCoreParsesAsAnIp (value : List Char) : Bool :=
  (IpAddr.fromStr (v2rayCoreNormalize value)).isSome

def exRayLocalAddrIsInvalid (value : List Char) : Bool :=
  '|' ∈ value || !v2rayCoreParsesAsAnIp value

def exRayRemoteAddrIsInvalid (value : List Char) : Bool :=
  match IpAddr.fromStr (v2rayCoreNormalize value) with
  | some ip => ip.toCanonical.isUnspecified
  | none => v2rayCoreNormalize value = []

/-- `ex_ray_value_is_https_url`: the scheme, and an authority that is not empty. -/
def exRayValueIsHttpsUrl (v : List Char) : Bool :=
  (v.take 8).map Char.toLower = "https://".toList &&
    (v.drop 8).takeWhile (fun c ↦ c ∉ ['/', '?', '#']) ≠ []

/-! ### The prediction -/

/-- The first segment of a key has a value that is refused. -/
def fails (segments : List OptionSegment) (k : OptionKey) (bad : List Char → Bool) :
    Option OptionKey :=
  if (flagValue segments k).any bad then some k else none

/-- Whether TLS is on. -/
def tlsIsEnabled (segments : List OptionSegment) : Bool :=
  hasFlag segments .tls || flagValue segments .mode = some "quic".toList

/-- The checks of `parseOptsIntoFlags`. -/
def fatalParse (segments : List OptionSegment) (echDoh : Option EchDoh) : Option OptionKey :=
  (fails segments .mux isNoInteger).or <|
  (fails segments .tcpKeepalive isNoInteger).or <|
  (fails segments .tls (· ≠ ['1'])).or <|
  (fails segments .host (· = [])).or <|
  (fails segments .path (· = [])).or <|
  (fails segments .server (· ≠ ['1'])).or <|
  (fails segments .fastOpen (· ≠ ['1'])).or <|
  (fails segments .androidVpn (· ≠ ['1'])).or <|
  (fails segments .fwmark isNoInteger).or <|
  (fails segments .ech (· ∉ ["never".toList, "auto".toList, "always".toList])).or <|
  fails segments .echDoh fun v ↦
    v ≠ [] && !echDohDisplaces hostStr segments echDoh && !exRayValueIsHttpsUrl v

/-- The checks of `main` before the configuration is built. -/
def fatalLocal (segments : List OptionSegment) : Option OptionKey :=
  (if hasFlag segments .server then none
    else fails segments .tcpKeepalive (isOutOfRange 0 32767)).or <|
  (fails segments .localPort isNoPort).or <|
  fails segments (if hasFlag segments .server then .remoteAddr else .localAddr)
    exRayLocalAddrIsInvalid

/-- The checks of `generateConfig`. -/
def fatalGenerate (segments : List OptionSegment) (echDoh : Option EchDoh) : Option OptionKey :=
  (fails segments .remotePort isNoPort).or <|
  (fails segments (if hasFlag segments .server then .localAddr else .remoteAddr)
    exRayRemoteAddrIsInvalid).or <|
  (fails segments .mux (isOutOfRange 0 (2 ^ 32 - 1))).or <|
  (fails segments .fwmark (isOutOfRange 0 (2 ^ 32 - 1))).or <|
  (fails segments .mode (· ∉ ["websocket".toList, "quic".toList])).or <|
  (if flagValue segments .ech = some "always".toList && !tlsIsEnabled segments then some .ech
    else none).or <|
  (if !tlsIsEnabled segments &&
      [OptionKey.cert, .certRaw, .key].any (fun k ↦ (flagValue segments k).any (· ≠ [])) then
    some .cert else none).or <|
  (if hasFlag segments .server then fails segments .tcpKeepalive (isOutOfRange 0 32767)
    else none).or <|
  if flagValue segments .ech = some "always".toList && tlsIsEnabled segments &&
      resolvedEchDohIsEmpty hostStr segments echDoh then some .echDoh else none

/-- The check of `core.New`. -/
def fatalCore (segments : List OptionSegment) : Option OptionKey :=
  if flagValue segments .mode ≠ some "quic".toList && !hasFlag segments .server then
    let mux := ((flagValue segments .mux).bind readInt64).getD 1
    if mux ≠ 0 ∧ ¬(1 ≤ mux ∧ mux ≤ 1024) then some .mux else none
  else none

/-- `ex_ray_fatal_config_error`: the option for which ex-ray refuses to start. -/
def exRayFatalConfigError (segments : List OptionSegment) (echDoh : Option EchDoh) :
    Option OptionKey :=
  (fatalParse hostStr segments echDoh).or <| (fatalLocal segments).or <|
    (fatalGenerate hostStr segments echDoh).or (fatalCore segments)

/-- The server name that Hole expects. -/
def expectedSni (segments : List OptionSegment) : List Char :=
  let sni := stripPrefix exp8357 ((flagValue segments .host).getD "cloudfront.com".toList)
  if sni = [] then (flagValue segments .remoteAddr).getD [] else sni

def echFetchIsReachable (segments : List OptionSegment) (echDoh : Option EchDoh) : Bool :=
  if (exRayFatalConfigError hostStr segments echDoh).isSome then false
  else if flagValue segments .ech = some "never".toList then false
  else tlsIsEnabled segments && v2rayCoreParsesAsADomain (expectedSni segments)

def classifyEchDoh (segments : List OptionSegment) (echDoh : Option EchDoh) :
    EffectiveEchDoh × Bool :=
  let displaces := echDohDisplaces hostStr segments echDoh
  if !echFetchIsReachable hostStr segments echDoh then (.none, displaces)
  else if echDoh.isSome && ((flagValue segments .echDoh).isNone || displaces) then
    (.holes, displaces)
  else
    match (flagValue segments .echDoh).filter (· ≠ []) with
    | some v => (.operators v, displaces)
    | none => (.none, displaces)

def effectiveEchDoh (pluginName : String) (opts : Option (List Char)) (echDoh : Option EchDoh) :
    EffectiveEchDoh :=
  if !takesEchDirectives pluginName then .none
  else
    match splitPluginOptions (opts.getD []) with
    | .error _ => .none
    | .ok segments => (classifyEchDoh hostStr segments echDoh).1

/-! ### The directives -/

/-- The directive that carries Hole's URL. -/
def echDohDirective (e : EchDoh) : List Char := "ech-doh=".toList ++ e.url

/-- The keys that Hole takes over. -/
def ownedKeys (displaces : Bool) : List OptionKey :=
  if displaces then [.loglevel, .echDoh] else [.loglevel]

def injectPluginDirectives (pluginName : String) (opts : Option (List Char))
    (echDoh : Option EchDoh) : Except MalformedOptions (Option (List Char)) :=
  if !takesEchDirectives pluginName then
    match opts with
    | some o => (splitPluginOptions o).map fun _ ↦ some o
    | none => .ok none
  else do
    let segments ← splitPluginOptions (opts.getD [])
    let displaces := (classifyEchDoh hostStr segments echDoh).2
    let kept := segments.filter fun s ↦ s.key ∉ (ownedKeys displaces).map OptionKey.text
    .ok (some (joinPluginOptions
      (kept.map (·.raw) ++ ["loglevel=debug".toList] ++ (echDoh.map echDohDirective).toList)))

end Prediction

end Hole.Plugin
