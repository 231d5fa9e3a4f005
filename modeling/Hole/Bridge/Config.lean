import Hole.Gui.AppConfig

/-!
# Proxy configurations and the ECH resolver

What a start reads of its configuration (`hole_common::protocol::ProxyConfig`), and the pin that
remembers which resolver answered the DoH bootstrap (`bridge/src/dns/ech.rs`). A covered retry
reuses a pin without resolving again, so `revalidate` checks it against the resolvers configured
now; it only ever **downgrades**, which is why a start must not store its result back.

The address the transient cover permits is the one Hole's own `ech-doh` URL names, and only where
that URL is the one the plugin will dial. Which of the two `ech-doh` values wins is decided by the
plugin's option string; the rule is a parameter here (`EffectiveEch`).
-/

namespace Hole.Bridge

export Gui (ServerEntry DnsConfig FilterRule)

/-- `TunnelMode`. -/
inductive TunnelMode
  | full
  | socksOnly
  deriving DecidableEq

/-- `ProxyConfig`. -/
structure ProxyConfig where
  server : ServerEntry
  localPort : UInt16
  tunnelMode : TunnelMode
  filters : List FilterRule
  dns : DnsConfig
  proxySocks5 : Bool
  proxyHttp : Bool
  localPortHttp : UInt16
  diagnosticPluginTap : Bool
  deriving DecidableEq

/-- The structural comparison of `reload`: every field but the filters. -/
def ProxyConfig.structuralSame (active config : ProxyConfig) : Bool :=
  active.server = config.server && active.localPort = config.localPort &&
    active.tunnelMode = config.tunnelMode && active.dns = config.dns &&
    active.proxySocks5 = config.proxySocks5 && active.proxyHttp = config.proxyHttp &&
    active.localPortHttp = config.localPortHttp &&
    active.diagnosticPluginTap = config.diagnosticPluginTap

/-- Two configurations agree on every field but the filters. -/
def ProxyConfig.SameButFilters (a b : ProxyConfig) : Prop := { b with filters := a.filters } = a

instance (a b : ProxyConfig) : Decidable (a.SameButFilters b) := inferInstanceAs (Decidable (_ = _))

theorem structuralSame_iff {a b : ProxyConfig} :
    a.structuralSame b = true ↔ a.SameButFilters b := by
  obtain ⟨server, localPort, mode, filters, dns, socks5, http, portHttp, tap⟩ := a
  simp only [ProxyConfig.structuralSame, ProxyConfig.SameButFilters, Bool.and_eq_true,
    decide_eq_true_eq, ProxyConfig.mk.injEq]
  grind

theorem ProxyConfig.SameButFilters.trans {a b config : ProxyConfig} (h : a.SameButFilters b)
    (h' : a.SameButFilters config) : b.SameButFilters config := by
  rw [SameButFilters] at h h' ⊢
  rw [← h] at h'
  exact congrArg (fun x : ProxyConfig ↦ { x with filters := b.filters }) h'

/-- `PinSource`: which resolver the ECH lookup is pinned to, or why none is. -/
inductive PinSource
  | answered (ip : IpAddr)
  | noQueryNeeded
  | secureBootstrapFailed
  | resolverDeselected
  deriving DecidableEq

/-- `PinSource::verified_ip`. -/
def PinSource.verifiedIp : PinSource → Option IpAddr
  | answered ip => some ip
  | noQueryNeeded | secureBootstrapFailed | resolverDeselected => none

/-- `revalidate`: a pin to a resolver that is configured no more is dropped. -/
def revalidate (source : PinSource) (servers : List IpAddr) : PinSource :=
  match source with
  | .answered ip => if ip ∈ servers then .answered ip else .resolverDeselected
  | other => other

/-- `EchDoh`: the `ech-doh` Hole offers, and the address its URL names. -/
structure EchDoh where
  url : String
  /-- The address `url` names. -/
  resolver : IpAddr
  source : PinSource

/-- `doh_url_for_ip`. -/
def dohUrlForIp : IpAddr → String
  | .v4 bits => "https://" ++ (IpAddr.v4 bits).display ++ "/dns-query"
  | .v6 bits => "https://[" ++ (IpAddr.v6 bits).display ++ "]/dns-query"

/-- `ech_doh_url`: the pinned resolver, else a configured one, IPv4 first. -/
def echDohUrl (dns : DnsConfig) (source : PinSource) : Option EchDoh :=
  let resolver :=
    match source.verifiedIp with
    | some ip => some ip
    | none =>
      match dns.servers.find? IpAddr.isIpv4 with
      | some ip => some ip
      | none => dns.servers.head?
  resolver.map fun ip ↦ ⟨dohUrlForIp ip, ip, source⟩

/-- Whose `ech-doh` the plugin will dial. -/
inductive EffectiveEchDoh
  | none
  | holes
  | operators (url : String)

/-- `effective_ech_doh`, by plugin name, options and Hole's candidate. -/
abbrev EffectiveEch := String → Option String → Option EchDoh → EffectiveEchDoh

/-- The resolver a start would have the cover permit: Hole's candidate, where it is the one that
is dialled. Only a plugin looks ECH configurations up. -/
def echResolverPermit (effective : EffectiveEch) (config : ProxyConfig) (pin : PinSource) :
    Option IpAddr :=
  let echDoh := if config.server.plugin.isSome then echDohUrl config.dns pin else none
  match effective (config.server.plugin.getD "") config.server.pluginOpts echDoh with
  | .holes => echDoh.map (·.resolver)
  | .none => none
  | .operators _ => none

end Hole.Bridge
