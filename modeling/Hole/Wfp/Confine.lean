import Hole.Wfp.Spec

/-!
# The DNS-egress confinement

`tun-engine/src/dns_confine/spec.rs`: thirteen filters that let DNS leave over the TUN, to
loopback and to the server, and block it everywhere else. They live in a dynamic session and in a
sublayer of their own, so they carry no key and no lifetime, and a cover cannot outrank them.
-/

namespace Hole.Wfp.Confine

/-- `DNS_PORT`. -/
def dnsPort : BitVec 16 := 53#16

/-- The provider's key. -/
def confineProvider : Guid := 0x8f1c6a2e3d474b1a9e027c5f3a1b6d40#128

/-- The sublayer's key. -/
def confineSublayer : Guid := 0x1b9d4e736a524c8fb3102e6d9a4c7f81#128

/-- `L4`. -/
inductive L4
  | udp
  | tcp

/-- `l4_to_ipproto`. -/
def L4.ipproto : L4 → BitVec 8
  | udp => 17#8
  | tcp => ipprotoTcp

/-- `Condition`. -/
inductive Condition
  | onInterface (luid : BitVec 64) (l4 : L4) (remotePort : BitVec 16)
  | loopbackNet (family : Family) (l4 : L4) (remotePort : BitVec 16)
  | serverIp (ip : IpAddr)
  | anyTo (l4 : L4) (remotePort : BitVec 16)

/-- `FilterSpec`. -/
structure FilterSpec where
  name : String
  /-- The family of the CONNECT layer. -/
  layer : Family
  action : Action
  condition : Condition
  weight : BitVec 8

/-- The filters of one protocol and one family. -/
def dnsFilters (tunLuid : BitVec 64) (l4 : L4) (v : Family) : List FilterSpec :=
  [⟨"dns-confine-tun-permit", v, .permit, .onInterface tunLuid l4 dnsPort, permitWeight⟩,
    ⟨"dns-confine-loopback-permit", v, .permit, .loopbackNet v l4 dnsPort, permitWeight⟩,
    ⟨"dns-confine-block", v, .block, .anyTo l4 dnsPort, blockWeight⟩]

/-- `build_spec`. -/
def buildSpec (tunLuid : BitVec 64) (serverIp : IpAddr) : List FilterSpec :=
  ([L4.udp, .tcp].flatMap fun l4 ↦ [Family.v4, .v6].flatMap fun v ↦ dnsFilters tunLuid l4 v) ++
    [⟨"dns-confine-server-permit", .ofIp serverIp, .permit, .serverIp serverIp, permitWeight⟩]

example : (buildSpec 7#64 (.v4 1#32)).length = 13 := rfl

/-- The conditions that `add_filter` writes. -/
def Condition.encode : Condition → List FilterCondition
  | onInterface luid l4 remotePort =>
    [.localInterface luid, .protocol l4.ipproto, .remotePort remotePort]
  | loopbackNet .v4 l4 remotePort =>
    [.remoteV4Mask 0x7F000000#32 0xFF000000#32, .protocol l4.ipproto, .remotePort remotePort]
  | loopbackNet .v6 l4 remotePort =>
    [.remoteV6Prefix 1#128 128, .protocol l4.ipproto, .remotePort remotePort]
  | serverIp ip => [.remote ip]
  | anyTo l4 remotePort => [.protocol l4.ipproto, .remotePort remotePort]

/-- The filter that an add stores: no key, no lifetime flag. -/
def FilterSpec.encode (f : FilterSpec) : FwpmFilter where
  filterKey := 0#128
  flags := 0#32
  providerKey := confineProvider
  layerKey := .connect f.layer
  subLayerKey := confineSublayer
  weight := f.weight
  conditions := f.condition.encode
  action := f.action

end Hole.Wfp.Confine
