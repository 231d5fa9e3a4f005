import Mathlib.Data.List.Nodup
import Hole.FailClosed.Clearance

/-!
# What the Windows covers install

The pure half of `failclosed/windows.rs`: the fixed filter keys, the filters that the two builders
put under them, the lists that the engages delete first and that the sweeps delete, and the
`FWPM_FILTER0` that an add stores for a filter.

A key is a compile-time constant while the content of some filters is not: the server, the TUN
and the binaries are only known at run time. `FilterSpec.requiresFreshAdd` names those filters
(and the boot-time twins, which a reboot spends), so **what is kept under every other key is fixed
by the key** (`Floor`).
-/

namespace Hole.Wfp

open FailClosed

/-- A `GUID`. -/
abbrev Guid := BitVec 128

instance : LawfulBEq Guid := inferInstance

/-- `PROVIDER_GUID`. -/
def providerGuid : Guid := 0xa3f1c2d45b6e47a89c0d1e2f3a4b5c6d#128

/-- `SUBLAYER_GUID`. -/
def sublayerGuid : Guid := 0xb4e2d3c56c7f58b9ad1e2f3a4b5c6d7e#128

/-- The families a filter is written for. -/
inductive Family
  | v4
  | v6
  deriving DecidableEq

/-- The family of an address. -/
def Family.ofIp : IpAddr → Family
  | .v4 _ => v4
  | .v6 _ => v6

/-- `FILTER_GUIDS[0]` and `[1]`: loopback, CONNECT. -/
def Transient.loopback : Family → Guid
  | .v4 => 0xc5f3e4d67d8069cabe2f3a4b5c6d7e8f#128
  | .v6 => 0xd60415078e917adbcf304b5c6d7e8f90#128

/-- `FILTER_GUIDS[2]` and `[3]`: the server. -/
def Transient.server : Family → Guid
  | .v4 => 0xe71526189fa28becd0415c6d7e8f9001#128
  | .v6 => 0xf8263729a0b39cfde1526d7e8f900112#128

/-- `FILTER_GUIDS[4]` and `[5]`: block-all. -/
def Transient.blockAll : Family → Guid
  | .v4 => 0x0937483ab1c4ad0ef2637e8f90011223#128
  | .v6 => 0x1a48594bc2d5be1f03748f9001122334#128

/-- `FILTER_GUIDS[6]` and `[7]`: loopback, RECV_ACCEPT. -/
def Transient.recvAccept : Family → Guid
  | .v4 => 0x9fc31d471c7d662fc0af263264e68d4c#128
  | .v6 => 0x64f1885c8acb79c4fac2cd84e29f45eb#128

/-- `FILTER_GUIDS[8]` and `[9]`: the loopback range, CONNECT. -/
def Transient.loopbackNet : Family → Guid
  | .v4 => 0x8827e6e8461b48a09e88dc6371486cb0#128
  | .v6 => 0x07d38d294bbb472faeb3e9d71f8967d9#128

/-- `FILTER_GUIDS[10]` and `[11]`: the resolver. -/
def Transient.resolver : Family → Guid
  | .v4 => 0xa2a6419f0dd6462895780424bf1cc9b2#128
  | .v6 => 0xa020f996e73f488cb1c95fce3ea0b1eb#128

/-- `LOCKDOWN_FILTER_GUIDS[0]` and `[1]`: loopback, CONNECT. -/
def Lockdown.loopback : Family → Guid
  | .v4 => 0x216a841bf2644047888139f24b4d6dce#128
  | .v6 => 0x4d9cd0a2c48f40cf822589ce3f8a1376#128

/-- `LOCKDOWN_FILTER_GUIDS[2]` and `[3]`: the TUN. -/
def Lockdown.tun : Family → Guid
  | .v4 => 0x0421643502094b1695c441f7c26af397#128
  | .v6 => 0x316261ca7bd24949a64b08f6ddd66519#128

/-- `LOCKDOWN_FILTER_GUIDS[4]` and `[5]`: the server. -/
def Lockdown.server : Family → Guid
  | .v4 => 0x38bea56b116b4df88cac280ef661d248#128
  | .v6 => 0xf733418ba1c8436585b5d5ce8810b144#128

/-- `LOCKDOWN_FILTER_GUIDS[6]` and `[7]`: block-all. -/
def Lockdown.blockAll : Family → Guid
  | .v4 => 0x4710d66194cb4fc7ab52f03f75774d3e#128
  | .v6 => 0x20af67ac58ec41e6a49d6fd2ed55c184#128

/-- `LOCKDOWN_FILTER_GUIDS[8]` and `[9]`: loopback, RECV_ACCEPT. -/
def Lockdown.recvAccept : Family → Guid
  | .v4 => 0xfcd09bee0a6a7bb7de78f59dcf653693#128
  | .v6 => 0xda582b539a85b667c519e80db74ab67e#128

/-- `LOCKDOWN_FILTER_GUIDS[10]` and `[11]`: the loopback range, CONNECT. -/
def Lockdown.loopbackNet : Family → Guid
  | .v4 => 0x2f10387e8f544f8291ca44aa862d945e#128
  | .v6 => 0xd766a20f050a4c408de333bf259b7e34#128

/-- `LOCKDOWN_BOOTTIME_BLOCK_ALL_GUIDS`. -/
def Lockdown.bootTimeBlockAll : Family → Guid
  | .v4 => 0xba322087a133481c86cc0692ad222e2d#128
  | .v6 => 0x227bca1d54154421a5dabf5babe1c556#128

/-- A pair of keys, one for each family. -/
def pair (guid : Family → Guid) : List Guid := [guid .v4, guid .v6]

/-- `FILTER_GUIDS`, in the source's order. -/
def filterGuids : List Guid :=
  pair Transient.loopback ++ pair Transient.server ++ pair Transient.blockAll ++
    pair Transient.recvAccept ++ pair Transient.loopbackNet ++ pair Transient.resolver

/-- `LOCKDOWN_FILTER_GUIDS`, in the source's order. -/
def lockdownFilterGuids : List Guid :=
  pair Lockdown.loopback ++ pair Lockdown.tun ++ pair Lockdown.server ++
    pair Lockdown.blockAll ++ pair Lockdown.recvAccept ++ pair Lockdown.loopbackNet

/-- `appid_filter_guid`. -/
def appidFilterGuid (index : Nat) (family : Family) : Guid :=
  0xf611568d6af6412786002d3239500000#128 ^^^
    ((BitVec.ofNat 128 index <<< 8) ||| (if family = .v6 then 1#128 else 0#128))

/-- `MAX_APPID_BINARIES`. -/
def maxAppidBinaries : Nat := 4

/-- `appid_pre_delete_guids`. -/
def appidGuids : List Guid := (List.range maxAppidBinaries).flatMap fun i ↦ pair (appidFilterGuid i)

/-! ### Filters -/

/-- `Layer`. -/
inductive Layer
  | connect (family : Family)
  | recvAccept (family : Family)
  deriving DecidableEq

/-- `Action`. -/
inductive Action
  | permit
  | block

/-- `Condition`. -/
inductive Condition
  | loopback
  | loopbackNet (family : Family)
  | remoteIp (ip : IpAddr)
  | remoteIpPortTcp (ip : IpAddr) (port : BitVec 16)
  | localInterface (luid : BitVec 64)
  | appId (path : String)
  | any

/-- `Condition::carries_runtime_value`. -/
def Condition.carriesRuntimeValue : Condition → Bool
  | loopback | loopbackNet _ | any => false
  | remoteIp _ | remoteIpPortTcp _ _ | localInterface _ | appId _ => true

/-- `FilterSpec`. -/
structure FilterSpec where
  guid : Guid
  layer : Layer
  action : Action
  condition : Condition
  weight : BitVec 8
  lifetime : KeyLifetime

/-- `FilterSpec::requires_fresh_add`: content that the key does not fix, or a twin that a reboot
spends. -/
def FilterSpec.requiresFreshAdd (f : FilterSpec) : Bool :=
  f.condition.carriesRuntimeValue || f.lifetime = .bootTime

/-- `StaleKeyPolicy`. -/
inductive StaleKeyPolicy
  | fail
  | degrade

/-- `StaleKeyPolicy::refuses_a_stale_key`. -/
def StaleKeyPolicy.refusesAStaleKey : StaleKeyPolicy → Bool
  | fail => true
  | degrade => false

/-- `CoverSpec`. -/
structure CoverSpec where
  preDelete : List Guid
  filters : List FilterSpec
  /-- What a key that cannot be cleared does to the engage. -/
  staleKey : StaleKeyPolicy

/-- `PERMIT_WEIGHT`. -/
def permitWeight : BitVec 8 := 15#8

/-- `BLOCK_WEIGHT`. -/
def blockWeight : BitVec 8 := 0#8

/-- `permit`. -/
def permit (guid : Guid) (layer : Layer) (condition : Condition) : FilterSpec :=
  ⟨guid, layer, .permit, condition, permitWeight, .persistent⟩

/-- `block`. -/
def block (guid : Guid) (layer : Layer) (lifetime : KeyLifetime) : FilterSpec :=
  ⟨guid, layer, .block, .any, blockWeight, lifetime⟩

/-- `RESOLVER_PERMIT_PORT`. -/
def resolverPermitPort : BitVec 16 := 443#16

/-- A filter for each family. -/
def both (f : Family → FilterSpec) : List FilterSpec := [f .v4, f .v6]

/-- The resolver's permit. -/
def resolverPermit : Option IpAddr → List FilterSpec
  | some ip =>
    [permit (Transient.resolver (.ofIp ip)) (.connect (.ofIp ip))
      (.remoteIpPortTcp ip resolverPermitPort)]
  | none => []

/-- `transient_pre_delete_guids`. -/
def transientPreDeleteGuids : List Guid := pair Transient.server ++ pair Transient.resolver

/-- `build_cover_spec`. -/
def buildCoverSpec (serverIp : IpAddr) (resolverIp : Option IpAddr) : CoverSpec where
  preDelete := transientPreDeleteGuids
  filters := both (fun v ↦ permit (Transient.loopback v) (.connect v) .loopback) ++
    both (fun v ↦ permit (Transient.loopbackNet v) (.connect v) (.loopbackNet v)) ++
    both (fun v ↦ permit (Transient.recvAccept v) (.recvAccept v) (.loopbackNet v)) ++
    [permit (Transient.server (.ofIp serverIp)) (.connect (.ofIp serverIp)) (.remoteIp serverIp)] ++
    resolverPermit resolverIp ++
    both (fun v ↦ block (Transient.blockAll v) (.connect v) .persistent)
  staleKey := .degrade

/-- `BootTimeTwin`. -/
structure BootTimeTwin where
  guid : Guid
  layer : Layer
  label : String
  /-- The persistent filter the twin copies. -/
  sibling : Guid

/-- `LOCKDOWN_BOOTTIME_TWINS`. -/
def lockdownBoottimeTwins : List BootTimeTwin :=
  [⟨Lockdown.bootTimeBlockAll .v4, .connect .v4, "lockdown boot-time block-all V4",
      Lockdown.blockAll .v4⟩,
    ⟨Lockdown.bootTimeBlockAll .v6, .connect .v6, "lockdown boot-time block-all V6",
      Lockdown.blockAll .v6⟩]

/-- `adopt_delete_guids`. -/
def adoptDeleteGuids : List Guid := pair Lockdown.tun ++ pair Lockdown.server

/-- `lockdown_pre_delete_guids`. -/
def lockdownPreDeleteGuids : List Guid :=
  adoptDeleteGuids ++ appidGuids ++ lockdownBoottimeTwins.map (·.guid)

/-- The permits of the listed binaries. -/
def appidPermits (appIds : List String) : List FilterSpec := appIds.zipIdx.flatMap fun (path, i) ↦
    both fun v ↦ permit (appidFilterGuid i v) (.connect v) (.appId path)

/-- `build_lockdown_spec`. -/
def buildLockdownSpec (serverIp : IpAddr) (tunLuid : BitVec 64) (appIds : List String) :
    CoverSpec where
  preDelete := lockdownPreDeleteGuids
  filters := both (fun v ↦ permit (Lockdown.loopback v) (.connect v) .loopback) ++
    both (fun v ↦ permit (Lockdown.loopbackNet v) (.connect v) (.loopbackNet v)) ++
    both (fun v ↦ permit (Lockdown.recvAccept v) (.recvAccept v) (.loopbackNet v)) ++
    both (fun v ↦ permit (Lockdown.tun v) (.connect v) (.localInterface tunLuid)) ++
    appidPermits appIds ++
    [permit (Lockdown.server (.ofIp serverIp)) (.connect (.ofIp serverIp)) (.remoteIp serverIp)] ++
    both (fun v ↦ block (Lockdown.blockAll v) (.connect v) .persistent) ++
    lockdownBoottimeTwins.map (fun t ↦ block t.guid t.layer .bootTime)
  staleKey := .fail

/-! ### Stored filters -/

/-- The blob that names an image in a filter (`FwpmGetAppIdFromFileName0`). -/
abbrev Blob := String

/-- An `FWPM_FILTER_CONDITION0`, by field and value type. -/
inductive FilterCondition
  /-- `FWPM_CONDITION_FLAGS`, all of `IS_LOOPBACK` set. -/
  | flagLoopback
  /-- `FWPM_CONDITION_IP_REMOTE_ADDRESS`, an IPv4 address in host order. -/
  | remoteV4 (addr : BitVec 32)
  /-- The same field, an IPv6 address. -/
  | remoteV6 (addr : BitVec 128)
  /-- The same field, an IPv4 network. -/
  | remoteV4Mask (addr mask : BitVec 32)
  /-- The same field, an IPv6 prefix. -/
  | remoteV6Prefix (addr : BitVec 128) (prefixLength : Nat)
  /-- `FWPM_CONDITION_IP_PROTOCOL`. -/
  | protocol (value : BitVec 8)
  /-- `FWPM_CONDITION_IP_REMOTE_PORT`. -/
  | remotePort (value : BitVec 16)
  /-- `FWPM_CONDITION_IP_LOCAL_INTERFACE`. -/
  | localInterface (luid : BitVec 64)
  /-- `FWPM_CONDITION_ALE_APP_ID`. -/
  | appId (blob : Blob)

/-- `IPPROTO_TCP`. -/
def ipprotoTcp : BitVec 8 := 6#8

/-- The condition on a remote address. -/
def FilterCondition.remote : IpAddr → FilterCondition
  | .v4 bits => remoteV4 bits
  | .v6 bits => remoteV6 bits

/-- The conditions `add_filter` writes; all of them must match. -/
def Condition.encode (appId : String → Blob) : Condition → List FilterCondition
  | loopback => [.flagLoopback]
  | loopbackNet .v4 => [.remoteV4Mask 0x7F000000#32 0xFF000000#32]
  | loopbackNet .v6 => [.remoteV6Prefix 1#128 128]
  | remoteIp ip => [.remote ip]
  | remoteIpPortTcp ip port => [.remote ip, .protocol ipprotoTcp, .remotePort port]
  | localInterface luid => [.localInterface luid]
  | .appId path => [.appId (appId path)]
  | any => []

/-- `FWPM_FILTER_FLAG_PERSISTENT`. -/
def flagPersistent : BitVec 32 := 0x1#32

/-- `FWPM_FILTER_FLAG_BOOTTIME`. -/
def flagBoottime : BitVec 32 := 0x2#32

/-- `FWPM_FILTER_FLAG_CLEAR_ACTION_RIGHT`. -/
def flagClearActionRight : BitVec 32 := 0x8#32

/-- `FWPM_FILTER_FLAG_DISABLED`. -/
def flagDisabled : BitVec 32 := 0x20#32

/-- `FilterLifetime::filter_flags`. -/
def filterFlags : KeyLifetime → BitVec 32
  | .persistent => flagPersistent
  | .bootTime => flagBoottime ||| flagClearActionRight

/-- `FWPM_FILTER0`, as far as `add_filter` sets it. -/
structure FwpmFilter where
  filterKey : Guid
  /-- Lifetime and action right. -/
  flags : BitVec 32
  providerKey : Guid
  layerKey : Layer
  subLayerKey : Guid
  weight : BitVec 8
  conditions : List FilterCondition
  action : Action

/-- The filter that an add stores, once its conditions are known. -/
def FilterSpec.filter (f : FilterSpec) (conditions : List FilterCondition) : FwpmFilter where
  filterKey := f.guid
  flags := filterFlags f.lifetime
  providerKey := providerGuid
  layerKey := f.layer
  subLayerKey := sublayerGuid
  weight := f.weight
  conditions := conditions
  action := f.action

/-- The filter that an add stores. -/
def FilterSpec.encode (appId : String → Blob) (f : FilterSpec) : FwpmFilter :=
  f.filter (f.condition.encode appId)

/-! ### Sweeps -/

/-- `SweptKey`. -/
structure SweptKey where
  guid : Guid
  label : String
  lifetime : KeyLifetime
  role : KeyRole
  deriving DecidableEq

/-- `boot_time_sibling_role`. -/
def bootTimeSiblingRole (guid : Guid) : KeyRole :=
  if lockdownBoottimeTwins.any (·.sibling = guid) then .bootTimeSibling else .plain

/-- `swept_transient_keys`. -/
def sweptTransientKeys : List SweptKey :=
  filterGuids.map fun guid ↦ ⟨guid, "transient filter", .persistent, .plain⟩

/-- `swept_lockdown_keys`. -/
def sweptLockdownKeys : List SweptKey := lockdownFilterGuids.map (fun guid ↦
    ⟨guid, "lockdown filter", .persistent, bootTimeSiblingRole guid⟩) ++
  lockdownBoottimeTwins.map (fun t ↦ ⟨t.guid, t.label, .bootTime, .plain⟩) ++
  appidGuids.map (fun guid ↦ ⟨guid, "lockdown app-id filter", .persistent, .plain⟩)

/-- The keys of the standing cover. -/
def lockdownKeys : List Guid := sweptLockdownKeys.map (·.guid)

/-- The keys of the transient cover. -/
def transientKeys : List Guid := sweptTransientKeys.map (·.guid)

/-- **No two keys collide**, across the covers and the slots of the binaries. -/
theorem nodup_keys : (transientKeys ++ lockdownKeys).Nodup := by
  decide

/-! ### What a key fixes -/

/-- The filters of the transient cover whose content their keys fix. -/
def transientFloor : List FilterSpec :=
  both (fun v ↦ permit (Transient.loopback v) (.connect v) .loopback) ++
  both (fun v ↦ permit (Transient.loopbackNet v) (.connect v) (.loopbackNet v)) ++
  both (fun v ↦ permit (Transient.recvAccept v) (.recvAccept v) (.loopbackNet v)) ++
  both (fun v ↦ block (Transient.blockAll v) (.connect v) .persistent)

/-- The filters of the standing cover whose content their keys fix: the block-all pair and the
loopback permits. -/
def lockdownFloor : List FilterSpec :=
  both (fun v ↦ permit (Lockdown.loopback v) (.connect v) .loopback) ++
  both (fun v ↦ permit (Lockdown.loopbackNet v) (.connect v) (.loopbackNet v)) ++
  both (fun v ↦ permit (Lockdown.recvAccept v) (.recvAccept v) (.loopbackNet v)) ++
  both (fun v ↦ block (Lockdown.blockAll v) (.connect v) .persistent)

/-- The keys whose content changes from one engage to the next. -/
def freshGuids : List Guid := transientPreDeleteGuids ++ lockdownPreDeleteGuids

/-- A filter that one of the builders puts under its key. -/
structure FilterSpec.Ours (f : FilterSpec) : Prop where
  /-- The key fixes the content, or the engages delete it first. -/
  fixed : f ∈ transientFloor ++ lockdownFloor ∨ f.guid ∈ freshGuids
  /-- A sweep knows the key, under the filter's lifetime. -/
  swept : ∃ s ∈ sweptTransientKeys ++ sweptLockdownKeys, s.guid = f.guid ∧ s.lifetime = f.lifetime

theorem nodup_floor : ((transientFloor ++ lockdownFloor).map (·.guid)).Nodup := by
  decide

theorem floor_not_fresh : ∀ f ∈ transientFloor ++ lockdownFloor, f.guid ∉ freshGuids := by
  decide

/-- **The floor is fixed by its keys**: whatever a builder puts under a key of the floor is the
floor's filter. -/
theorem FilterSpec.Ours.eq_floor {f g : FilterSpec} (hf : f ∈ transientFloor ++ lockdownFloor)
    (hg : g.Ours) (h : g.guid = f.guid) : g = f := by
  rcases hg.fixed with hfloor | hfresh
  · exact List.inj_on_of_nodup_map nodup_floor hfloor hf h
  · exact absurd (h ▸ hfresh) (floor_not_fresh f hf)

/-- How a spec and its keys hang together. -/
structure CoverSpec.WellKeyed (spec : CoverSpec) (keys : List Guid) (floor : List FilterSpec) :
    Prop where
  ours : ∀ f ∈ spec.filters, f.Ours
  /-- A filter whose content its key does not fix is deleted first. -/
  fresh : ∀ f ∈ spec.filters, f ∈ floor ∨ f.guid ∈ spec.preDelete
  floor_subset : ∀ f ∈ floor, f ∈ spec.filters
  /-- The filters live under the cover's keys. -/
  filter_keys : ∀ f ∈ spec.filters, f.guid ∈ keys
  /-- So do the keys deleted first. -/
  preDelete_keys : ∀ g ∈ spec.preDelete, g ∈ keys
  /-- A key of the cover without a filter in the spec is deleted first. -/
  rest : ∀ g ∈ keys, g ∈ spec.filters.map (·.guid) ∨ g ∈ spec.preDelete
  nodup : (spec.filters.map (·.guid)).Nodup

theorem transientKeys_eq : transientKeys = filterGuids := by
  simp [transientKeys, sweptTransientKeys, Function.comp_def]

theorem lockdownKeys_eq : lockdownKeys =
    lockdownFilterGuids ++ lockdownBoottimeTwins.map (·.guid) ++ appidGuids := by
  simp [lockdownKeys, sweptLockdownKeys, Function.comp_def]

variable {g : Guid}

theorem swept_of_filterGuids (hg : g ∈ filterGuids) :
    ∃ s ∈ sweptTransientKeys ++ sweptLockdownKeys, s.guid = g ∧ s.lifetime = .persistent :=
  ⟨_, List.mem_append_left _ (List.mem_map_of_mem hg), rfl, rfl⟩

theorem swept_of_lockdownFilterGuids (hg : g ∈ lockdownFilterGuids) :
    ∃ s ∈ sweptTransientKeys ++ sweptLockdownKeys, s.guid = g ∧ s.lifetime = .persistent :=
  ⟨_, List.mem_append_right _ (List.mem_append_left _ (List.mem_append_left _
    (List.mem_map_of_mem hg))), rfl, rfl⟩

theorem swept_of_appidGuids (hg : g ∈ appidGuids) :
    ∃ s ∈ sweptTransientKeys ++ sweptLockdownKeys, s.guid = g ∧ s.lifetime = .persistent :=
  ⟨_, List.mem_append_right _ (List.mem_append_right _ (List.mem_map_of_mem hg)), rfl, rfl⟩

theorem swept_of_twin {t : BootTimeTwin} (ht : t ∈ lockdownBoottimeTwins) :
    ∃ s ∈ sweptTransientKeys ++ sweptLockdownKeys, s.guid = t.guid ∧ s.lifetime = .bootTime :=
  ⟨_, List.mem_append_right _ (List.mem_append_left _ (List.mem_append_right _
    (List.mem_map_of_mem ht))), rfl, rfl⟩

variable {f : FilterSpec}

theorem guid_of_transientFloor (hf : f ∈ transientFloor) :
    f.guid ∈ filterGuids ∧ f.lifetime = .persistent := by
  revert f
  decide

theorem guid_of_lockdownFloor (hf : f ∈ lockdownFloor) :
    f.guid ∈ lockdownFilterGuids ∧ f.lifetime = .persistent := by
  revert f
  decide

theorem ours_of_floor (hf : f ∈ transientFloor ++ lockdownFloor) : f.Ours := by
  refine ⟨.inl hf, ?_⟩
  rcases List.mem_append.1 hf with hf | hf
  · rw [(guid_of_transientFloor hf).2]
    exact swept_of_filterGuids (guid_of_transientFloor hf).1
  · rw [(guid_of_lockdownFloor hf).2]
    exact swept_of_lockdownFilterGuids (guid_of_lockdownFloor hf).1

theorem server_mem_transientPreDelete (v : Family) :
    Transient.server v ∈ transientPreDeleteGuids := by
  cases v <;> simp [transientPreDeleteGuids, pair]

theorem resolver_mem_transientPreDelete (v : Family) :
    Transient.resolver v ∈ transientPreDeleteGuids := by
  cases v <;> simp [transientPreDeleteGuids, pair]

theorem transientPreDelete_subset (hg : g ∈ transientPreDeleteGuids) : g ∈ filterGuids := by
  simp only [transientPreDeleteGuids, filterGuids, List.mem_append] at hg ⊢
  tauto

theorem adoptDelete_subset (hg : g ∈ adoptDeleteGuids) : g ∈ lockdownFilterGuids := by
  simp only [adoptDeleteGuids, lockdownFilterGuids, List.mem_append] at hg ⊢
  tauto

/-- A permit of the transient cover under a key that its engage deletes first. -/
theorem ours_transientPermit {layer : Layer} {condition : Condition}
    (hg : g ∈ transientPreDeleteGuids) : (permit g layer condition).Ours :=
  ⟨.inr (List.mem_append_left _ hg), swept_of_filterGuids (transientPreDelete_subset hg)⟩

/-- A permit of the standing cover under a key that its engage deletes first. -/
theorem ours_lockdownPermit {layer : Layer} {condition : Condition}
    (hg : g ∈ adoptDeleteGuids ++ appidGuids) : (permit g layer condition).Ours := by
  refine ⟨.inr (List.mem_append_right _ (List.mem_append_left _ hg)), ?_⟩
  rcases List.mem_append.1 hg with hg | hg
  · exact swept_of_lockdownFilterGuids (adoptDelete_subset hg)
  · exact swept_of_appidGuids hg

/-- A key of the transient cover is the floor's, or is deleted first. -/
theorem mem_filterGuids :
    g ∈ filterGuids ↔ g ∈ transientFloor.map (·.guid) ∨ g ∈ transientPreDeleteGuids := by
  simp only [filterGuids, transientPreDeleteGuids, transientFloor, both, pair, permit, block,
    List.mem_append, List.map_append, List.map_cons, List.map_nil]
  tauto

variable {serverIp : IpAddr}

/-- The filters of a transient cover. -/
theorem mem_buildCoverSpec {resolverIp : Option IpAddr} :
    f ∈ (buildCoverSpec serverIp resolverIp).filters ↔ f ∈ transientFloor ∨
      f = permit (Transient.server (.ofIp serverIp)) (.connect (.ofIp serverIp))
        (.remoteIp serverIp) ∨
      f ∈ resolverPermit resolverIp := by
  simp only [buildCoverSpec, transientFloor, List.mem_append, List.mem_singleton]
  tauto

theorem wellKeyed_cover (serverIp : IpAddr) (resolverIp : Option IpAddr) :
    (buildCoverSpec serverIp resolverIp).WellKeyed transientKeys transientFloor := by
  have hresolver : ∀ f ∈ resolverPermit resolverIp, ∃ v layer condition,
      f = permit (Transient.resolver v) layer condition := by
    intro f hf
    rcases resolverIp with - | ip
    · cases hf
    · exact ⟨_, _, _, List.mem_singleton.1 hf⟩
  have hpre : ∀ g ∈ transientPreDeleteGuids, g ∈ transientKeys :=
    fun g hg ↦ transientKeys_eq ▸ transientPreDelete_subset hg
  have hfloor : ∀ f ∈ transientFloor, f.guid ∈ transientKeys :=
    fun f hf ↦ transientKeys_eq ▸ (guid_of_transientFloor hf).1
  constructor
  case ours =>
    intro f hf
    rcases mem_buildCoverSpec.1 hf with hf | rfl | hf
    · exact ours_of_floor (List.mem_append_left _ hf)
    · exact ours_transientPermit (server_mem_transientPreDelete _)
    · obtain ⟨v, layer, condition, rfl⟩ := hresolver f hf
      exact ours_transientPermit (resolver_mem_transientPreDelete v)
  case fresh =>
    intro f hf
    rcases mem_buildCoverSpec.1 hf with hf | rfl | hf
    · exact .inl hf
    · exact .inr (server_mem_transientPreDelete _)
    · obtain ⟨v, layer, condition, rfl⟩ := hresolver f hf
      exact .inr (resolver_mem_transientPreDelete v)
  case floor_subset => exact fun f hf ↦ mem_buildCoverSpec.2 (.inl hf)
  case filter_keys =>
    intro f hf
    rcases mem_buildCoverSpec.1 hf with hf | rfl | hf
    · exact hfloor f hf
    · exact hpre _ (server_mem_transientPreDelete _)
    · obtain ⟨v, layer, condition, rfl⟩ := hresolver f hf
      exact hpre _ (resolver_mem_transientPreDelete v)
  case preDelete_keys => exact hpre
  case rest =>
    intro g hg
    rw [transientKeys_eq] at hg
    rcases mem_filterGuids.1 hg with hg | hg
    · obtain ⟨f, hf, rfl⟩ := List.mem_map.1 hg
      exact .inl (List.mem_map_of_mem (mem_buildCoverSpec.2 (.inl hf)))
    · exact .inr hg
  case nodup =>
    have hguids : (buildCoverSpec serverIp resolverIp).filters.map (·.guid) =
        pair Transient.loopback ++ pair Transient.loopbackNet ++ pair Transient.recvAccept ++
          [Transient.server (.ofIp serverIp)] ++
          (resolverIp.map fun ip ↦ Transient.resolver (.ofIp ip)).toList ++
          pair Transient.blockAll := by
      rcases resolverIp with - | ip
      · rfl
      · rfl
    rw [hguids]
    rcases resolverIp with - | ip
    · generalize Family.ofIp serverIp = v
      cases v <;> decide
    · simp only [Option.map_some, Option.toList_some]
      generalize Family.ofIp serverIp = v
      generalize Family.ofIp ip = v'
      cases v <;> cases v' <;> decide

/-- A key of the standing cover is the floor's, or is deleted first. -/
theorem mem_lockdownKeys :
    g ∈ lockdownKeys ↔ g ∈ lockdownFloor.map (·.guid) ∨ g ∈ lockdownPreDeleteGuids := by
  rw [lockdownKeys_eq]
  simp only [lockdownFilterGuids, lockdownPreDeleteGuids, adoptDeleteGuids, lockdownFloor, both,
    pair, permit, block, List.mem_append, List.map_append, List.map_cons, List.map_nil]
  tauto

variable {appIds : List String}

theorem mem_appidPermits (hf : f ∈ appidPermits appIds) :
    ∃ i < appIds.length, ∃ v path, f = permit (appidFilterGuid i v) (.connect v) (.appId path) := by
  obtain ⟨⟨path, i⟩, hmem, hf⟩ := List.mem_flatMap.1 hf
  have hi : i < appIds.length := by
    have h := List.snd_lt_of_mem_zipIdx hmem
    simpa using h
  simp only [both, List.mem_cons, List.not_mem_nil, or_false] at hf
  rcases hf with rfl | rfl
  · exact ⟨i, hi, .v4, path, rfl⟩
  · exact ⟨i, hi, .v6, path, rfl⟩

theorem appidFilterGuid_mem {i : Nat} (hi : i < maxAppidBinaries) (v : Family) :
    appidFilterGuid i v ∈ appidGuids := by
  refine List.mem_flatMap.2 ⟨i, List.mem_range.2 hi, ?_⟩
  cases v <;> simp [pair]

/-- The filters of a standing cover. -/
theorem mem_buildLockdownSpec {tunLuid : BitVec 64} :
    f ∈ (buildLockdownSpec serverIp tunLuid appIds).filters ↔ f ∈ lockdownFloor ∨
      f ∈ both (fun v ↦ permit (Lockdown.tun v) (.connect v) (.localInterface tunLuid)) ∨
      f ∈ appidPermits appIds ∨
      f = permit (Lockdown.server (.ofIp serverIp)) (.connect (.ofIp serverIp))
        (.remoteIp serverIp) ∨
      f ∈ lockdownBoottimeTwins.map (fun t ↦ block t.guid t.layer .bootTime) := by
  simp only [buildLockdownSpec, lockdownFloor, List.mem_append, List.mem_singleton]
  tauto

/-- A filter of a standing cover that is not the floor's: a permit, or a twin. -/
theorem fresh_of_buildLockdownSpec {tunLuid : BitVec 64} (hlen : appIds.length ≤ maxAppidBinaries)
    (hf : f ∈ (buildLockdownSpec serverIp tunLuid appIds).filters) :
    f ∈ lockdownFloor ∨
      (∃ g ∈ adoptDeleteGuids ++ appidGuids, ∃ layer condition, f = permit g layer condition) ∨
      ∃ t ∈ lockdownBoottimeTwins, f = block t.guid t.layer .bootTime := by
  have hadopt (v : Family) :
      Lockdown.tun v ∈ adoptDeleteGuids ++ appidGuids ∧
      Lockdown.server v ∈ adoptDeleteGuids ++ appidGuids := by
    cases v <;> simp [adoptDeleteGuids, pair]
  rcases mem_buildLockdownSpec.1 hf with hf | hf | hf | rfl | hf
  · exact .inl hf
  · simp only [both, List.mem_cons, List.not_mem_nil, or_false] at hf
    rcases hf with rfl | rfl
    · exact .inr (.inl ⟨_, (hadopt .v4).1, _, _, rfl⟩)
    · exact .inr (.inl ⟨_, (hadopt .v6).1, _, _, rfl⟩)
  · obtain ⟨i, hi, v, path, rfl⟩ := mem_appidPermits hf
    have hmem := appidFilterGuid_mem (Nat.lt_of_lt_of_le hi hlen) v
    exact .inr (.inl ⟨_, List.mem_append_right _ hmem, _, _, rfl⟩)
  · exact .inr (.inl ⟨_, (hadopt _).2, _, _, rfl⟩)
  · obtain ⟨t, ht, rfl⟩ := List.mem_map.1 hf
    exact .inr (.inr ⟨t, ht, rfl⟩)

/-- The keys of a standing cover with `n` binaries. -/
def lockdownSpecGuids (v : Family) (n : Nat) : List Guid :=
  pair Lockdown.loopback ++ pair Lockdown.loopbackNet ++ pair Lockdown.recvAccept ++
    pair Lockdown.tun ++ (List.range n).flatMap (fun i ↦ pair (appidFilterGuid i)) ++
    [Lockdown.server v] ++ pair Lockdown.blockAll ++ lockdownBoottimeTwins.map (·.guid)

theorem map_guid_appidPermits (appIds : List String) :
    (appidPermits appIds).map (·.guid) =
      (List.range appIds.length).flatMap fun i ↦ pair (appidFilterGuid i) := by
  have hsnd : appIds.zipIdx.map Prod.snd = List.range appIds.length := by
    rw [List.zipIdx_map_snd, List.range_eq_range']
  rw [appidPermits, List.map_flatMap, ← hsnd, List.flatMap_map]
  rfl

theorem map_guid_buildLockdownSpec (serverIp : IpAddr) (tunLuid : BitVec 64)
    (appIds : List String) :
    (buildLockdownSpec serverIp tunLuid appIds).filters.map (·.guid) =
      lockdownSpecGuids (.ofIp serverIp) appIds.length := by
  simp only [buildLockdownSpec, List.map_append, map_guid_appidPermits]
  rfl

theorem nodup_lockdownSpecGuids (v : Family) {n : Nat} (hn : n ≤ maxAppidBinaries) :
    (lockdownSpecGuids v n).Nodup := by
  have hall : ∀ n < 5, (lockdownSpecGuids .v4 n).Nodup ∧ (lockdownSpecGuids .v6 n).Nodup := by
    decide
  have h := hall n (Nat.lt_succ_of_le hn)
  cases v with
  | v4 => exact h.1
  | v6 => exact h.2

theorem wellKeyed_lockdown (serverIp : IpAddr) (tunLuid : BitVec 64)
    (hlen : appIds.length ≤ maxAppidBinaries) :
    (buildLockdownSpec serverIp tunLuid appIds).WellKeyed lockdownKeys lockdownFloor := by
  have hpre : ∀ g ∈ lockdownPreDeleteGuids, g ∈ lockdownKeys :=
    fun g hg ↦ mem_lockdownKeys.2 (.inr hg)
  have htwin {t : BootTimeTwin} (ht : t ∈ lockdownBoottimeTwins) :
      t.guid ∈ lockdownPreDeleteGuids :=
    List.mem_append_right _ (List.mem_map_of_mem ht)
  constructor
  case ours =>
    intro f hf
    rcases fresh_of_buildLockdownSpec hlen hf with hf |
      ⟨g, hg, layer, condition, rfl⟩ | ⟨t, ht, rfl⟩
    · exact ours_of_floor (List.mem_append_right _ hf)
    · exact ours_lockdownPermit hg
    · exact ⟨.inr (List.mem_append_right _ (htwin ht)), swept_of_twin ht⟩
  case fresh =>
    intro f hf
    rcases fresh_of_buildLockdownSpec hlen hf with hf |
      ⟨g, hg, layer, condition, rfl⟩ | ⟨t, ht, rfl⟩
    · exact .inl hf
    · exact .inr (List.mem_append_left _ hg)
    · exact .inr (htwin ht)
  case floor_subset => exact fun f hf ↦ mem_buildLockdownSpec.2 (.inl hf)
  case filter_keys =>
    intro f hf
    rcases fresh_of_buildLockdownSpec hlen hf with hf |
      ⟨g, hg, layer, condition, rfl⟩ | ⟨t, ht, rfl⟩
    · exact mem_lockdownKeys.2 (.inl (List.mem_map_of_mem hf))
    · exact hpre _ (List.mem_append_left _ hg)
    · exact hpre _ (htwin ht)
  case preDelete_keys => exact hpre
  case rest =>
    intro g hg
    rcases mem_lockdownKeys.1 hg with hg | hg
    · obtain ⟨f, hf, rfl⟩ := List.mem_map.1 hg
      exact .inl (List.mem_map_of_mem (mem_buildLockdownSpec.2 (.inl hf)))
    · exact .inr hg
  case nodup =>
    rw [map_guid_buildLockdownSpec]
    exact nodup_lockdownSpecGuids _ hlen

end Hole.Wfp
