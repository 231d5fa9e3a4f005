import Mathlib.Data.Nat.Basic
import Hole.Arbitration.Weighted
import Hole.Wfp.Confine

/-!
# What the Windows covers let out

The filters of the two covers and of the DNS confinement, under the arbitration of the Windows
Filtering Platform: within a sublayer the matching filter of highest weight decides, and a block
in any sublayer wins. The covers share a sublayer, where permits weigh more than the block-all
pairs; the confinement has its own.

`authorised_iff` reads the whole filter set as the policy it implements, for every combination of
the three.
-/

namespace Hole.Wfp

open Arbitration

/-- An outbound connect. -/
structure Connect where
  /-- The remote address; its family selects the layer. -/
  remote : IpAddr
  remotePort : BitVec 16
  protocol : BitVec 8
  localInterface : BitVec 64
  image : String
  loopback : Bool

/-- DNS by its port: what the confinement confines. -/
def Connect.IsDns (c : Connect) : Prop :=
  (c.protocol = 17#8 ∨ c.protocol = 6#8) ∧ c.remotePort = 53#16

variable (appId : String → Blob)

/-- When a condition matches. -/
def FilterCondition.holds (c : Connect) : FilterCondition → Bool
  | flagLoopback => c.loopback
  | remoteV4 addr => c.remote = .v4 addr
  | remoteV6 addr => c.remote = .v6 addr
  | remoteV4Mask addr mask =>
    match c.remote with
    | .v4 b => b &&& mask = addr &&& mask
    | .v6 _ => false
  | remoteV6Prefix addr prefixLength =>
    match c.remote with
    | .v4 _ => false
    | .v6 b => b >>> (128 - prefixLength) = addr >>> (128 - prefixLength)
  | protocol value => c.protocol = value
  | remotePort value => c.remotePort = value
  | localInterface luid => c.localInterface = luid
  | .appId blob => appId c.image = blob

/-- Whether a filter is in force: a boot-time one is not, while the filtering engine runs. -/
def FwpmFilter.inForce (f : FwpmFilter) : Bool := f.flags &&& flagBoottime = 0

/-- When a filter matches a connect: at the CONNECT layer of its family, all conditions. -/
def FwpmFilter.hits (f : FwpmFilter) (c : Connect) : Bool :=
  f.inForce && f.layerKey = .connect (.ofIp c.remote) && f.conditions.all (·.holds appId c)

/-- A filter as a rule of its sublayer. -/
def FwpmFilter.rule (f : FwpmFilter) : Rule Connect Nat where
  weight := f.weight.toNat
  verdict := match f.action with
    | .permit => .permit
    | .block => .block
  hits := f.hits appId

/-- Whether a sublayer blocks a connect. -/
def sublayerBlocks (filters : List FwpmFilter) (sublayer : Guid) (c : Connect) : Bool :=
  blocks ((filters.filter (·.subLayerKey = sublayer)).map (·.rule appId)) c

/-- Whether a connect is authorised: no sublayer blocks it. -/
def authorised (filters : List FwpmFilter) (c : Connect) : Bool :=
  (filters.map (·.subLayerKey)).all fun s ↦ !sublayerBlocks appId filters s c

/-- What is installed, for one server and one TUN. -/
structure Installed where
  serverIp : IpAddr
  tunLuid : BitVec 64
  /-- The transient cover, with its resolver permit. -/
  transient : Option (Option IpAddr)
  /-- The standing cover, with its listed images. -/
  lockdown : Option (List String)
  confined : Bool

namespace Installed

/-- The filters of the covers. -/
def coverSpecs (s : Installed) : List FilterSpec :=
  (s.transient.map fun r ↦ (buildCoverSpec s.serverIp r).filters).getD [] ++
    (s.lockdown.map fun apps ↦ (buildLockdownSpec s.serverIp s.tunLuid apps).filters).getD []

/-- The filters of the confinement. -/
def confineSpecs (s : Installed) : List Confine.FilterSpec :=
  if s.confined then Confine.buildSpec s.tunLuid s.serverIp else []

/-- All the filters. -/
def filters (s : Installed) : List FwpmFilter :=
  s.coverSpecs.map (·.encode appId) ++ s.confineSpecs.map (·.encode)

/-- What the covers are meant to let out. -/
def CoverAllows (s : Installed) (c : Connect) : Prop :=
  (s.transient = none ∧ s.lockdown = none) ∨
  c.loopback = true ∨ c.remote.isLoopback = true ∨
  c.remote = s.serverIp ∨
  (∃ r, s.transient = some (some r) ∧ c.remote = r ∧ c.protocol = ipprotoTcp ∧
    c.remotePort = resolverPermitPort) ∨
  ∃ apps, s.lockdown = some apps ∧
    (c.localInterface = s.tunLuid ∨ ∃ path ∈ apps, appId path = appId c.image)

/-- What the confinement is meant to let out. -/
def ConfineAllows (s : Installed) (c : Connect) : Prop := s.confined = false ∨ ¬c.IsDns ∨
  c.localInterface = s.tunLuid ∨ c.remote.isLoopback = true ∨ c.remote = s.serverIp

end Installed

variable {appId : String → Blob} {c : Connect}

/-! ### Conditions -/

theorem mask_eq (b : BitVec 32) : b &&& 0xFF000000#32 = (b >>> 24) <<< 24 := by
  have hmask : ∀ i < 32, (0xFF000000#32).getLsbD i = decide (24 ≤ i) := by decide
  ext i hi
  have hbit := hmask i hi
  rw [BitVec.getLsbD_eq_getElem hi] at hbit
  by_cases h : 24 ≤ i
  · have hadd : 24 + (i - 24) = i := by omega
    simp [hbit, h, hadd, BitVec.getLsbD_eq_getElem hi, Nat.not_lt.2 h]
  · have hlt : i < 24 := by omega
    simp [hbit, h, hlt]

/-- The range test of the filters is the loopback network. -/
theorem mask_loopback (b : BitVec 32) :
    b &&& 0xFF000000#32 = 0x7F000000#32 &&& 0xFF000000#32 ↔ b.toNat / 2 ^ 24 = 127 := by
  have hlt := b.isLt
  rw [mask_eq, ← BitVec.toNat_inj, BitVec.toNat_shiftLeft, BitVec.toNat_ushiftRight,
    Nat.shiftLeft_eq, Nat.shiftRight_eq_div_pow]
  have hval : (0x7F000000#32 &&& 0xFF000000#32).toNat = 127 * 2 ^ 24 := by decide
  rw [hval, Nat.mod_eq_of_lt (by omega)]
  omega

/-- When a condition of a cover matches. -/
def Condition.Matches (appId : String → Blob) (c : Connect) : Condition → Prop
  | loopback => c.loopback = true
  | loopbackNet v => Family.ofIp c.remote = v ∧ c.remote.isLoopback = true
  | remoteIp ip => c.remote = ip
  | remoteIpPortTcp ip port => c.remote = ip ∧ c.protocol = ipprotoTcp ∧ c.remotePort = port
  | localInterface luid => c.localInterface = luid
  | .appId path => appId c.image = appId path
  | any => True

theorem holds_remote {ip : IpAddr} :
    (FilterCondition.remote ip).holds appId c = true ↔ c.remote = ip := by
  cases ip <;> simp [FilterCondition.remote, FilterCondition.holds]

theorem holds_loopbackNet {v : Family} :
    ((Condition.loopbackNet v).encode appId).all (·.holds appId c) = true ↔
      Family.ofIp c.remote = v ∧ c.remote.isLoopback = true := by
  rcases c with ⟨bits | bits, port, protocol, luid, image, loopback⟩
  · cases v with
    | v4 =>
      simp only [Condition.encode, FilterCondition.holds, List.all_cons, List.all_nil,
        Bool.and_true, decide_eq_true_eq, mask_loopback, Family.ofIp, IpAddr.isLoopback, true_and,
        beq_iff_eq]
    | v6 => simp [Condition.encode, FilterCondition.holds, Family.ofIp]
  · cases v with
    | v4 => simp [Condition.encode, FilterCondition.holds, Family.ofIp]
    | v6 =>
      have hone : bits = 1#128 ↔ bits.toNat = 1 := by
        rw [← BitVec.toNat_inj]
        rfl
      simp [Condition.encode, FilterCondition.holds, Family.ofIp, IpAddr.isLoopback, hone]

/-- **The encoded conditions mean what the condition says.** -/
theorem holds_encode {condition : Condition} :
    (condition.encode appId).all (·.holds appId c) = true ↔ condition.Matches appId c := by
  cases condition with
  | loopbackNet v => exact holds_loopbackNet
  | remoteIp ip => simp [Condition.encode, Condition.Matches, holds_remote]
  | remoteIpPortTcp ip port =>
    cases ip <;>
      simp [Condition.encode, Condition.Matches, FilterCondition.remote, FilterCondition.holds]
  | loopback => simp [Condition.encode, Condition.Matches, FilterCondition.holds]
  | localInterface luid => simp [Condition.encode, Condition.Matches, FilterCondition.holds]
  | appId path => simp [Condition.encode, Condition.Matches, FilterCondition.holds]
  | any => simp [Condition.encode, Condition.Matches]

/-! ### The covers -/

/-- When a filter of a cover matches. -/
def FilterSpec.Hits (appId : String → Blob) (f : FilterSpec) (c : Connect) : Prop :=
  f.lifetime = .persistent ∧ f.layer = .connect (.ofIp c.remote) ∧ f.condition.Matches appId c

theorem hits_encode {f : FilterSpec} : (f.encode appId).hits appId c = true ↔ f.Hits appId c := by
  have hforce : (f.encode appId).inForce = true ↔ f.lifetime = .persistent := by
    show decide (filterFlags f.lifetime &&& flagBoottime = 0) = true ↔ _
    cases f.lifetime <;> decide
  rw [FwpmFilter.hits, Bool.and_eq_true, Bool.and_eq_true, hforce, decide_eq_true_eq, and_assoc]
  exact and_congr_right fun _ ↦ and_congr_right fun _ ↦ holds_encode

/-- Some permit of the list matches. -/
def Permits (appId : String → Blob) (fs : List FilterSpec) (c : Connect) : Prop :=
  ∃ f ∈ fs, f.action = .permit ∧ f.Hits appId c

/-- Some block of the list matches. -/
def Stops (appId : String → Blob) (fs : List FilterSpec) (c : Connect) : Prop :=
  ∃ f ∈ fs, f.action = .block ∧ f.Hits appId c

@[simp] theorem permits_append {fs gs : List FilterSpec} :
    Permits appId (fs ++ gs) c ↔ Permits appId fs c ∨ Permits appId gs c := by
  simp [Permits, or_and_right, exists_or]

@[simp] theorem stops_append {fs gs : List FilterSpec} :
    Stops appId (fs ++ gs) c ↔ Stops appId fs c ∨ Stops appId gs c := by
  simp [Stops, or_and_right, exists_or]

variable {guid : Family → Guid}

/-- A permit for both families is one for the connect's. -/
theorem permits_both {condition : Family → Condition} :
    Permits appId (both fun v ↦ permit (guid v) (.connect v) (condition v)) c ↔
      (condition (.ofIp c.remote)).Matches appId c := by
  simp only [Permits, both, permit, FilterSpec.Hits, List.mem_cons, List.not_mem_nil, or_false,
    exists_eq_or_imp, exists_eq_left, true_and, Layer.connect.injEq]
  cases Family.ofIp c.remote <;> simp

/-- The accept side of loopback is no connect. -/
theorem permits_recvAccept {condition : Family → Condition} :
    ¬Permits appId (both fun v ↦ permit (guid v) (.recvAccept v) (condition v)) c := by
  simp [Permits, both, permit, FilterSpec.Hits]

theorem permits_block :
    ¬Permits appId (both fun v ↦ block (guid v) (.connect v) .persistent) c := by
  simp [Permits, both, block]

/-- A permit for one address is in its family's layer. -/
theorem permits_remote {guid : Guid} {ip : IpAddr} {condition : Condition}
    (h : condition.Matches appId c → c.remote = ip) :
    Permits appId [permit guid (.connect (.ofIp ip)) condition] c ↔ condition.Matches appId c := by
  simp only [Permits, permit, FilterSpec.Hits, List.mem_singleton, exists_eq_left, true_and,
    Layer.connect.injEq]
  exact and_iff_right_of_imp fun hm ↦ by rw [h hm]

variable {appIds : List String}

theorem permits_appid :
    Permits appId (appidPermits appIds) c ↔ ∃ path ∈ appIds, appId path = appId c.image := by
  constructor
  · rintro ⟨f, hf, -, -, -, hm⟩
    obtain ⟨⟨path, i⟩, hmem, hf⟩ := List.mem_flatMap.1 hf
    have hpath : path ∈ appIds := List.fst_mem_of_mem_zipIdx hmem
    simp only [both, List.mem_cons, List.not_mem_nil, or_false] at hf
    rcases hf with rfl | rfl
    · exact ⟨path, hpath, Eq.symm hm⟩
    · exact ⟨path, hpath, Eq.symm hm⟩
  · rintro ⟨path, hpath, happ⟩
    obtain ⟨i, hmem⟩ : ∃ i, (path, i) ∈ appIds.zipIdx := by
      obtain ⟨i, hi, rfl⟩ := List.mem_iff_getElem.1 hpath
      exact ⟨i, List.mem_zipIdx_iff_getElem?.2 (by simp [hi])⟩
    have hboth : Permits appId
        (both fun v ↦ permit (appidFilterGuid i v) (.connect v) (.appId path)) c :=
      permits_both.2 happ.symm
    obtain ⟨f, hf, hpermits⟩ := hboth
    exact ⟨f, List.mem_flatMap.2 ⟨(path, i), hmem, hf⟩, hpermits⟩

/-- A block-all pair stops every connect. -/
theorem stops_blockAll : Stops appId (both fun v ↦ block (guid v) (.connect v) .persistent) c := by
  refine ⟨block (guid (.ofIp c.remote)) (.connect (.ofIp c.remote)) .persistent, ?_, rfl, rfl, rfl,
    trivial⟩
  cases Family.ofIp c.remote <;> simp [both]

variable {resolverIp : Option IpAddr}

theorem permits_resolver :
    Permits appId (resolverPermit resolverIp) c ↔
      ∃ r, resolverIp = some r ∧ c.remote = r ∧ c.protocol = ipprotoTcp ∧
        c.remotePort = resolverPermitPort := by
  rcases resolverIp with - | r
  · simp [resolverPermit, Permits]
  · have hremote : Permits appId (resolverPermit (some r)) c ↔ c.remote = r ∧
        c.protocol = ipprotoTcp ∧ c.remotePort = resolverPermitPort :=
      permits_remote And.left
    refine ⟨fun h ↦ ⟨r, rfl, hremote.1 h⟩, ?_⟩
    rintro ⟨r', hr, h⟩
    cases hr
    exact hremote.2 h

variable {serverIp : IpAddr}

/-- What the transient cover permits. -/
theorem permits_cover :
    Permits appId (buildCoverSpec serverIp resolverIp).filters c ↔
      c.loopback = true ∨ c.remote.isLoopback = true ∨ c.remote = serverIp ∨
      ∃ r, resolverIp = some r ∧ c.remote = r ∧ c.protocol = ipprotoTcp ∧
        c.remotePort = resolverPermitPort := by
  have hserver : Permits appId [permit (Transient.server (.ofIp serverIp))
      (.connect (.ofIp serverIp)) (.remoteIp serverIp)] c ↔ c.remote = serverIp :=
    permits_remote fun h ↦ h
  simp only [buildCoverSpec, permits_append, permits_both, permits_recvAccept, permits_block,
    permits_resolver, hserver, Condition.Matches, or_false, true_and]
  tauto

variable {tunLuid : BitVec 64}

/-- What the standing cover permits. -/
theorem permits_lockdown :
    Permits appId (buildLockdownSpec serverIp tunLuid appIds).filters c ↔
      c.loopback = true ∨ c.remote.isLoopback = true ∨ c.remote = serverIp ∨
      c.localInterface = tunLuid ∨ ∃ path ∈ appIds, appId path = appId c.image := by
  have hserver : Permits appId [permit (Lockdown.server (.ofIp serverIp))
      (.connect (.ofIp serverIp)) (.remoteIp serverIp)] c ↔ c.remote = serverIp :=
    permits_remote fun h ↦ h
  have htwins : ¬Permits appId
      (lockdownBoottimeTwins.map fun t ↦ block t.guid t.layer .bootTime) c := by
    simp [Permits, block]
  simp only [buildLockdownSpec, permits_append, permits_both, permits_recvAccept, permits_block,
    permits_appid, hserver, htwins, Condition.Matches, or_false, true_and]
  generalize (∃ path ∈ appIds, appId path = appId c.image) = listed
  tauto

/-- Permits weigh more than blocks. -/
def FilterSpec.Weighted (f : FilterSpec) : Prop := f.weight = match f.action with
    | .permit => permitWeight
    | .block => blockWeight

theorem weighted_both {f : Family → FilterSpec} {g : FilterSpec} (hg : g ∈ both f)
    (h : ∀ v, (f v).Weighted) : g.Weighted := by
  simp only [both, List.mem_cons, List.not_mem_nil, or_false] at hg
  rcases hg with rfl | rfl
  · exact h .v4
  · exact h .v6

theorem weighted_cover : ∀ f ∈ (buildCoverSpec serverIp resolverIp).filters, f.Weighted := by
  intro f hf
  rcases mem_buildCoverSpec.1 hf with hf | rfl | hf
  · simp only [transientFloor, List.mem_append] at hf
    rcases hf with ((hf | hf) | hf) | hf <;> exact weighted_both hf fun _ ↦ rfl
  · rfl
  · rcases resolverIp with - | r
    · cases hf
    · obtain rfl := List.mem_singleton.1 hf
      rfl

theorem weighted_lockdown :
    ∀ f ∈ (buildLockdownSpec serverIp tunLuid appIds).filters, f.Weighted := by
  intro f hf
  rcases mem_buildLockdownSpec.1 hf with hf | hf | hf | rfl | hf
  · simp only [lockdownFloor, List.mem_append] at hf
    rcases hf with ((hf | hf) | hf) | hf <;> exact weighted_both hf fun _ ↦ rfl
  · exact weighted_both hf fun _ ↦ rfl
  · obtain ⟨i, -, v, path, rfl⟩ := mem_appidPermits hf
    rfl
  · rfl
  · obtain ⟨t, -, rfl⟩ := List.mem_map.1 hf
    rfl

theorem Installed.weighted (s : Installed) : ∀ f ∈ s.coverSpecs, f.Weighted := by
  intro f hf
  rcases List.mem_append.1 hf with hf | hf
  · rcases ht : s.transient with - | r
    · simp [ht] at hf
    · exact weighted_cover f (by simpa [ht] using hf)
  · rcases hl : s.lockdown with - | apps
    · simp [hl] at hf
    · exact weighted_lockdown f (by simpa [hl] using hf)

/-- Rules whose weights follow their verdicts are layered. -/
theorem layered_of_weights {rules : List (Rule Connect Nat)}
    (h : ∀ r ∈ rules, r.weight = match r.verdict with
      | .permit => permitWeight.toNat
      | .block => blockWeight.toNat) : Layered rules := by
  intro r hr r' hr' hpermit hblock
  rw [h r hr, h r' hr', hpermit, hblock]
  decide

theorem verdict_rule (f : FwpmFilter) :
    ((f.rule appId).verdict = .permit ↔ f.action = .permit) ∧
      ((f.rule appId).verdict = .block ↔ f.action = .block) := by
  obtain ⟨key, flags, provider, layer, sublayer, weight, conditions, action⟩ := f
  cases action <;> simp [FwpmFilter.rule]

/-- The rules of filters whose weights follow their actions: **a connect is blocked exactly when
some block matches it and no permit does**. -/
theorem blocks_rules {fs : List FwpmFilter} (hw : ∀ f ∈ fs, f.weight = match f.action with
      | .permit => permitWeight
      | .block => blockWeight) :
    blocks (fs.map (·.rule appId)) c = true ↔
      (∃ f ∈ fs, f.action = .block ∧ f.hits appId c = true) ∧
        ¬∃ f ∈ fs, f.action = .permit ∧ f.hits appId c = true := by
  have hlayered : Layered (fs.map (·.rule appId)) := by
    refine layered_of_weights fun r hr ↦ ?_
    obtain ⟨f, hf, rfl⟩ := List.mem_map.1 hr
    have hweight := hw f hf
    obtain ⟨key, flags, provider, layer, sublayer, weight, conditions, action⟩ := f
    cases action <;> exact congrArg BitVec.toNat hweight
  rw [blocks_iff hlayered]
  refine and_congr ⟨?_, ?_⟩ ⟨?_, ?_⟩
  · rintro ⟨r, hr, hblock, hhit⟩
    obtain ⟨f, hf, rfl⟩ := List.mem_map.1 hr
    exact ⟨f, hf, (verdict_rule f).2.1 hblock, hhit⟩
  · rintro ⟨f, hf, hblock, hhit⟩
    exact ⟨_, List.mem_map_of_mem hf, (verdict_rule f).2.2 hblock, hhit⟩
  · rintro hno ⟨f, hf, hpermit, hhit⟩
    have hmiss := hno _ (List.mem_map_of_mem hf) ((verdict_rule f).1.2 hpermit)
    exact Bool.false_ne_true (hmiss.symm.trans hhit)
  · intro hno r hr hpermit
    obtain ⟨f, hf, rfl⟩ := List.mem_map.1 hr
    rw [Bool.eq_false_iff]
    exact fun hhit ↦ hno ⟨f, hf, (verdict_rule f).1.1 hpermit, hhit⟩

/-- The sublayer of the covers. -/
theorem blocks_covers {fs : List FilterSpec} (hw : ∀ f ∈ fs, f.Weighted) :
    blocks ((fs.map (·.encode appId)).map (·.rule appId)) c = true ↔
      Stops appId fs c ∧ ¬Permits appId fs c := by
  have hmap (a : Action) : (∃ g ∈ fs.map (·.encode appId), g.action = a ∧ g.hits appId c = true) ↔
      ∃ f ∈ fs, f.action = a ∧ f.Hits appId c := by
    simp only [List.mem_map, exists_exists_and_eq_and, hits_encode]
    rfl
  rw [blocks_rules, hmap, hmap]
  · rfl
  · intro g hg
    obtain ⟨f, hf, rfl⟩ := List.mem_map.1 hg
    exact hw f hf

/-- **What the covers block**: everything that is not let out, once one is installed. -/
theorem blocks_coverSpecs (s : Installed) :
    blocks ((s.coverSpecs.map (·.encode appId)).map (·.rule appId)) c = false ↔
      s.CoverAllows appId c := by
  rw [← Bool.not_eq_true, blocks_covers s.weighted]
  obtain ⟨serverIp, tunLuid, transient, lockdown, confined⟩ := s
  have hstopsCover (r : Option IpAddr) : Stops appId (buildCoverSpec serverIp r).filters c := by
    simp only [buildCoverSpec, stops_append]
    exact .inr stops_blockAll
  have hstopsLockdown (apps : List String) :
      Stops appId (buildLockdownSpec serverIp tunLuid apps).filters c := by
    simp only [buildLockdownSpec, stops_append]
    exact .inl (.inr stops_blockAll)
  have hnone : ¬Stops appId [] c := by simp [Stops]
  rcases transient with - | r <;> rcases lockdown with - | apps <;>
    simp only [Installed.coverSpecs, Installed.CoverAllows, Option.map_none, Option.map_some,
      Option.getD_none, Option.getD_some, List.nil_append, List.append_nil, permits_append,
      stops_append, permits_cover, permits_lockdown, hstopsCover, hstopsLockdown, hnone,
      Option.some.injEq, reduceCtorEq, false_and, and_false, exists_false, exists_eq_left', true_or,
      true_and, and_true, or_self, or_false, false_or, not_not, not_false_eq_true]
  · generalize (∃ r', r = some r' ∧ c.remote = r' ∧ _) = resolver
    generalize (∃ path ∈ apps, appId path = appId c.image) = listed
    tauto

/-! ### The confinement -/

/-- When a condition of the confinement matches. -/
def Confine.Condition.Matches (c : Connect) : Confine.Condition → Prop
  | onInterface luid l4 port =>
    c.localInterface = luid ∧ c.protocol = l4.ipproto ∧ c.remotePort = port
  | loopbackNet v l4 port =>
    (Family.ofIp c.remote = v ∧ c.remote.isLoopback = true) ∧
      c.protocol = l4.ipproto ∧ c.remotePort = port
  | .serverIp ip => c.remote = ip
  | anyTo l4 port => c.protocol = l4.ipproto ∧ c.remotePort = port

theorem holds_confine {condition : Confine.Condition} :
    condition.encode.all (·.holds appId c) = true ↔ condition.Matches c := by
  cases condition with
  | onInterface luid l4 port =>
    simp [Confine.Condition.encode, Confine.Condition.Matches, FilterCondition.holds]
  | loopbackNet v l4 port =>
    have hnet : (Confine.Condition.loopbackNet v l4 port).encode =
        (Condition.loopbackNet v).encode appId ++ [.protocol l4.ipproto, .remotePort port] := by
      cases v <;> rfl
    rw [hnet, List.all_append, Bool.and_eq_true, holds_loopbackNet]
    simp [Confine.Condition.Matches, FilterCondition.holds]
  | serverIp ip => simp [Confine.Condition.encode, Confine.Condition.Matches, holds_remote]
  | anyTo l4 port =>
    simp [Confine.Condition.encode, Confine.Condition.Matches, FilterCondition.holds]

/-- When a filter of the confinement matches. -/
def Confine.FilterSpec.Hits (f : Confine.FilterSpec) (c : Connect) : Prop :=
  f.layer = .ofIp c.remote ∧ f.condition.Matches c

variable {f : Confine.FilterSpec}

theorem hits_confine : f.encode.hits appId c = true ↔ f.Hits c := by
  have hforce : f.encode.inForce = true := by
    show decide ((0#32 : BitVec 32) &&& flagBoottime = 0) = true
    decide
  have hlayer : f.encode.layerKey = .connect (.ofIp c.remote) ↔ f.layer = .ofIp c.remote :=
    ⟨Layer.connect.inj, congrArg Layer.connect⟩
  rw [FwpmFilter.hits, hforce, Bool.true_and, Bool.and_eq_true, decide_eq_true_eq, hlayer]
  exact and_congr_right fun _ ↦ holds_confine

/-- A filter of the confinement: one of the three of a protocol and a family, or the server's. -/
theorem mem_confine :
    f ∈ Confine.buildSpec tunLuid serverIp ↔ (∃ l4 v, f ∈ Confine.dnsFilters tunLuid l4 v) ∨
      f = ⟨"dns-confine-server-permit", .ofIp serverIp, .permit, .serverIp serverIp,
        permitWeight⟩ := by
  have hl4 (l4 : Confine.L4) : l4 ∈ [Confine.L4.udp, .tcp] := by cases l4 <;> simp
  have hv (v : Family) : v ∈ [Family.v4, .v6] := by cases v <;> simp
  simp only [Confine.buildSpec, List.mem_append, List.mem_flatMap, hl4, hv, true_and,
    List.mem_singleton]

theorem weighted_confine (hf : f ∈ Confine.buildSpec tunLuid serverIp) :
    f.weight = match f.action with
      | .permit => permitWeight
      | .block => blockWeight := by
  rcases mem_confine.1 hf with ⟨l4, v, hf⟩ | rfl
  · simp only [Confine.dnsFilters, List.mem_cons, List.not_mem_nil, or_false] at hf
    rcases hf with rfl | rfl | rfl <;> rfl
  · rfl

theorem isDns_iff : c.IsDns ↔ ∃ l4 : Confine.L4, c.protocol = l4.ipproto ∧
    c.remotePort = 53#16 := by
  constructor
  · rintro ⟨h | h, hport⟩
    · exact ⟨.udp, h, hport⟩
    · exact ⟨.tcp, h, hport⟩
  · rintro ⟨l4, h, hport⟩
    cases l4 with
    | udp => exact ⟨.inl h, hport⟩
    | tcp => exact ⟨.inr h, hport⟩

/-- What the confinement blocks, before its permits. -/
theorem stops_confine :
    (∃ f ∈ Confine.buildSpec tunLuid serverIp, f.action = .block ∧ f.Hits c) ↔ c.IsDns := by
  rw [isDns_iff]
  constructor
  · rintro ⟨f, hf, haction, -, hm⟩
    rcases mem_confine.1 hf with ⟨l4, v, hf⟩ | rfl
    · simp only [Confine.dnsFilters, List.mem_cons, List.not_mem_nil, or_false] at hf
      rcases hf with rfl | rfl | rfl
      · cases haction
      · cases haction
      · exact ⟨l4, hm⟩
    · cases haction
  · rintro ⟨l4, hm⟩
    refine ⟨⟨"dns-confine-block", .ofIp c.remote, .block, .anyTo l4 Confine.dnsPort, blockWeight⟩,
      mem_confine.2 (.inl ⟨l4, .ofIp c.remote, ?_⟩), rfl, rfl, hm⟩
    exact .tail _ (.tail _ (.head _))

/-- What the confinement permits. -/
theorem permits_confine :
    (∃ f ∈ Confine.buildSpec tunLuid serverIp, f.action = .permit ∧ f.Hits c) ↔
      (c.IsDns ∧ (c.localInterface = tunLuid ∨ c.remote.isLoopback = true)) ∨
        c.remote = serverIp := by
  rw [isDns_iff]
  constructor
  · rintro ⟨f, hf, haction, hlayer, hm⟩
    rcases mem_confine.1 hf with ⟨l4, v, hf⟩ | rfl
    · simp only [Confine.dnsFilters, List.mem_cons, List.not_mem_nil, or_false] at hf
      rcases hf with rfl | rfl | rfl
      · exact .inl ⟨⟨l4, hm.2⟩, .inl hm.1⟩
      · exact .inl ⟨⟨l4, hm.2⟩, .inr hm.1.2⟩
      · cases haction
    · exact .inr hm
  · rintro (⟨⟨l4, hdns⟩, htun | hloopback⟩ | hserver)
    · refine ⟨_, mem_confine.2 (.inl ⟨l4, .ofIp c.remote, .head _⟩), rfl, rfl, ?_⟩
      exact ⟨htun, hdns⟩
    · refine ⟨⟨"dns-confine-loopback-permit", .ofIp c.remote, .permit,
        .loopbackNet (.ofIp c.remote) l4 Confine.dnsPort, permitWeight⟩,
        mem_confine.2 (.inl ⟨l4, .ofIp c.remote, ?_⟩), rfl, rfl, ⟨rfl, hloopback⟩, hdns⟩
      exact .tail _ (.head _)
    · refine ⟨_, mem_confine.2 (.inr rfl), rfl, ?_, hserver⟩
      rw [hserver]

/-- **What the confinement blocks**: DNS that leaves elsewhere than over the TUN, to loopback or
to the server. -/
theorem blocks_confineSpecs (s : Installed) :
    blocks ((s.confineSpecs.map (·.encode)).map (·.rule appId)) c = false ↔ s.ConfineAllows c := by
  rcases hconfined : s.confined with - | -
  · simp [Installed.confineSpecs, Installed.ConfineAllows, hconfined, blocks, top, topFrom]
  · have hmap (a : Action) : (∃ g ∈ s.confineSpecs.map (·.encode),
        g.action = a ∧ g.hits appId c = true) ↔
        ∃ f ∈ Confine.buildSpec s.tunLuid s.serverIp, f.action = a ∧ f.Hits c := by
      simp only [Installed.confineSpecs, hconfined, if_true, List.mem_map, exists_exists_and_eq_and,
        hits_confine]
      rfl
    rw [← Bool.not_eq_true, blocks_rules, hmap, hmap, stops_confine, permits_confine]
    · simp only [Installed.ConfineAllows, hconfined, Connect.IsDns]
      tauto
    · intro g hg
      obtain ⟨f, hf, rfl⟩ := List.mem_map.1 hg
      simp only [Installed.confineSpecs, hconfined, if_true] at hf
      exact weighted_confine hf

/-! ### The two sublayers -/

theorem confineSublayer_ne : Confine.confineSublayer ≠ sublayerGuid := by decide

variable (appId) in
/-- A sublayer holds the filters of the covers, or those of the confinement. -/
theorem sublayer_filters (s : Installed) :
    (s.filters appId).filter (·.subLayerKey = sublayerGuid) = s.coverSpecs.map (·.encode appId) ∧
      (s.filters appId).filter (·.subLayerKey = Confine.confineSublayer) =
        s.confineSpecs.map (·.encode) := by
  have hcover (f : FilterSpec) : (f.encode appId).subLayerKey = sublayerGuid := rfl
  have hconfine (f : Confine.FilterSpec) : f.encode.subLayerKey = Confine.confineSublayer := rfl
  simp [Installed.filters, List.filter_append, List.filter_map, Function.comp_def, hcover, hconfine,
    confineSublayer_ne, Ne.symm confineSublayer_ne]

/-- A sublayer without filters blocks nothing, so both can be asked. -/
theorem authorised_sublayers (s : Installed) :
    authorised appId (s.filters appId) c = true ↔
      sublayerBlocks appId (s.filters appId) sublayerGuid c = false ∧
        sublayerBlocks appId (s.filters appId) Confine.confineSublayer c = false := by
  obtain ⟨hcover, hconfine⟩ := sublayer_filters appId s
  simp only [authorised, List.all_map, List.all_eq_true, Function.comp_apply, Bool.not_eq_true']
  constructor
  · intro h
    constructor
    · rcases hspecs : s.coverSpecs with - | ⟨f, fs⟩
      · rw [sublayerBlocks, hcover, hspecs]
        rfl
      · exact h (f.encode appId) (List.mem_append_left _ (by simp [hspecs]))
    · rcases hspecs : s.confineSpecs with - | ⟨f, fs⟩
      · rw [sublayerBlocks, hconfine, hspecs]
        rfl
      · exact h f.encode (List.mem_append_right _ (by simp [hspecs]))
  · rintro ⟨hopen, hopenDns⟩ f hf
    rcases List.mem_append.1 hf with hf | hf
    · obtain ⟨g, -, rfl⟩ := List.mem_map.1 hf
      exact hopen
    · obtain ⟨g, -, rfl⟩ := List.mem_map.1 hf
      exact hopenDns

/-- **What the Windows covers let out.** -/
theorem authorised_iff (appId : String → Blob) (s : Installed) (c : Connect) :
    authorised appId (s.filters appId) c = true ↔ s.CoverAllows appId c ∧ s.ConfineAllows c := by
  obtain ⟨hcover, hconfine⟩ := sublayer_filters appId s
  rw [authorised_sublayers, sublayerBlocks, sublayerBlocks, hcover, hconfine, blocks_coverSpecs,
    blocks_confineSpecs]

end Hole.Wfp
