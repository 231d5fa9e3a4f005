import Hole.FailClosed.PfText
import Hole.Net.SocketAddr

/-!
# What the macOS covers let out

pf's evaluation of the loaded texts: an interface under `set skip` is not filtered, a translation
rule with the `pass` modifier lets its packets out past the filter rules, a `quick` rule decides
at once and otherwise the last match does. Which translation rule takes a packet is pf's affair
and the host's (`Translator`); the texts only carry the rules.

The transient cover lets out what it is meant to (`passes_transient`). The standing cover permits
the server by TCP alone and keeps the host's `pass` translations, so it agrees with its policy
exactly on the packets of `exact_iff`.
-/

namespace Hole.PfText

open Arbitration Text FailClosed

/-! ### Evaluation -/

/-- `IPPROTO_TCP`. -/
def ipprotoTcp : BitVec 8 := 6#8

/-- `IPPROTO_UDP`. -/
def ipprotoUdp : BitVec 8 := 17#8

/-- An outbound packet without a state entry. -/
structure Packet where
  iface : String
  dst : IpAddr
  protocol : BitVec 8
  dstPort : BitVec 16
  /-- Of the flags SYN and ACK, SYN alone is set. -/
  opens : Bool

/-- When a rule matches an outbound packet. A `pass` that keeps state matches TCP by its opening
segment only. -/
def FilterRule.hits (r : FilterRule) (p : Packet) : Bool :=
  r.direction.all (· = .outward) && r.iface.all (· = p.iface) &&
    r.inet6.all (· = !p.dst.isIpv4) && r.proto.all (· = p.protocol) && r.dst.all (· = p.dst) &&
    r.port.all (· = p.dstPort) &&
    (r.action = .block || r.noState || p.protocol ≠ ipprotoTcp || p.opens)

/-- A filter rule in the order of its section. -/
def FilterRule.clause (r : FilterRule) : Clause Packet := ⟨r.quick, r.action, r.hits⟩

/-- pf's choice of a translation rule for an outbound packet: one of the section, or one that an
anchor of the section holds. -/
structure Translator where
  /-- The rule that takes a packet. -/
  rule : List Translation → Packet → Option Translation
  /-- Where it comes from. -/
  rule_mem : ∀ {ts p t}, rule ts p = some t → t ∈ ts ∨ ∃ a ∈ ts, a.anchor = true

/-- Whether a `pass` translation takes a packet. -/
def Translator.lets (pf : Translator) (ts : List Translation) (p : Packet) : Bool :=
  (pf.rule ts p).any (·.pass)

/-- Whether a loaded ruleset passes a packet. -/
def Loaded.passes (pf : Translator) (l : Loaded) (p : Packet) : Bool :=
  l.skip.contains p.iface || pf.lets l.translations p ||
    verdictFrom p .permit (l.filters.map (·.clause)) = .permit

/-! ### The session's transports -/

/-- `garter::Transports`. -/
structure Transports where
  tcp : Bool
  udp : Bool

/-- A running plugin chain, as far as the start reads it. -/
structure PluginChain where
  /-- Where shadowsocks reaches the chain. -/
  localAddr : SocketAddr
  transports : Transports

/-! ### The policy -/

/-- A session, and the host it runs on. -/
structure Session where
  serverIp : IpAddr
  resolverIp : Option IpAddr
  tunName : String
  /-- An interface's name is one word. -/
  isWord_tunName : IsWord tunName
  /-- The host's translation rules. -/
  nat : NatSnapshot
  chain : Option PluginChain

namespace Session

/-- What the transient cover is meant to let out. -/
def TransientAllows (s : Session) (p : Packet) : Prop :=
  p.iface = "lo0" ∨ p.dst = s.serverIp ∨
    ∃ r, s.resolverIp = some r ∧ p.dst = r ∧ p.protocol = ipprotoTcp ∧ p.dstPort = 443#16

/-- A protocol the session uses towards the server. -/
def Uses (s : Session) (protocol : BitVec 8) : Prop :=
  protocol = ipprotoTcp ∨ (protocol = ipprotoUdp ∧ s.chain = none)

/-- What the standing cover is meant to let out. -/
def LockdownAllows (s : Session) (p : Packet) : Prop :=
  p.iface = "lo0" ∨ p.iface = s.tunName ∨ (p.dst = s.serverIp ∧ s.Uses p.protocol)

/-- The text of the transient cover loads, and lets out what it is meant to. -/
def TransientExact (pf : Translator) (s : Session) (p : Packet) : Prop :=
  ∃ l, load (text ⟨"", .transient s.serverIp s.resolverIp⟩) = some l ∧
    (l.passes pf p = true ↔ s.TransientAllows p)

/-- The text of the standing cover loads, and lets out what it is meant to. -/
def LockdownExact (pf : Translator) (s : Session) (p : Packet) : Prop :=
  ∃ l, load (text ⟨s.nat.text, .lockdown s.tunName s.serverIp⟩) = some l ∧
    (l.passes pf p = true ↔ s.LockdownAllows p)

/-- UDP that a session without a plugin sends to its server, elsewhere than on loopback and the
TUN. -/
def OwnUdp (s : Session) (p : Packet) : Prop :=
  s.chain = none ∧ p.protocol = ipprotoUdp ∧ p.dst = s.serverIp ∧ p.iface ≠ "lo0" ∧
    p.iface ≠ s.tunName

end Session

/-! ### The verdicts -/

variable {pf : Translator} {p : Packet}

theorem all_eq_iff {α : Type} [DecidableEq α] {o : Option α} {x : α} :
    o.all (· = x) = true ↔ ∀ a ∈ o, x = a := by
  rcases o with - | a
  · simp
  · simp [eq_comm]

theorem hits_passOut {iface : Option String} {proto : Option (BitVec 8)} {dst : Option IpAddr}
    {port : Option (BitVec 16)} :
    (passOut iface proto dst port).hits p = true ↔
      (∀ i ∈ iface, p.iface = i) ∧ (∀ n ∈ proto, p.protocol = n) ∧ (∀ ip ∈ dst, p.dst = ip) ∧
        ∀ n ∈ port, p.dstPort = n := by
  simp only [FilterRule.hits, passOut, Bool.and_eq_true, all_eq_iff, and_assoc]
  simp

theorem hits_loopbackIn : loopbackIn.hits p = false := by
  simp [FilterRule.hits, loopbackIn]

theorem isPermit_passOut {iface : Option String} {proto : Option (BitVec 8)} {dst : Option IpAddr}
    {port : Option (BitVec 16)} : (passOut iface proto dst port).clause.IsPermit :=
  ⟨rfl, rfl⟩

theorem isPermit_loopbackIn : loopbackIn.clause.IsPermit := ⟨rfl, rfl⟩

/-- Permits in front of the rest of a section. -/
theorem permit_append {d : Verdict} {rs rest : List FilterRule} (h : ∀ r ∈ rs, r.clause.IsPermit) :
    verdictFrom p d ((rs ++ rest).map (·.clause)) = .permit ↔
      (∃ r ∈ rs, r.hits p = true) ∨ verdictFrom p d (rest.map (·.clause)) = .permit := by
  have hpermits : ∀ c ∈ rs.map (·.clause), c.IsPermit := by
    intro c hc
    obtain ⟨r, hr, rfl⟩ := List.mem_map.1 hc
    exact h r hr
  rw [List.map_append, verdictFrom_permits hpermits]
  simp [FilterRule.clause]

variable {resolverIp : Option IpAddr}

theorem mem_resolverRules {r : FilterRule} :
    r ∈ resolverRules resolverIp ↔
      ∃ ip, resolverIp = some ip ∧ r = passOut none (some 6#8) (some ip) (some 443#16) := by
  rcases resolverIp with - | ip
  · simp [resolverRules]
  · simp [resolverRules]

theorem hits_resolverRules :
    (∃ r ∈ resolverRules resolverIp, r.hits p = true) ↔
      ∃ r, resolverIp = some r ∧ p.dst = r ∧ p.protocol = ipprotoTcp ∧ p.dstPort = 443#16 := by
  constructor
  · rintro ⟨r, hr, hhits⟩
    obtain ⟨ip, hip, rfl⟩ := mem_resolverRules.1 hr
    obtain ⟨-, hproto, hdst, hport⟩ := hits_passOut.1 hhits
    exact ⟨ip, hip, hdst ip rfl, hproto _ rfl, hport _ rfl⟩
  · rintro ⟨ip, hip, hdst, hproto, hport⟩
    refine ⟨_, mem_resolverRules.2 ⟨ip, hip, rfl⟩, hits_passOut.2 ⟨nofun, ?_, ?_, ?_⟩⟩
    · rintro n ⟨rfl⟩
      exact hproto
    · rintro n ⟨rfl⟩
      exact hdst
    · rintro n ⟨rfl⟩
      exact hport

/-- The loopback passes. -/
theorem hits_loopbackRules :
    (∃ r ∈ [passOut (some "lo0") none none none, loopbackIn], r.hits p = true) ↔
      p.iface = "lo0" := by
  simp [hits_passOut, hits_loopbackIn]

variable {serverIp : IpAddr}

/-- The filter section of a transient cover. -/
theorem permit_transientRules :
    verdictFrom p .permit ((transientRules serverIp resolverIp).map (·.clause)) = .permit ↔
      p.iface = "lo0" ∨ p.dst = serverIp ∨
        ∃ r, resolverIp = some r ∧ p.dst = r ∧ p.protocol = ipprotoTcp ∧ p.dstPort = 443#16 := by
  have hblock : blockOut.hits p = true := by simp [FilterRule.hits, blockOut]
  have hpermits : ∀ r ∈ passOut none none (some serverIp) none :: resolverRules resolverIp,
      r.clause.IsPermit := by
    intro r hr
    rcases List.mem_cons.1 hr with rfl | hr
    · exact isPermit_passOut
    · obtain ⟨ip, -, rfl⟩ := mem_resolverRules.1 hr
      exact isPermit_passOut
  have hrules : transientRules serverIp resolverIp =
      [passOut (some "lo0") none none none, loopbackIn] ++
        blockOut :: (passOut none none (some serverIp) none :: resolverRules resolverIp ++ []) := by
    simp [transientRules]
  rw [hrules, permit_append (by simp [isPermit_passOut, isPermit_loopbackIn]), List.map_cons,
    verdictFrom_block rfl hblock, permit_append hpermits, hits_loopbackRules]
  -- the remembered block stands unless a later permit matches
  simp only [List.exists_mem_cons_iff, hits_resolverRules, List.map_nil, verdictFrom, reduceCtorEq,
    or_false]
  simp [FilterRule.clause, blockOut, hits_passOut]

/-- The filter section of a standing cover. -/
theorem permit_lockdownRules {tunName : String} :
    verdictFrom p .permit ((lockdownRules tunName serverIp).map (·.clause)) = .permit ↔
      p.iface = "lo0" ∨ (p.dst = serverIp ∧ p.protocol = ipprotoTcp) ∨ p.iface = tunName := by
  have hall : (blockOutQuick none (some "\"hole-lockdown\"")).hits p = true := by
    simp [FilterRule.hits, blockOutQuick]
  have hblocks : verdictFrom p .permit ([blockOutQuick (some true) none,
      blockOutQuick none (some "\"hole-lockdown\"")].map (·.clause)) ≠ .permit := by
    rcases hinet6 : (blockOutQuick (some true) none).hits p with - | -
    · rw [List.map_cons, verdictFrom_skip hinet6, List.map_cons, ne_eq, verdictFrom_block rfl hall]
      simp [FilterRule.clause, blockOutQuick]
    · rw [List.map_cons, ne_eq, verdictFrom_block rfl hinet6]
      simp [FilterRule.clause, blockOutQuick]
  have hrules : lockdownRules tunName serverIp =
      [passOut (some "lo0") none none none, loopbackIn] ++
        ([passOut none (some 6#8) (some serverIp) none, passOut (some tunName) none none none] ++
          [blockOutQuick (some true) none, blockOutQuick none (some "\"hole-lockdown\"")]) := rfl
  rw [hrules, permit_append (by simp [isPermit_passOut, isPermit_loopbackIn]),
    permit_append (by simp [isPermit_passOut]), hits_loopbackRules]
  simp only [hblocks, or_false, List.exists_mem_cons_iff, List.not_mem_nil, false_and, exists_false,
    hits_passOut]
  simp [ipprotoTcp, and_comm]

theorem lets_nil : pf.lets [] p = false := by
  rcases hrule : pf.rule [] p with - | t
  · simp [Translator.lets, hrule]
  · rcases pf.rule_mem hrule with hmem | ⟨a, hmem, -⟩
    · cases hmem
    · cases hmem

/-- **What the transient cover lets out.** -/
theorem passes_transient :
    (⟨["lo0"], [], transientRules serverIp resolverIp⟩ : Loaded).passes pf p = true ↔
      p.iface = "lo0" ∨ p.dst = serverIp ∨
        ∃ r, resolverIp = some r ∧ p.dst = r ∧ p.protocol = ipprotoTcp ∧ p.dstPort = 443#16 := by
  simp only [Loaded.passes, lets_nil, Bool.or_false, Bool.or_eq_true, decide_eq_true_eq,
    permit_transientRules, List.contains_cons, List.contains_nil, beq_iff_eq]
  exact or_self_left

/-- **What the standing cover lets out.** -/
theorem passes_lockdown {tunName : String} {ts : List Translation} :
    (⟨["lo0"], ts, lockdownRules tunName serverIp⟩ : Loaded).passes pf p = true ↔
      pf.lets ts p = true ∨ p.iface = "lo0" ∨ (p.dst = serverIp ∧ p.protocol = ipprotoTcp) ∨
        p.iface = tunName := by
  simp only [Loaded.passes, Bool.or_false, Bool.or_eq_true, decide_eq_true_eq,
    permit_lockdownRules, List.contains_cons, List.contains_nil, beq_iff_eq]
  tauto

theorem transientExact (s : Session) : s.TransientExact pf p :=
  ⟨_, load_buildPfRuleset s.serverIp s.resolverIp, passes_transient⟩

theorem lockdownExact_iff (s : Session) :
    s.LockdownExact pf p ↔
      ((pf.lets s.nat.translations p = true ∨ p.iface = "lo0" ∨
        (p.dst = s.serverIp ∧ p.protocol = ipprotoTcp) ∨ p.iface = s.tunName) ↔
          s.LockdownAllows p) := by
  have hload := load_buildLockdownMainRuleset s.isWord_tunName s.serverIp s.nat
  constructor
  · rintro ⟨l, hl, hiff⟩
    obtain rfl := Option.mem_unique hl hload
    rwa [passes_lockdown] at hiff
  · intro hiff
    exact ⟨_, hload, passes_lockdown.trans hiff⟩

/-- **Where the covers let out exactly what they are meant to**: where no `pass` translation of
the host takes a packet that the policy holds back, and the session's own UDP is not concerned,
or such a translation happens to take it. -/
theorem exact_iff (pf : Translator) (s : Session) (p : Packet) :
    (s.TransientExact pf p ∧ s.LockdownExact pf p) ↔
      (pf.lets s.nat.translations p = true → s.LockdownAllows p) ∧
        (s.OwnUdp p → pf.lets s.nat.translations p = true) := by
  rw [lockdownExact_iff, and_iff_right (transientExact s)]
  constructor
  · intro hiff
    refine ⟨fun hlets ↦ hiff.1 (.inl hlets), ?_⟩
    rintro ⟨hchain, hudp, hdst, hlo, htun⟩
    have hallows : s.LockdownAllows p := .inr (.inr ⟨hdst, .inr ⟨hudp, hchain⟩⟩)
    rcases hiff.2 hallows with hlets | h | ⟨-, htcp⟩ | h
    · exact hlets
    · exact absurd h hlo
    · exact absurd (hudp.symm.trans htcp) (by decide)
    · exact absurd h htun
  · rintro ⟨hlets, hown⟩
    constructor
    · rintro (h | hlo | ⟨hdst, htcp⟩ | htun)
      · exact hlets h
      · exact .inl hlo
      · exact .inr (.inr ⟨hdst, .inl htcp⟩)
      · exact .inr (.inl htun)
    · rintro (hlo | htun | ⟨hdst, htcp | ⟨hudp, hchain⟩⟩)
      · exact .inr (.inl hlo)
      · exact .inr (.inr (.inr htun))
      · exact .inr (.inr (.inl ⟨hdst, htcp⟩))
      · -- only a translation of the host can let the session's own UDP out
        by_cases hlo : p.iface = "lo0"
        · exact .inr (.inl hlo)
        · by_cases htun : p.iface = s.tunName
          · exact .inr (.inr (.inr htun))
          · exact .inl (hown ⟨hchain, hudp, hdst, hlo, htun⟩)

/-- A host that translates nothing. -/
def noTranslation : Translator := ⟨fun _ _ ↦ none, nofun⟩

/-- A session without a plugin. -/
def bareSession : Session where
  serverIp := .ofOctets 203 0 113 7
  resolverIp := none
  tunName := "utun4"
  isWord_tunName := by decide
  nat := ⟨"", by decide⟩
  chain := none

/-- A datagram that shadowsocks sends to the server. -/
def relayed : Packet where
  iface := "en0"
  dst := .ofOctets 203 0 113 7
  protocol := ipprotoUdp
  dstPort := 8388#16
  opens := false

/-- **The standing cover drops the session's own UDP.** -/
theorem not_exact_bareSession :
    ¬(bareSession.TransientExact noTranslation relayed ∧
      bareSession.LockdownExact noTranslation relayed) := by
  rintro ⟨-, hexact⟩
  have hiff := (lockdownExact_iff bareSession).1 hexact
  have hallows : bareSession.LockdownAllows relayed := .inr (.inr ⟨rfl, .inr ⟨rfl, rfl⟩⟩)
  have hpasses := hiff.2 hallows
  revert hpasses
  decide

end Hole.PfText
