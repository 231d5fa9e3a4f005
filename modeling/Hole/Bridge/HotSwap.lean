import Hole.Bridge.Config
import Hole.Effect.Trace
import Hole.Filter.Engine

/-!
# Reloads that swap the rules

`ProxyManager::reload` over whole configurations, and what the session's router (`hole_router.rs`)
makes of a flow before and after. A reload with a configuration that differs in its filters only
neither stops nor starts anything: it puts a new rule set into the router, which every later flow
loads. What else a dispatcher, a session and a manager hold is a parameter each: a reload does not
read it.

A session without a TUN has no dispatcher, and so no rule set (`socks_session_drops_nothing`).
-/

namespace Hole.Bridge.HotSwap

open Effect Hole.Filter Gui

/-! ### The router -/

/-- An `Endpoint`, as far as the cascade asks it. -/
structure Endpoint where
  supportsUdp : Bool
  supportsIpv6Dst : Bool

/-- `DropReason`. -/
inductive DropReason
  | ruleBlock (ruleIndex : UInt32)
  | udpProxyUnavailable (ruleIndex : UInt32)
  | ipv6BypassUnreachable (ruleIndex : UInt32)

/-- The endpoint of a `Dispatch`. -/
inductive Target
  | proxy
  | bypass
  | localDns

/-- `Dispatch`. -/
inductive Dispatch
  | endpoint (target : Target)
  | drop (reason : DropReason)

/-- `HoleRouter`. -/
structure HoleRouter (c : Crates) where
  proxy : Endpoint
  bypass : Endpoint
  localDns : Option Endpoint
  rules : RuleSet c

namespace HoleRouter

variable {c : Crates} (router : HoleRouter c)

/-- `swap_rules`. -/
def swapRules (rules : RuleSet c) : HoleRouter c := { router with rules := rules }

/-- `invalid_filters`. -/
def invalidFilters : List InvalidFilter := router.rules.dropped

/-- `resolve_endpoint`. -/
def resolveEndpoint (action : FilterAction) (l4 : L4Proto) (dst : SocketAddr)
    (ruleIndex : Option UInt32) : Dispatch :=
  let ruleIndex := ruleIndex.getD 0
  -- The forwarder answers whatever the rules say.
  if l4 = .udp ∧ dst.port = 53 ∧ router.localDns.isSome then .endpoint .localDns
  else match action with
    | .proxy =>
      if l4 = .udp ∧ router.proxy.supportsUdp = false then .drop (.udpProxyUnavailable ruleIndex)
      else .endpoint .proxy
    | .bypass =>
      if dst.ip.isIpv4 = false ∧ router.bypass.supportsIpv6Dst = false then
        .drop (.ipv6BypassUnreachable ruleIndex)
      else .endpoint .bypass
    | .block => .drop (.ruleBlock ruleIndex)

/-- What becomes of a flow that is decided so. -/
def resolve (decision : Filter.Decision) (l4 : L4Proto) (dst : SocketAddr) : Dispatch :=
  router.resolveEndpoint decision.action l4 dst (decision.ruleIndex.map UInt32.ofNat)

/-- `dispatch_tcp`, by the chunks that come in while it peeks. -/
def dispatchTcp (tls : TlsParser) (dst : SocketAddr) (chunks : Option (List Bytes)) : Dispatch :=
  router.resolve (Filter.dispatchTcp tls router.rules dst chunks) .tcp dst

/-- `dispatch_udp`. -/
def dispatchUdp (dst : SocketAddr) : Dispatch :=
  router.resolve (Filter.decide router.rules ⟨dst, none, .udp⟩) .udp dst

/-- `with_local_dns`, of the rules of a configuration, as a start does. -/
def started (c : Crates) (proxy bypass : Endpoint) (localDns : Option Endpoint)
    (config : ProxyConfig) : HoleRouter c :=
  ⟨proxy, bypass, localDns, fromUserRules c config.filters⟩

/-- A flow leaves in the clear only where the rules say so, never as the proxy cannot carry it. -/
theorem resolveEndpoint_eq_bypass {action : FilterAction} {l4 : L4Proto} {dst : SocketAddr}
    {ruleIndex : Option UInt32}
    (h : router.resolveEndpoint action l4 dst ruleIndex = .endpoint .bypass) :
    action = .bypass := by
  unfold resolveEndpoint at h
  split at h
  · cases h
  · cases action with
    | bypass => rfl
    | block => cases h
    | proxy =>
      dsimp only at h
      split at h <;> cases h

/-- Nor does a flow over TCP wait for UDP at the proxy, as `log_drop` asserts. -/
theorem dispatchTcp_ne_udpProxyUnavailable (tls : TlsParser) (dst : SocketAddr)
    (chunks : Option (List Bytes)) (i : UInt32) :
    router.dispatchTcp tls dst chunks ≠ .drop (.udpProxyUnavailable i) := by
  unfold dispatchTcp resolve resolveEndpoint
  rw [if_neg (by simp)]
  cases (Filter.dispatchTcp tls router.rules dst chunks).action with
  | proxy => simp
  | bypass =>
    dsimp only
    split <;> rintro ⟨⟩
  | block => rintro ⟨⟩

end HoleRouter

/-! ### The manager -/

/-- `Dispatcher`. -/
structure Dispatcher (c : Crates) (δ : Type) where
  router : HoleRouter c
  others : δ

/-- `RunningState`. -/
structure RunningState (c : Crates) (δ ρ : Type) where
  dispatcher : Option (Dispatcher c δ)
  others : ρ

/-- `ProxyManager`; the session is that of its posture. -/
structure Manager (c : Crates) (δ ρ μ : Type) where
  session : Option (RunningState c δ ρ)
  activeConfig : Option ProxyConfig
  others : μ

variable {c : Crates} {δ ρ μ : Type}

/-- What a reload may call. -/
inductive ReloadOp (c : Crates) (δ ρ μ : Type)
  /-- `stop_with(Blipped)`. -/
  | stop (m : Manager c δ ρ μ)
  | start (m : Manager c δ ρ μ) (config : ProxyConfig)

/-- Either may do anything to the manager, and fail. -/
abbrev ReloadOp.Ans : ReloadOp c δ ρ μ → Type := fun _ ↦ Manager c δ ρ μ × Except String Unit

/-- `invalid_filters`. -/
def Manager.invalidFilters (m : Manager c δ ρ μ) : List InvalidFilter :=
  ((m.session.bind (·.dispatcher)).map (·.router.invalidFilters)).getD []

/-- `Dispatcher::swap_rules`. -/
def Dispatcher.swapRules (d : Dispatcher c δ) (rules : RuleSet c) : Dispatcher c δ :=
  { d with router := d.router.swapRules rules }

/-- The rules are swapped, if there is a session with a dispatcher. -/
def Manager.swapRules (m : Manager c δ ρ μ) (rules : RuleSet c) : Manager c δ ρ μ :=
  { m with session := m.session.map fun s ↦
      { s with dispatcher := s.dispatcher.map (·.swapRules rules) } }

/-- `reload`. -/
def reload (m : Manager c δ ρ μ) (config : ProxyConfig) :
    Prog (ReloadOp c δ ρ μ) ReloadOp.Ans (Manager c δ ρ μ × Except String Unit) :=
  match m.activeConfig with
  | none => Prog.perform (ReloadOp.start m config)
  | some active =>
    if active.structuralSame config then
      pure ({ m.swapRules (fromUserRules c config.filters) with activeConfig := some config },
        .ok ())
    else do
      match ← Prog.perform (ReloadOp.stop m) with
      | (m, .error e) => return (m, .error e)
      | (m, .ok ()) => Prog.perform (ReloadOp.start m config)

/-! ### What a swap leaves -/

/-- The manager after a swap. -/
def Manager.hotSwapped (m : Manager c δ ρ μ) (config : ProxyConfig) : Manager c δ ρ μ :=
  { m.swapRules (fromUserRules c config.filters) with activeConfig := some config }

variable {m : Manager c δ ρ μ} {a config : ProxyConfig}

theorem reload_of_same (ha : m.activeConfig = some a) (hsame : a.SameButFilters config) :
    reload m config = pure (m.hotSwapped config, .ok ()) := by
  rw [reload, ha]
  exact if_pos (structuralSame_iff.2 hsame)

/-- A reload that stops and starts is one that has a trace. -/
theorem ne_nil_of_not_same (ha : m.activeConfig = some a) (hsame : ¬a.SameButFilters config)
    {t : List (Exchange ReloadOp.Ans)} {r : Manager c δ ρ μ × Except String Unit}
    (h : (reload m config).HasTrace t r) : t ≠ [] := by
  rw [reload, ha] at h
  dsimp only at h
  rw [if_neg (mt structuralSame_iff.1 hsame)] at h
  obtain ⟨t₁, t₂, x, rfl, h₁, -⟩ := Prog.hasTrace_bind.1 h
  obtain rfl := Prog.hasTrace_perform.1 h₁
  exact List.cons_ne_nil _ _

/-- A swap undoes the one before it. -/
theorem Manager.hotSwapped_hotSwapped (m : Manager c δ ρ μ) (config config' : ProxyConfig) :
    (m.hotSwapped config).hotSwapped config' = m.hotSwapped config' := by
  obtain ⟨session, active, others⟩ := m
  rcases session with - | ⟨dispatcher, rest⟩
  · rfl
  · cases dispatcher <;> rfl

/-- The rules that do not compile, each with its index. -/
def notCompiling (c : Crates) (rules : List FilterRule) : List InvalidFilter :=
  rules.zipIdx.filterMap fun (rule, i) ↦
    match Matcher.compile c rule.address rule.matching with
    | .ok _ => none
    | .error e => some ⟨clampIndex i, e⟩

theorem compileRules_dropped (i : Nat) (rules : List FilterRule) :
    (compileRules c i rules).2 = (rules.zipIdx i).filterMap fun (rule, i) ↦
      match Matcher.compile c rule.address rule.matching with
      | .ok _ => none
      | .error e => some ⟨clampIndex i, e⟩ := by
  induction rules generalizing i with
  | nil => rfl
  | cons rule rules ih =>
    rw [compileRules, List.zipIdx_cons, List.filterMap_cons, ← ih]
    dsimp only
    cases Matcher.compile c rule.address rule.matching <;> rfl

theorem fromUserRules_dropped (rules : List FilterRule) :
    (fromUserRules c rules).dropped = notCompiling c rules := compileRules_dropped 0 rules

/-- What a swap to a configuration leaves of a session `s` with a dispatcher `d`. -/
structure SwappedTo (m : Manager c δ ρ μ) (s : RunningState c δ ρ) (d : Dispatcher c δ)
    (config : ProxyConfig) (m' : Manager c δ ρ μ) : Prop where
  activeConfig_eq : m'.activeConfig = some config
  /-- Every later flow is dispatched by the router that a start would have made. -/
  session_eq : m'.session = some { s with dispatcher := some { d with
    router := .started c d.router.proxy d.router.bypass d.router.localDns config } }
  others_eq : m'.others = m.others
  invalidFilters_eq : m'.invalidFilters = notCompiling c config.filters

theorem Manager.swappedTo {s : RunningState c δ ρ} {d : Dispatcher c δ} (hs : m.session = some s)
    (hd : s.dispatcher = some d) (config : ProxyConfig) :
    SwappedTo m s d config (m.hotSwapped config) where
  activeConfig_eq := rfl
  session_eq := by
    rw [hotSwapped, swapRules, hs, Option.map_some, hd]
    rfl
  others_eq := rfl
  invalidFilters_eq := by
    rw [invalidFilters, hotSwapped, swapRules, hs, Option.map_some, hd]
    exact fromUserRules_dropped config.filters

/-- Reloads one after another, whatever each reports. -/
def reloads (m : Manager c δ ρ μ) (configs : List ProxyConfig) :
    Prog (ReloadOp c δ ρ μ) ReloadOp.Ans (Manager c δ ρ μ) :=
  configs.foldlM (fun m config ↦ return (← reload m config).1) m

theorem reloads_of_same {configs : List ProxyConfig} (ha : m.activeConfig = some a)
    (hall : ∀ x ∈ configs, a.SameButFilters x) (hsame : a.SameButFilters config) :
    reloads m (configs ++ [config]) = pure (m.hotSwapped config) := by
  induction configs generalizing m a with
  | nil =>
    rw [reloads, List.nil_append, List.foldlM_cons, reload_of_same ha hsame]
    rfl
  | cons x configs ih =>
    obtain ⟨hx, hrest⟩ := List.forall_mem_cons.1 hall
    have hnext : reloads (m.hotSwapped x) (configs ++ [config]) =
        pure ((m.hotSwapped x).hotSwapped config) :=
      ih rfl (fun y hy ↦ hx.trans (hrest y hy)) (hx.trans hsame)
    rw [m.hotSwapped_hotSwapped] at hnext
    rw [reloads, List.cons_append, List.foldlM_cons, reload_of_same ha hx]
    exact hnext

/-- **Reloading the filters is restarting with them**, for a session with a dispatcher. -/
theorem reload_spec {m : Manager c δ ρ μ} {s : RunningState c δ ρ} {d : Dispatcher c δ}
    {a config : ProxyConfig} (hs : m.session = some s) (hd : s.dispatcher = some d)
    (ha : m.activeConfig = some a) :
    (∀ t r, (reload m config).HasTrace t r → (t = [] ↔ a.SameButFilters config)) ∧
      (a.SameButFilters config → ∀ t r, (reload m config).HasTrace t r →
        r.2 = .ok () ∧ SwappedTo m s d config r.1) ∧
      ∀ configs : List ProxyConfig, (∀ x ∈ configs, a.SameButFilters x) →
        a.SameButFilters config → ∀ t m', (reloads m (configs ++ [config])).HasTrace t m' →
          t = [] ∧ (reload m config).HasTrace [] (m', .ok ()) := by
  refine ⟨fun t r h ↦ ?_, fun hsame t r h ↦ ?_, fun configs hall hsame t m' h ↦ ?_⟩
  · by_cases hsame : a.SameButFilters config
    · rw [reload_of_same ha hsame] at h
      exact iff_of_true (Prog.hasTrace_pure.1 h).1 hsame
    · exact iff_of_false (ne_nil_of_not_same ha hsame h) hsame
  · rw [reload_of_same ha hsame] at h
    obtain ⟨-, rfl⟩ := Prog.hasTrace_pure.1 h
    exact ⟨rfl, m.swappedTo hs hd config⟩
  · rw [reloads_of_same ha hall hsame] at h
    obtain ⟨rfl, rfl⟩ := Prog.hasTrace_pure.1 h
    rw [reload_of_same ha hsame]
    exact ⟨rfl, .pure _⟩

/-- A configuration with one rule. -/
def withRule (address : String) (matching : MatchType) : ProxyConfig where
  server := ⟨"a", "a", "a", 8388, "aes-256-gcm", "", none, none, none⟩
  localPort := 4073
  tunnelMode := .full
  filters := [⟨address, matching, .block⟩]
  dns := ⟨false, [], .https, false⟩
  proxySocks5 := true
  proxyHttp := false
  localPortHttp := 4074
  diagnosticPluginTap := false

/-- The dispatcher of a session that was started with a configuration. -/
def sampleDispatcher (config : ProxyConfig) : Dispatcher ipnet Unit :=
  ⟨.started ipnet ⟨true, true⟩ ⟨true, false⟩ none config, ()⟩

/-- A manager with such a session. -/
def sampleManager (config : ProxyConfig) : Manager ipnet Unit Unit Unit :=
  ⟨some ⟨some (sampleDispatcher config), ()⟩, some config, ()⟩

/-- A rule that compiles is swapped for one that does not. -/
theorem swappedTo_sample : ∃ m', (reload (sampleManager (withRule "10.0.0.0/8" .subnet))
    (withRule "example.com" .subnet)).HasTrace [] (m', .ok ()) ∧
      SwappedTo (sampleManager (withRule "10.0.0.0/8" .subnet))
        ⟨some (sampleDispatcher (withRule "10.0.0.0/8" .subnet)), ()⟩
        (sampleDispatcher (withRule "10.0.0.0/8" .subnet)) (withRule "example.com" .subnet) m' :=
  have htrace : (reload (sampleManager (withRule "10.0.0.0/8" .subnet))
      (withRule "example.com" .subnet)).HasTrace [] (_, .ok ()) := .pure _
  ⟨_, htrace, ((reload_spec rfl rfl rfl).2.1 (by decide) _ _ htrace).2⟩

/-- **A session without a dispatcher drops no rule**, as it has none. -/
theorem socks_session_drops_nothing :
    let config := { withRule "example.com" .subnet with tunnelMode := .socksOnly }
    let m : Manager ipnet Unit Unit Unit :=
      ⟨some ⟨none, ()⟩, some { config with filters := [] }, ()⟩
    (reload m config).HasTrace [] (m.hotSwapped config, .ok ()) ∧
      (m.hotSwapped config).invalidFilters = [] ∧ notCompiling ipnet config.filters ≠ [] := by
  refine ⟨?_, rfl, by decide⟩
  rw [reload_of_same rfl (by decide)]
  exact .pure _

end Hole.Bridge.HotSwap
