import Mathlib.Data.List.Nodup
import Hole.Net.IpAddr

/-!
# The config of the GUI

`AppConfig` (`common/src/config.rs`), the settings that the dashboard may change (`UiSettings`,
`hole/src/ui_settings.rs`), and the helpers of `hole/src/commands.rs` that merge, import, remove and
select. The list of servers belongs to the backend: settings change the entries that they name and
no others.
-/

namespace Hole.Gui

/-! ### Data -/

/-- `MatchType`. -/
inductive MatchType
  | exactly
  | withSubdomains
  | wildcard
  | subnet
  deriving DecidableEq

/-- `FilterAction`. -/
inductive FilterAction
  | proxy
  | bypass
  | block
  deriving DecidableEq

/-- `FilterRule`. -/
structure FilterRule where
  address : String
  matching : MatchType
  action : FilterAction
  deriving DecidableEq

/-- `StartupBehavior`. -/
inductive StartupBehavior
  | doNotConnect
  | restoreLastState
  | alwaysConnect
  deriving DecidableEq

/-- `Theme`. -/
inductive Theme
  | light
  | dark
  | system
  deriving DecidableEq

/-- `DnsProtocol`. -/
inductive DnsProtocol
  | plainUdp
  | plainTcp
  | tls
  | https
  deriving DecidableEq

/-- `DnsConfig`. -/
structure DnsConfig where
  enabled : Bool
  servers : List IpAddr
  protocol : DnsProtocol
  allowInsecureBootstrap : Bool
  deriving DecidableEq

/-- `ServerTestOutcome`. -/
inductive ServerTestOutcome
  | reachable (latencyMs : Nat)
  | dnsFailed
  | tcpRefused
  | tcpTimeout
  | pluginStartFailed (detail : String)
  | tunnelHandshakeFailed
  | networkBlocked
  | serverCannotReachInternet
  | sentinelMismatch (detail : String)
  | internalError (detail : String)
  deriving DecidableEq

/-- `ValidationState`. -/
structure ValidationState where
  testedAt : Int
  outcome : ServerTestOutcome
  deriving DecidableEq

/-- `ServerEntry`. -/
structure ServerEntry where
  id : String
  name : String
  server : String
  serverPort : UInt16
  method : String
  password : String
  plugin : Option String
  pluginOpts : Option String
  validation : Option ValidationState
  deriving DecidableEq

/-- `AppConfig`. -/
structure AppConfig where
  servers : List ServerEntry
  selectedServer : Option String
  localPort : UInt16
  enabled : Bool
  elevationPromptShown : Bool
  filters : List FilterRule
  onStartup : StartupBehavior
  theme : Theme
  proxyServerEnabled : Bool
  proxySocks5 : Bool
  proxyHttp : Bool
  dns : DnsConfig
  localPortHttp : UInt16
  diagnosticPluginTap : Bool
  deriving DecidableEq

/-- `AppConfig::default`. -/
def AppConfig.default : AppConfig where
  servers := []
  selectedServer := none
  localPort := 4073
  enabled := false
  elevationPromptShown := false
  filters := []
  onStartup := .restoreLastState
  theme := .dark
  proxyServerEnabled := true
  proxySocks5 := true
  proxyHttp := false
  dns := ⟨true, [.ofOctets 1 1 1 1, .ofOctets 1 0 0 1], .https, false⟩
  localPortHttp := 4074
  diagnosticPluginTap := false

/-- `UiServerEntry`. -/
structure UiServerEntry where
  id : String
  name : String
  server : String
  serverPort : UInt16
  method : String
  password : String
  plugin : Option String
  pluginOpts : Option String
  deriving DecidableEq

/-- `UiSettings`. -/
structure UiSettings where
  servers : List UiServerEntry
  selectedServer : Option String
  localPort : UInt16
  filters : List FilterRule
  onStartup : StartupBehavior
  theme : Theme
  proxyServerEnabled : Bool
  proxySocks5 : Bool
  proxyHttp : Bool
  dns : DnsConfig
  localPortHttp : UInt16
  diagnosticPluginTap : Bool
  deriving DecidableEq

/-! ### The helpers -/

/-- The entry with what the settings have for it. -/
def UiServerEntry.merge (ui : UiServerEntry) (c : ServerEntry) : ServerEntry where
  id := c.id
  name := ui.name
  server := ui.server
  serverPort := ui.serverPort
  method := ui.method
  password := ui.password
  plugin := ui.plugin
  pluginOpts := ui.pluginOpts
  validation := c.validation

/-- What the settings make of a server: the first entry with its id counts. -/
def UiSettings.mergeServer (ui : UiSettings) (c : ServerEntry) : ServerEntry :=
  match ui.servers.find? (·.id = c.id) with
  | some s => s.merge c
  | none => c

/-- `UiSettings::apply`. -/
def UiSettings.apply (ui : UiSettings) (current : AppConfig) : AppConfig where
  enabled := current.enabled
  elevationPromptShown := current.elevationPromptShown
  servers := current.servers.map ui.mergeServer
  selectedServer := ui.selectedServer
  localPort := ui.localPort
  filters := ui.filters
  onStartup := ui.onStartup
  theme := ui.theme
  proxyServerEnabled := ui.proxyServerEnabled
  proxySocks5 := ui.proxySocks5
  proxyHttp := ui.proxyHttp
  dns := ui.dns
  localPortHttp := ui.localPortHttp
  diagnosticPluginTap := ui.diagnosticPluginTap

namespace AppConfig

variable (config : AppConfig)

/-- The ids of the servers. -/
def ids : List String := config.servers.map (·.id)

/-- A server with the id is there. -/
def hasServer (id : String) : Bool := config.servers.any (·.id = id)

/-- `auto_select_first_server`. -/
def autoSelectFirstServer : AppConfig :=
  if config.selectedServer.any config.hasServer then config
  else { config with selectedServer := config.servers.head?.map (·.id) }

/-- `apply_ui_settings`. -/
def applyUiSettings (settings : UiSettings) : AppConfig :=
  (settings.apply config).autoSelectFirstServer

/-- Two entries lead to one server. -/
def sameServer (s t : ServerEntry) : Bool :=
  s.server = t.server && s.serverPort = t.serverPort && s.method = t.method &&
    s.password = t.password

/-- The loop of `apply_import`: the servers after it, and those appended. -/
def appendNew : List ServerEntry → List ServerEntry → List ServerEntry × List ServerEntry
  | servers, [] => (servers, [])
  | servers, server :: parsed =>
    if servers.any fun s ↦ sameServer s server then appendNew servers parsed
    else
      let r := appendNew (servers ++ [server]) parsed
      (r.1, server :: r.2)

/-- `apply_import`: the config, the entries appended and the number of those dropped. -/
def applyImport (parsed : List ServerEntry) : AppConfig × List ServerEntry × Nat :=
  let r := appendNew config.servers parsed
  ({ config with servers := r.1 }.autoSelectFirstServer, r.2, parsed.length - r.2.length)

/-- `remove_server`: the config, and whether an entry was removed. -/
def removeServer (id : String) : AppConfig × Bool :=
  let servers := config.servers.filter (·.id ≠ id)
  ({ config with servers := servers }.autoSelectFirstServer, servers.length ≠ config.servers.length)

/-- Change the first server with an id. -/
def modifyServer (id : String) (f : ServerEntry → ServerEntry) : List ServerEntry → List ServerEntry
  | [] => []
  | s :: rest => if s.id = id then f s :: rest else s :: modifyServer id f rest

/-- `toUiSettings` (`ui/main.ts`). -/
def toUiSettings : UiSettings where
  servers := config.servers.map fun s ↦
    ⟨s.id, s.name, s.server, s.serverPort, s.method, s.password, s.plugin, s.pluginOpts⟩
  selectedServer := config.selectedServer
  localPort := config.localPort
  filters := config.filters
  onStartup := config.onStartup
  theme := config.theme
  proxyServerEnabled := config.proxyServerEnabled
  proxySocks5 := config.proxySocks5
  proxyHttp := config.proxyHttp
  dns := config.dns
  localPortHttp := config.localPortHttp
  diagnosticPluginTap := config.diagnosticPluginTap

/-- A server is selected exactly if there is any. -/
def Selects : Prop :=
  (∃ id, config.selectedServer = some id ∧ id ∈ config.ids) ↔ config.servers ≠ []

/-! ### What they keep -/

variable {config}

theorem hasServer_iff {id : String} : config.hasServer id ↔ id ∈ config.ids := by
  simp [hasServer, ids]

@[simp] theorem autoSelectFirstServer_servers :
    config.autoSelectFirstServer.servers = config.servers := by
  unfold autoSelectFirstServer
  split <;> rfl

@[simp] theorem autoSelectFirstServer_ids : config.autoSelectFirstServer.ids = config.ids := by
  simp [ids]

/-- **A selection that is healed names a server exactly if there is any.** -/
theorem selects_autoSelectFirstServer : config.autoSelectFirstServer.Selects := by
  unfold Selects
  rw [autoSelectFirstServer_ids, autoSelectFirstServer_servers]
  constructor
  · rintro ⟨id, -, hid⟩ hnil
    rw [ids, hnil] at hid
    cases hid
  · intro hne
    unfold autoSelectFirstServer
    split
    · next hvalid =>
      obtain ⟨id, hselected, hid⟩ := (Option.any_eq_true _ _).1 hvalid
      exact ⟨id, hselected, hasServer_iff.1 hid⟩
    · obtain ⟨s, rest, hservers⟩ := List.exists_cons_of_ne_nil hne
      exact ⟨s.id, by simp [hservers], by simp [ids, hservers]⟩

theorem mergeServer_id (ui : UiSettings) (s : ServerEntry) : (ui.mergeServer s).id = s.id := by
  unfold UiSettings.mergeServer
  split <;> rfl

theorem mergeServer_validation (ui : UiSettings) (s : ServerEntry) :
    (ui.mergeServer s).validation = s.validation := by
  unfold UiSettings.mergeServer
  split <;> rfl

@[simp] theorem applyUiSettings_servers (settings : UiSettings) :
    (config.applyUiSettings settings).servers = config.servers.map settings.mergeServer :=
  autoSelectFirstServer_servers

@[simp] theorem applyUiSettings_ids (settings : UiSettings) :
    (config.applyUiSettings settings).ids = config.ids := by
  simp [ids, Function.comp_def, mergeServer_id]

theorem modifyServer_ids {id : String} {f : ServerEntry → ServerEntry} (hf : ∀ s, (f s).id = s.id)
    (servers : List ServerEntry) :
    (modifyServer id f servers).map (·.id) = servers.map (·.id) := by
  induction servers with
  | nil => rfl
  | cons s rest ih =>
    unfold modifyServer
    split
    · rw [List.map_cons, List.map_cons, hf]
    · rw [List.map_cons, List.map_cons, ih]

/-- An entry that was changed has the id, and every other one was there. -/
theorem mem_modifyServer {id : String} {f : ServerEntry → ServerEntry} {servers : List ServerEntry}
    {s' : ServerEntry} (h : s' ∈ modifyServer id f servers) :
    s' ∈ servers ∨ ∃ s ∈ servers, s.id = id ∧ s' = f s := by
  induction servers with
  | nil => cases h
  | cons s rest ih =>
    unfold modifyServer at h
    split at h
    · next hid =>
      obtain rfl | h := List.mem_cons.1 h
      · exact .inr ⟨s, .head _, hid, rfl⟩
      · exact .inl (.tail _ h)
    · obtain rfl | h := List.mem_cons.1 h
      · exact .inl (.head _)
      · exact (ih h).imp (List.mem_cons_of_mem _) fun ⟨t, ht, hid⟩ ↦
          ⟨t, .tail _ ht, hid⟩

/-- What the import loop appends. -/
theorem appendNew_spec (servers parsed : List ServerEntry) :
    (appendNew servers parsed).1 = servers ++ (appendNew servers parsed).2 ∧
      List.Sublist (appendNew servers parsed).2 parsed ∧
      ∀ before s after, (appendNew servers parsed).2 = before ++ s :: after →
        ∀ t ∈ servers ++ before, ¬sameServer t s := by
  induction parsed generalizing servers with
  | nil =>
    refine ⟨(List.append_nil _).symm, List.Sublist.refl _, fun before s after h ↦ ?_⟩
    exact absurd h (by simp [appendNew])
  | cons server parsed ih =>
    unfold appendNew
    split
    · obtain ⟨hservers, hsub, hnew⟩ := ih servers
      exact ⟨hservers, hsub.cons server, hnew⟩
    · next hnone =>
      obtain ⟨hservers, hsub, hnew⟩ := ih (servers ++ [server])
      refine ⟨by simpa using hservers, hsub.cons_cons server, fun before s after h t ht ↦ ?_⟩
      cases before with
      | nil =>
        obtain ⟨rfl, -⟩ := List.cons.inj h
        rw [List.append_nil] at ht
        exact fun hsame ↦ hnone (List.any_eq_true.2 ⟨t, ht, hsame⟩)
      | cons b before =>
        obtain ⟨rfl, hrest⟩ := List.cons.inj h
        exact hnew before s after hrest t (by simpa using ht)

end AppConfig

end Hole.Gui
