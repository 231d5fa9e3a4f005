import Hole.Routing.State

/-!
# Route commands

The platform's command builders (`tun-engine/src/routing.rs`, the last section): the setup
commands of an install, the split-route deletes, and the optional server-bypass delete. Both
platforms are modelled, selected by `Platform` where the source selects by `cfg`.

A delete command's argv is the only name a route has outside the record, so `undo` states,
independently of the teardown builders, which delete takes out the route a given add put in.
`exists_teardown_undo` then says that the teardown builders of an install's own identity emit
exactly that delete, for every route of the install: on Windows this needs that the gateway the
bypass went through is the gateway the record remembers, which is a field of `GatewayInfo`.
-/

namespace Hole.Routing

/-- The platform the code is compiled for. -/
inductive Platform
  | windows
  | macos

/-- The OS tools route commands spawn. -/
inductive SystemTool
  | route
  | netsh
  deriving DecidableEq

/-- A program with its arguments. -/
structure Argv where
  tool : SystemTool
  args : List String
  deriving DecidableEq

/-- The upstream route's form. -/
inductive NextHop
  | via (ip : IpAddr)
  | onLink
  deriving DecidableEq

/-- The form of a route whose next hop is `ip`. -/
def NextHop.ofAddr (ip : IpAddr) : NextHop := if ip.isUnspecified then .onLink else .via ip

/-- Gateway detection result. `classify_hop` is its only constructor in the source, so the form
and the address always agree: a bypass that goes *via* a gateway goes via `gatewayIp`. -/
structure GatewayInfo where
  gatewayIp : IpAddr
  nextHop : NextHop
  interfaceName : String
  interfaceIndex : Nat
  ipv6Available : Bool
  /-- The form is the one `classify_hop` gives the address. -/
  nextHop_eq : nextHop = NextHop.ofAddr gatewayIp

/-- Why the upstream route cannot be used. -/
inductive GatewayError
  | noDefaultRoute
  | interfaceNameUnavailable (interfaceIndex : Nat)

/-- `route_form_of`. -/
def routeFormOf (gateway : GatewayInfo) : RouteForm :=
  match gateway.nextHop with
  | .via _ => .via
  | .onLink => .onLink

/-- One route-install command, tagged with the route it acts on and whether its failure aborts
the install. -/
structure SetupCommand extends Argv where
  id : RouteId
  fatal : Bool

/-- A teardown or recovery command, tagged with the route it acts on. -/
structure RouteCommand extends Argv where
  id : RouteId
  deriving DecidableEq

/-! ### Platform builders -/

/-- `netsh interface <family> <verb> route <dest> <dev>`. -/
def netshRoute (family verb dest dev : String) : List String :=
  ["interface", family, verb, "route", dest, dev]

/-- The server bypass's `add`, absent for a loopback server. -/
def platformBypassSetup (plat : Platform) (serverIp : IpAddr) (gateway : GatewayInfo) :
    Option Argv :=
  if serverIp.toCanonical.isLoopback then none
  else some <|
    match plat, serverIp, gateway.nextHop with
    | .windows, .v4 _, .onLink =>
      ⟨.netsh, netshRoute "ip" "add" (serverIp.display ++ "/32") gateway.interfaceName ++
        ["store=active"]⟩
    | .windows, .v4 _, .via via =>
      ⟨.route, ["add", serverIp.display, "mask", "255.255.255.255", via.display]⟩
    | .windows, .v6 _, _ =>
      ⟨.netsh, netshRoute "ipv6" "add" (serverIp.display ++ "/128") gateway.interfaceName⟩
    | .macos, .v4 _, _ =>
      ⟨.route, ["-n", "add", "-host", serverIp.display, gateway.gatewayIp.display]⟩
    | .macos, .v6 _, _ =>
      ⟨.route, ["-n", "add", "-inet6", "-host", serverIp.display, "-interface",
        gateway.interfaceName]⟩

/-- The four split-route `add`s, with whether each is fatal. -/
def platformSplitSetup (plat : Platform) (tunName : String) (tunIpv6Available : Bool) :
    List SetupCommand :=
  match plat with
  | .windows =>
    [⟨⟨.netsh, netshRoute "ip" "add" "0.0.0.0/1" tunName⟩, .splitV4Low, true⟩,
     ⟨⟨.netsh, netshRoute "ip" "add" "128.0.0.0/1" tunName⟩, .splitV4High, true⟩,
     ⟨⟨.netsh, netshRoute "ipv6" "add" "::/1" tunName⟩, .splitV6Low, tunIpv6Available⟩,
     ⟨⟨.netsh, netshRoute "ipv6" "add" "8000::/1" tunName⟩, .splitV6High, tunIpv6Available⟩]
  | .macos =>
    [⟨⟨.route, ["-n", "add", "-net", "0.0.0.0/1", "-interface", tunName]⟩, .splitV4Low, true⟩,
     ⟨⟨.route, ["-n", "add", "-net", "128.0.0.0/1", "-interface", tunName]⟩, .splitV4High, true⟩,
     ⟨⟨.route, ["-n", "add", "-inet6", "::/1", "-interface", tunName]⟩, .splitV6Low,
      tunIpv6Available⟩,
     ⟨⟨.route, ["-n", "add", "-inet6", "8000::/1", "-interface", tunName]⟩, .splitV6High,
      tunIpv6Available⟩]

/-- `build_setup_commands`: the splits, then the bypass. -/
def buildSetupCommands (plat : Platform) (tunName : String) (serverIp : IpAddr)
    (gateway : GatewayInfo) (tunIpv6Available : Bool) : List SetupCommand :=
  platformSplitSetup plat tunName tunIpv6Available ++
    (platformBypassSetup plat serverIp gateway).toList.map fun a ↦ ⟨a, .serverBypass, true⟩

/-- `platform_split_teardown_commands`. The macOS deletes name no interface. -/
def buildSplitRouteTeardownCommands (plat : Platform) (tunName : String) : List RouteCommand :=
  match plat with
  | .windows =>
    [⟨⟨.netsh, netshRoute "ip" "delete" "0.0.0.0/1" tunName⟩, .splitV4Low⟩,
     ⟨⟨.netsh, netshRoute "ip" "delete" "128.0.0.0/1" tunName⟩, .splitV4High⟩,
     ⟨⟨.netsh, netshRoute "ipv6" "delete" "::/1" tunName⟩, .splitV6Low⟩,
     ⟨⟨.netsh, netshRoute "ipv6" "delete" "8000::/1" tunName⟩, .splitV6High⟩]
  | .macos =>
    [⟨⟨.route, ["-n", "delete", "-net", "0.0.0.0/1"]⟩, .splitV4Low⟩,
     ⟨⟨.route, ["-n", "delete", "-net", "128.0.0.0/1"]⟩, .splitV4High⟩,
     ⟨⟨.route, ["-n", "delete", "-inet6", "::/1"]⟩, .splitV6Low⟩,
     ⟨⟨.route, ["-n", "delete", "-inet6", "8000::/1"]⟩, .splitV6High⟩]

/-- `platform_bypass_teardown_command`. Only the Windows forms are scoped: by the interface, or
by the gateway where one is recorded. -/
def platformBypassTeardownCommand (plat : Platform) (i : RouteIdentity) : Option RouteCommand :=
  if i.serverIp.toCanonical.isLoopback then none
  else some <|
    match plat, i.serverIp, i.routeForm with
    | .windows, .v4 _, .onLink =>
      ⟨⟨.netsh, netshRoute "ip" "delete" (i.serverIp.display ++ "/32") i.interfaceName⟩,
        .serverBypass⟩
    | .windows, .v4 _, .via =>
      ⟨⟨.route, ["delete", i.serverIp.display, "mask", "255.255.255.255"] ++
        (i.originalGateway.map IpAddr.display).toList⟩, .serverBypass⟩
    | .windows, .v6 _, _ =>
      ⟨⟨.netsh, netshRoute "ipv6" "delete" (i.serverIp.display ++ "/128") i.interfaceName⟩,
        .serverBypass⟩
    | .macos, .v4 _, _ =>
      ⟨⟨.route, ["-n", "delete", "-host", i.serverIp.display]⟩, .serverBypass⟩
    | .macos, .v6 _, _ =>
      ⟨⟨.route, ["-n", "delete", "-inet6", "-host", i.serverIp.display]⟩, .serverBypass⟩

/-- `build_teardown_commands`: every delete a group's identity can emit. -/
def buildTeardownCommands (plat : Platform) (i : RouteIdentity) : List RouteCommand :=
  buildSplitRouteTeardownCommands plat i.tunName ++ (platformBypassTeardownCommand plat i).toList

theorem map_id_buildSetupCommands (plat : Platform) (tun : String) (ip : IpAddr)
    (gw : GatewayInfo) (v6 : Bool) :
    (buildSetupCommands plat tun ip gw v6).map (·.id) = plannedRoutes ip := by
  unfold buildSetupCommands platformBypassSetup plannedRoutes
  split <;> cases plat <;> rfl

theorem buildSetupCommands_ne_nil (plat : Platform) (tun : String) (ip : IpAddr)
    (gw : GatewayInfo) (v6 : Bool) : buildSetupCommands plat tun ip gw v6 ≠ [] := by
  cases plat <;> exact List.cons_ne_nil _ _

variable {plat : Platform} {i : RouteIdentity}

theorem id_of_mem_bypass {c : RouteCommand} (h : platformBypassTeardownCommand plat i = some c) :
    c.id = .serverBypass ∧ i.serverIp.toCanonical.isLoopback = false := by
  unfold platformBypassTeardownCommand at h
  split at h
  · cases h
  · next hl =>
    cases h
    refine ⟨?_, by simpa using hl⟩
    split <;> rfl

theorem map_id_split (plat : Platform) (tun : String) :
    (buildSplitRouteTeardownCommands plat tun).map (·.id) = splitRoutes := by
  cases plat <;> rfl

/-- Every command a group can emit is for a route its server's install plans. -/
theorem id_mem_plannedRoutes {c : RouteCommand} (h : c ∈ buildTeardownCommands plat i) :
    c.id ∈ plannedRoutes i.serverIp := by
  rcases List.mem_append.1 h with h | h
  · refine splitRoutes_subset_plannedRoutes _ ?_
    rw [← map_id_split plat i.tunName]
    exact List.mem_map_of_mem h
  · obtain ⟨hid, hl⟩ := id_of_mem_bypass (Option.mem_toList.1 h)
    rw [hid]
    exact serverBypass_mem_plannedRoutes.2 hl

/-! ### The delete that takes out what an add put in -/

/-- The argv that deletes the route an `add` argv creates. A Windows delete repeats the add's
operands; a macOS one names the destination alone, because `route(8)` scopes a delete neither
by interface nor by gateway. -/
def undo (plat : Platform) (add : Argv) : Argv :=
  match plat, add with
  | .windows, ⟨.netsh, ["interface", family, "add", "route", dest, dev]⟩ =>
    ⟨.netsh, ["interface", family, "delete", "route", dest, dev]⟩
  | .windows, ⟨.netsh, ["interface", family, "add", "route", dest, dev, "store=active"]⟩ =>
    ⟨.netsh, ["interface", family, "delete", "route", dest, dev]⟩
  | .windows, ⟨.route, ["add", dest, "mask", mask, gateway]⟩ =>
    ⟨.route, ["delete", dest, "mask", mask, gateway]⟩
  | .macos, ⟨.route, ["-n", "add", kind, dest, "-interface", _]⟩ =>
    ⟨.route, ["-n", "delete", kind, dest]⟩
  | .macos, ⟨.route, ["-n", "add", "-host", dest, _]⟩ =>
    ⟨.route, ["-n", "delete", "-host", dest]⟩
  | .macos, ⟨.route, ["-n", "add", "-inet6", "-host", dest, "-interface", _]⟩ =>
    ⟨.route, ["-n", "delete", "-inet6", "-host", dest]⟩
  | _, add => add

/-- The identity an install's record carries. -/
def identityOf (tunName : String) (serverIp : IpAddr) (gateway : GatewayInfo) : RouteIdentity where
  tunName := tunName
  serverIp := serverIp
  interfaceName := gateway.interfaceName
  originalGateway := some gateway.gatewayIp
  routeForm := routeFormOf gateway

/-- The bypass delete of an install's own identity undoes the bypass add. -/
theorem bypass_teardown_undo (plat : Platform) (tun : String) (ip : IpAddr) (gw : GatewayInfo)
    {a : Argv} (ha : platformBypassSetup plat ip gw = some a) :
    platformBypassTeardownCommand plat (identityOf tun ip gw) =
      some ⟨undo plat a, .serverBypass⟩ := by
  unfold platformBypassSetup at ha
  split at ha
  · cases ha
  next hl =>
    cases ha
    have hform := gw.nextHop_eq
    unfold platformBypassTeardownCommand
    rw [if_neg (by simpa [identityOf] using hl)]
    -- on Windows the gateway the add names is the one the record remembers
    have hvia : ∀ via, gw.nextHop = .via via → via = gw.gatewayIp := by
      intro via h
      rw [hform, NextHop.ofAddr] at h
      split at h
      · cases h
      · exact (NextHop.via.inj h).symm
    cases plat with
    | macos => cases ip <;> simp [identityOf, undo]
    | windows =>
      cases ip with
      | v6 b => rfl
      | v4 b =>
        rcases hnh : gw.nextHop with via | -
        · simp [identityOf, routeFormOf, hnh, undo, hvia via hnh]
        · simp [identityOf, routeFormOf, hnh, undo, netshRoute]

theorem split_teardown_undo (plat : Platform) (tun : String) (v6 : Bool) :
    (platformSplitSetup plat tun v6).map (fun c ↦ (⟨undo plat c.toArgv, c.id⟩ : RouteCommand)) =
      buildSplitRouteTeardownCommands plat tun := by
  cases plat <;> rfl

/-- **An install's identity can undo everything the install adds**: its teardown commands hold,
for each setup command, the delete of the same route. -/
theorem exists_teardown_undo {tun : String} {ip : IpAddr} {gw : GatewayInfo} {v6 : Bool}
    {c : SetupCommand} (hc : c ∈ buildSetupCommands plat tun ip gw v6) :
    (⟨undo plat c.toArgv, c.id⟩ : RouteCommand) ∈
      buildTeardownCommands plat (identityOf tun ip gw) := by
  rcases List.mem_append.1 hc with hc | hc
  · refine List.mem_append_left _ ?_
    show _ ∈ buildSplitRouteTeardownCommands plat tun
    rw [← split_teardown_undo plat tun v6]
    exact List.mem_map_of_mem hc
  · obtain ⟨a, ha, rfl⟩ := List.mem_map.1 hc
    refine List.mem_append_right _ (Option.mem_toList.2 ?_)
    exact bypass_teardown_undo plat tun ip gw (Option.mem_toList.1 ha)

/-! ### An argv names one route -/

/-- The prefix of a split route is never a host prefix. -/
theorem split_ne_display_append (ip : IpAddr) :
    "0.0.0.0/1" ≠ ip.display ++ "/32" ∧ "128.0.0.0/1" ≠ ip.display ++ "/32" ∧
      "::/1" ≠ ip.display ++ "/128" ∧ "8000::/1" ≠ ip.display ++ "/128" := by
  -- the two differ in their last character
  have h32 : ∀ t : String, t.toList.getLast? ≠ some '2' → t ≠ ip.display ++ "/32" := by
    rintro _ ht rfl
    exact ht (by simp)
  have h128 : ∀ t : String, t.toList.getLast? ≠ some '8' → t ≠ ip.display ++ "/128" := by
    rintro _ ht rfl
    exact ht (by simp)
  exact ⟨h32 _ (by decide), h32 _ (by decide), h128 _ (by decide), h128 _ (by decide)⟩

variable {c c' : RouteCommand}

/-- No split delete is a bypass delete. -/
theorem split_ne_bypass {tun : String} (hc : c ∈ buildSplitRouteTeardownCommands plat tun)
    (hc' : platformBypassTeardownCommand plat i = some c') : c.toArgv ≠ c'.toArgv := by
  obtain ⟨h₁, h₂, h₃, h₄⟩ := split_ne_display_append i.serverIp
  unfold platformBypassTeardownCommand at hc'
  split at hc'
  · cases hc'
  · cases hc'
    cases plat <;>
      simp only [buildSplitRouteTeardownCommands, List.mem_cons, List.not_mem_nil,
        or_false] at hc <;>
      rcases hc with rfl | rfl | rfl | rfl <;> split <;> simp_all [netshRoute]

theorem nodup_id_buildTeardownCommands (plat : Platform) (i : RouteIdentity) :
    ((buildTeardownCommands plat i).map (·.id)).Nodup := by
  rw [buildTeardownCommands, List.map_append, map_id_split]
  rcases hb : platformBypassTeardownCommand plat i with - | b
  · decide
  · rw [Option.toList_some, List.map_singleton, (id_of_mem_bypass hb).1]
    decide

/-- Two commands of one group for the same route are the same command. -/
theorem eq_of_id_eq (hc : c ∈ buildTeardownCommands plat i)
    (hc' : c' ∈ buildTeardownCommands plat i) (h : c.id = c'.id) : c = c' :=
  List.inj_on_of_nodup_map (nodup_id_buildTeardownCommands plat i) hc hc' h

/-- **The argv determines the command**, across groups: a delete that two groups would issue is
for the same route in both. -/
theorem eq_of_argv_eq {i i' : RouteIdentity} (hc : c ∈ buildTeardownCommands plat i)
    (hc' : c' ∈ buildTeardownCommands plat i') (h : c.toArgv = c'.toArgv) : c = c' := by
  suffices hid : c.id = c'.id by
    cases c; cases c'; simp_all
  rcases List.mem_append.1 hc with hs | hb <;> rcases List.mem_append.1 hc' with hs' | hb'
  · cases plat <;> simp only [buildSplitRouteTeardownCommands, List.mem_cons, List.not_mem_nil,
      or_false] at hs hs' <;> rcases hs with rfl | rfl | rfl | rfl <;>
      rcases hs' with rfl | rfl | rfl | rfl <;> simp_all [netshRoute]
  · exact absurd h (split_ne_bypass hs (Option.mem_toList.1 hb'))
  · exact absurd h.symm (split_ne_bypass hs' (Option.mem_toList.1 hb))
  · rw [(id_of_mem_bypass (Option.mem_toList.1 hb)).1,
      (id_of_mem_bypass (Option.mem_toList.1 hb')).1]

/-! ### What a list of groups names -/

/-- The deletes a group would issue: its own teardown command for each route it lists. -/
def StaleRecord.deletes (plat : Platform) (g : StaleRecord) : List Argv :=
  ((buildTeardownCommands plat g.toRouteIdentity).filter (·.id ∈ g.installed)).map (·.toArgv)

variable {r : Argv}

theorem StaleRecord.mem_deletes {g : StaleRecord} :
    r ∈ g.deletes plat ↔
      ∃ c ∈ buildTeardownCommands plat g.toRouteIdentity, c.id ∈ g.installed ∧ c.toArgv = r := by
  simp only [StaleRecord.deletes, List.mem_map, List.mem_filter, decide_eq_true_eq, and_assoc]

/-- Some group lists a route whose own teardown command is `r`. -/
def Names (plat : Platform) (groups : List StaleRecord) (r : Argv) : Prop :=
  ∃ g ∈ groups, r ∈ g.deletes plat

theorem names_iff_lists {groups : List StaleRecord} :
    Names plat groups r ↔
      ∃ i, ∃ c ∈ buildTeardownCommands plat i, Lists groups i c.id ∧ c.toArgv = r := by
  constructor
  · rintro ⟨g, hg, hr⟩
    obtain ⟨c, hc, hid, hr⟩ := StaleRecord.mem_deletes.1 hr
    exact ⟨g.toRouteIdentity, c, hc, ⟨g, hg, rfl, hid⟩, hr⟩
  · rintro ⟨_, c, hc, ⟨g, hg, rfl, hid⟩, hr⟩
    exact ⟨g, hg, StaleRecord.mem_deletes.2 ⟨c, hc, hid, hr⟩⟩

theorem names_congr {gs hs : List StaleRecord} (h : ∀ i id, Lists gs i id ↔ Lists hs i id) :
    Names plat gs r ↔ Names plat hs r := by
  simp only [names_iff_lists, h]

@[simp] theorem names_nil : ¬Names plat [] r := by
  simp [Names]

variable {gs : List StaleRecord}

@[simp] theorem names_cons {g : StaleRecord} :
    Names plat (g :: gs) r ↔ r ∈ g.deletes plat ∨ Names plat gs r := by
  simp [Names]

@[simp] theorem names_append {gs hs : List StaleRecord} :
    Names plat (gs ++ hs) r ↔ Names plat gs r ∨ Names plat hs r := by
  simp only [Names, List.mem_append, or_and_right, exists_or]

@[simp] theorem names_filter_nonempty :
    Names plat (gs.filter (!·.installed.isEmpty)) r ↔ Names plat gs r :=
  names_congr fun _ _ ↦ lists_filter_nonempty

/-- Canonical form names the same routes. -/
@[simp] theorem names_coalesce : Names plat (coalesce gs) r ↔ Names plat gs r := by
  simp only [names_iff_lists, lists_coalesce]
  constructor
  · rintro ⟨i, c, hc, ⟨hid, -⟩, hr⟩
    exact ⟨i, c, hc, hid, hr⟩
  · rintro ⟨i, c, hc, hid, hr⟩
    exact ⟨i, c, hc, ⟨hid, id_mem_plannedRoutes hc⟩, hr⟩

end Hole.Routing
