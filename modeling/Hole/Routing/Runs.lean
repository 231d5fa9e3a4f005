import Hole.Routing.Session

/-!
# Every run of the routing code

The results about whole runs. `recorded_of_confirmed`: whatever the order of recoveries,
lookups, installs and teardowns, the outcomes of their commands and writes, and the point a
crash hits, **the record on disk names every route the code left in the table**, by a group
whose own teardown command deletes it.

The converse direction, that a route confirmed gone is deleted no second time, does not hold:
only `recover_groups` takes a confirmed delete out of *every* group that names it. A guard's
teardown, a rollback and a gateway lookup leave the other groups alone, and
`second_delete_issued` is a run in which a lookup issues one delete twice.
`noSecondDelete_of_clean` says that this is all that can go wrong.
-/

namespace Hole.Routing

open Effect

variable {plat : Platform} {P : Prop} {w : World}

/-- What holds between acts: the record is tracked, and a live guard stands for it. -/
structure Boundary (plat : Platform) (P : Prop) (w : World) : Prop extends Inv plat P w where
  tracks : Tracks plat P (Names plat (recordGroups w.disk)) w
  /-- The live guard stands for the record on disk. -/
  guard_eq : Good plat P w.log → ∀ g, w.guard = some g → w.disk = some g.toRouteState

/-- Recovery runs at process start and a lookup in front of an install: never beside a guard. -/
def Quiet (w : World) (e : Act × List Choice) : Prop :=
  match e.1 with
  | .recover => w.guard.isNone = true
  | .lookup _ => w.guard.isNone = true
  | _ => True

instance (w : World) : DecidablePred (Quiet w)
  | (.recover, _) => inferInstanceAs (Decidable (_ = true))
  | (.lookup _, _) => inferInstanceAs (Decidable (_ = true))
  | (.install _ _ _, _) => inferInstanceAs (Decidable True)
  | (.teardown, _) => inferInstanceAs (Decidable True)
  | (.crash, _) => inferInstanceAs (Decidable True)

theorem boundary_start (disk : Option RouteState) : Boundary plat P (World.start disk) where
  recorded := nofun
  guarded := nofun
  fresh _ newer older d h := by
    rcases newer with - | ⟨e, newer⟩ <;> cases h
  tracks := ⟨nofun, fun _ _ ↦ nofun⟩
  guard_eq _ := nofun

/-- Without a guard, a tracked record is all that is needed between acts. -/
theorem boundary_of_tracks (hI : Inv plat P w)
    (ht : Tracks plat P (Names plat (recordGroups w.disk)) w)
    (hguard : Good plat P w.log → w.guard = none) : Boundary plat P w where
  toInv := hI
  tracks := ht
  guard_eq hg g h := by
    rw [hguard hg] at h
    cases h

theorem boundary_drop (hI : Inv plat P w)
    (ht : Tracks plat P (Names plat (recordGroups w.disk)) w) :
    Boundary plat P { w with guard := none } where
  recorded := hI.recorded
  guarded := nofun
  fresh := hI.fresh
  tracks := ⟨ht.covers, ht.fresh⟩
  guard_eq _ := nofun

theorem Inv.crash (hI : Inv plat P w) : Boundary plat P ((machine plat).crash w) where
  recorded := hI.recorded
  guarded := nofun
  fresh hg := absurd hg not_good_cut
  tracks := ⟨hI.recorded, fun hg ↦ absurd hg not_good_cut⟩
  guard_eq hg := absurd hg not_good_cut

/-- An act that may run beside a guard, and leaves it as it is. -/
theorem boundary_keep {act : Act} {p : RouteM Unit} (hquiet : P → w.guard = none)
    (hp : p.Safe (host act) (Inv plat P)
      (fun _ w' ↦ Tracks plat P (Names plat (recordGroups w'.disk)) w') w) :
    (p >>= fun _ ↦ pure id).Safe (host act) (Inv plat P)
      (fun r w' ↦ Boundary plat P { w' with guard := r w'.guard }) w := by
  refine (hp.and (safe_guard p rfl)).bind ?_
  rintro ⟨⟩ w' hI' ⟨ht, hguard⟩
  exact ⟨hI', boundary_of_tracks hI' ht fun hg ↦ hguard.trans (hquiet hg.1)⟩

/-- **One act** keeps what holds between acts, wherever it is cut. -/
theorem boundary_step {e : Act × List Choice} (h : Boundary plat P w) (hq : P → Quiet w e) :
    Boundary plat P ((machine plat).step w e) := by
  refine Machine.step_of_safe h ?_ fun _ hI ↦ Inv.crash hI
  intro p hp
  obtain ⟨act, cs⟩ := e
  cases act with
  | recover =>
    cases hp
    exact boundary_keep (fun hP ↦ Option.isNone_iff_eq_none.1 (hq hP))
      (safe_recoverRoutesWith h.toInv h.tracks)
  | lookup dest =>
    cases hp
    exact boundary_keep (fun hP ↦ Option.isNone_iff_eq_none.1 (hq hP))
      (safe_clearStaleServerBypass rfl h.toInv h.tracks)
  | install tun ip gw =>
    rcases hguard : w.guard with - | g
    · simp only [machine, hguard, Option.isSome_none, Bool.false_eq_true, if_false,
        Option.some.injEq] at hp
      subst hp
      refine ((safe_installWith h.toInv hguard h.tracks).and (safe_guard _ hguard)).bind ?_
      rintro (e | g) w' hI' ⟨hres, hguard'⟩
      · exact ⟨hI', boundary_of_tracks hI' hres fun _ ↦ hguard'⟩
      · obtain ⟨ht, hdisk⟩ := hres
        refine ⟨hI', ⟨hI'.recorded, ?_, hI'.fresh⟩, ⟨hI'.recorded, fun hg ↦ ?_⟩, fun hg g' h' ↦ ?_⟩
        · rintro g' h'
          cases h'
          exact ht.covers
        · show ∀ r, Freed plat w'.log r → ¬Names plat (recordGroups w'.disk) r
          rw [hdisk hg]
          exact ht.fresh hg
        · cases h'
          exact hdisk hg
    · simp [machine, hguard] at hp
  | teardown =>
    rcases hguard : w.guard with - | g
    · simp [machine, hguard] at hp
    · simp only [machine, hguard, Option.some.injEq] at hp
      subst hp
      have ht : Tracks plat P (Names plat g.toRouteState.groups) w := by
        refine ⟨h.guarded g hguard, fun hg ↦ ?_⟩
        have := h.tracks.fresh hg
        rw [h.guard_eq hg g hguard] at this
        exact this
      refine (safe_teardownWith h.toInv ht fun hg ↦ h.guard_eq hg g hguard).bind ?_
      rintro ⟨⟩ w' hI' ht'
      exact ⟨hI', boundary_drop hI' ht'⟩
  | crash =>
    cases hp
    exact ⟨h.toInv, boundary_drop h.toInv h.tracks⟩

/-! ### The record never loses a route -/

/-- **The route ledger.** In every run, cut anywhere: a route that a setup command confirmed
into the table, and that no later delete confirmed gone, is named in the record on disk by a
group whose own teardown command is the argv that deletes it. -/
theorem recorded_of_confirmed (plat : Platform) (disk : Option RouteState)
    (es : List (Act × List Choice)) {newer older : List Event} {a : Argv}
    (hlog : ((machine plat).exec (World.start disk) es).log = newer ++ .setup a true :: older)
    (hlive : ∀ d, .delete d ∈ newer → d.confirmed = true → d.argv ≠ undo plat a) :
    ∃ st, ((machine plat).exec (World.start disk) es).disk = some st ∧
      ∃ g ∈ st.groups, ∃ c ∈ buildTeardownCommands plat g.toRouteIdentity,
        c.id ∈ g.installed ∧ c.toArgv = undo plat a := by
  have hrun : Boundary plat False ((machine plat).exec (World.start disk) es) :=
    Machine.exec_of_step (fun w e h ↦ boundary_step h nofun) es (boundary_start disk)
  have hnames := hrun.recorded (undo plat a) (hlog ▸ mem_ledger_of_setup hlive)
  rcases hdisk : ((machine plat).exec (World.start disk) es).disk with - | st
  · rw [hdisk] at hnames
    exact absurd hnames names_nil
  · rw [hdisk] at hnames
    obtain ⟨g, hg, hr⟩ := hnames
    exact ⟨st, rfl, g, hg, StaleRecord.mem_deletes.1 hr⟩

/-- A gateway at `192.168.1.1`. -/
def sampleGateway : GatewayInfo where
  gatewayIp := .ofOctets 192 168 1 1
  nextHop := .via (.ofOctets 192 168 1 1)
  interfaceName := "en0"
  interfaceIndex := 4
  ipv6Available := true
  nextHop_eq := by decide

/-- An install that the process does not survive: the first setup command is confirmed, and
nothing runs after it. -/
theorem recorded_after_cut_install : ∃ st, ((machine .macos).exec (World.start none)
        [(.install "utun3" (.ofOctets 203 0 113 7) sampleGateway, [.ok, .ok, .ok, .ok])]).disk =
          some st ∧
      ∃ g ∈ st.groups, ∃ c ∈ buildTeardownCommands .macos g.toRouteIdentity,
        c.id ∈ g.installed ∧ c.toArgv = ⟨.route, ["-n", "delete", "-net", "0.0.0.0/1"]⟩ :=
  @recorded_of_confirmed .macos none _ [.cut] []
    ⟨.route, ["-n", "add", "-net", "0.0.0.0/1", "-interface", "utun3"]⟩
    (by decide) (by simp)

/-! ### A freed route can be deleted again -/

/-- **No second delete, in a clean run**: if recovery and lookups run beside no guard, every
write lands, no act is cut, and no delete confirmed by a teardown, a rollback or a lookup was
named by a second group, then a delete that was confirmed is not issued again before its route
is set up again. -/
theorem noSecondDelete_of_clean (plat : Platform) (disk : Option RouteState)
    (es : List (Act × List Choice))
    (hquiet : (machine plat).Along Quiet (World.start disk) es)
    (hclean : ∀ e ∈ ((machine plat).exec (World.start disk) es).log, e.Clean plat) :
    NoSecondDelete plat ((machine plat).exec (World.start disk) es).log := by
  have hrun : Boundary plat True ((machine plat).exec (World.start disk) es) :=
    Machine.exec_of_along (fun w e h hq ↦ boundary_step h fun _ ↦ hq) (boundary_start disk) hquiet
  exact noSecondDelete_of_not_freed (hrun.fresh ⟨trivial, hclean⟩)

/-- A session that comes up and is torn down with every delete confirmed. -/
theorem noSecondDelete_of_session : NoSecondDelete .macos ((machine .macos).exec (World.start none)
      [(.install "utun3" (.ofOctets 203 0 113 7) sampleGateway, List.replicate 17 .ok),
       (.teardown, List.replicate 11 .ok), (.recover, [.ok])]).log :=
  noSecondDelete_of_clean .macos none _ (by decide) (by decide)

/-- Two sessions to one server on macOS. The first one crashes, and its bypass is never
confirmed gone; nor is that of the second one when it is torn down. -/
def twoSessions : List (Act × List Choice) :=
  let server : IpAddr := .ofOctets 203 0 113 7
  [(.install "utun3" server sampleGateway, List.replicate 17 .ok), (.crash, []),
   (.recover, List.replicate 9 Choice.ok ++ [Choice.spawn "", .ok, .ok]),
   (.lookup server, [.ok, .spawn ""]),
   (.install "utun4" server sampleGateway,
    [Choice.ok, .ok, .spawn ""] ++ List.replicate 18 Choice.ok),
   (.teardown, List.replicate 8 Choice.ok ++ [Choice.spawn "", .ok]),
   (.lookup server, List.replicate 4 .ok)]

/-- **A lookup deletes a freed route.** After the two sessions the primary group and a stale one
both name the bypass. The lookup confirms its delete for the first, and issues it again for the
second, with every write landed and no act cut. -/
theorem second_delete_issued :
    (machine .macos).Along Quiet (World.start none) twoSessions ∧
      .storeFailed ∉ ((machine .macos).exec (World.start none) twoSessions).log ∧
      .cut ∉ ((machine .macos).exec (World.start none) twoSessions).log ∧
      ¬NoSecondDelete .macos ((machine .macos).exec (World.start none) twoSessions).log := by
  refine ⟨by decide, by decide, by decide, fun h ↦ ?_⟩
  set log := ((machine .macos).exec (World.start none) twoSessions).log with hlog
  let bypass (record : RouteState) : Delete :=
    ⟨⟨.route, ["-n", "delete", "-host", "203.0.113.7"]⟩, true, .recoverBypass, true, some record⟩
  let i (tun : String) := identityOf tun (.ofOctets 203 0 113 7) sampleGateway
  let record : RouteState := ⟨i "utun4", [.serverBypass], [⟨i "utun3", [.serverBypass]⟩]⟩
  obtain ⟨a, c, hmem, -⟩ := h [] [] (log.drop 2) (bypass record) (bypass record)
    (by rw [hlog]; decide) rfl rfl
  exact absurd hmem List.not_mem_nil

end Hole.Routing
