import Hole.Net.IpAddr
import Mathlib.Data.List.Nodup

/-!
# The route record

What the tunnel engine persists about the routes it put into the host's table
(`tun-engine/src/routing/state.rs`), together with the identifiers it names them by.

A **group** is a set of routes with one provenance: the tunnel, the server and the uplink they
were installed for. Its five identity fields determine the teardown command of each route, so
they are kept apart from the routes as `RouteIdentity`. The record is one primary group, the
session's own, and the *stale* groups that earlier sessions could not confirm gone.

`coalesce` puts a list of groups into canonical form. Two facts about it carry every later
argument: it keeps the same routes named (up to routes that have no teardown command), and in
its result no two groups share an identity.
-/

namespace Hole.Routing

/-- The five routes an install can create. -/
inductive RouteId
  | splitV4Low
  | splitV4High
  | splitV6Low
  | splitV6High
  | serverBypass
  deriving DecidableEq

/-- The four fixed split routes, in install order. -/
def splitRoutes : List RouteId := [.splitV4Low, .splitV4High, .splitV6Low, .splitV6High]

/-- The form the IPv4 server bypass was installed in. -/
inductive RouteForm
  | via
  | onLink
  deriving DecidableEq

/-- The provenance of a group of routes: what determines the teardown commands it emits. -/
structure RouteIdentity where
  tunName : String
  serverIp : IpAddr
  interfaceName : String
  /-- The gateway the bypass was installed through; `none` only in migrated records. -/
  originalGateway : Option IpAddr
  routeForm : RouteForm
  deriving DecidableEq

/-- One retained group of an earlier session. -/
structure StaleRecord extends RouteIdentity where
  /-- The routes of the group not yet confirmed gone. -/
  installed : List RouteId
  deriving DecidableEq

/-- The persisted record: the session's own group and the stale ones. -/
structure RouteState extends RouteIdentity where
  installed : List RouteId
  /-- Groups carried forward from earlier sessions. -/
  stale : List StaleRecord
  deriving DecidableEq

/-- The record's own fields as a group. -/
def RouteState.primary (st : RouteState) : StaleRecord := ⟨st.toRouteIdentity, st.installed⟩

/-- Every group of the record, in the order crash recovery lists them. -/
def RouteState.groups (st : RouteState) : List StaleRecord := st.stale ++ [st.primary]

/-- `union_ids`: `a`, then every id of `b` that is not yet there. -/
def unionIds (a b : List RouteId) : List RouteId :=
  b.foldl (fun v id ↦ if id ∈ v then v else v ++ [id]) a

variable {id : RouteId}

@[simp] theorem mem_unionIds {a b : List RouteId} : id ∈ unionIds a b ↔ id ∈ a ∨ id ∈ b := by
  unfold unionIds
  induction b generalizing a with
  | nil => simp
  | cons x b ih =>
    rw [List.foldl_cons, ih]
    split
    · next h => grind
    · grind

/-- `planned_routes`: the routes an install for a server attempts, in command order. A loopback
server gets no bypass. -/
def plannedRoutes (serverIp : IpAddr) : List RouteId :=
  if serverIp.toCanonical.isLoopback then splitRoutes else splitRoutes ++ [RouteId.serverBypass]

theorem splitRoutes_subset_plannedRoutes (ip : IpAddr) : splitRoutes ⊆ plannedRoutes ip := by
  unfold plannedRoutes
  split
  · exact List.Subset.refl _
  · exact List.subset_append_left _ _

theorem serverBypass_mem_plannedRoutes {ip : IpAddr} :
    .serverBypass ∈ plannedRoutes ip ↔ ip.toCanonical.isLoopback = false := by
  unfold plannedRoutes
  split <;> simp_all [splitRoutes]

/-! ### Canonical form -/

/-- Merge a group into the first one of the same identity, or append it: one round of the first
loop of `coalesce`. -/
def mergeGroup (merged : List StaleRecord) (g : StaleRecord) : List StaleRecord :=
  match merged with
  | [] => [g]
  | m :: ms =>
    if m.toRouteIdentity = g.toRouteIdentity then
      { m with installed := unionIds m.installed g.installed } :: ms
    else m :: mergeGroup ms g

/-- Drop the ids no install for the group's server can plan. -/
def StaleRecord.sanitize (g : StaleRecord) : StaleRecord :=
  { g with installed := g.installed.filter (· ∈ plannedRoutes g.serverIp) }

/-- `coalesce`: merge groups of one identity, sanitize each, drop the empty ones. -/
def coalesce (groups : List StaleRecord) : List StaleRecord :=
  ((groups.foldl mergeGroup []).map StaleRecord.sanitize).filter (!·.installed.isEmpty)

theorem identity_mergeGroup (ms : List StaleRecord) (g : StaleRecord) :
    (mergeGroup ms g).map (·.toRouteIdentity) =
      if g.toRouteIdentity ∈ ms.map (·.toRouteIdentity) then ms.map (·.toRouteIdentity)
      else ms.map (·.toRouteIdentity) ++ [g.toRouteIdentity] := by
  induction ms with
  | nil => simp [mergeGroup]
  | cons m ms ih =>
    rw [mergeGroup]
    by_cases h : m.toRouteIdentity = g.toRouteIdentity
    · simp [h]
    · rw [if_neg h, List.map_cons, ih]
      have h' : g.toRouteIdentity ≠ m.toRouteIdentity := Ne.symm h
      simp only [List.map_cons, List.mem_cons, h', false_or]
      split <;> simp

variable {ms : List StaleRecord}

theorem nodup_identity_mergeGroup (g : StaleRecord) (h : (ms.map (·.toRouteIdentity)).Nodup) :
    ((mergeGroup ms g).map (·.toRouteIdentity)).Nodup := by
  rw [identity_mergeGroup]
  split
  · exact h
  · next hg =>
    rw [List.nodup_append]
    refine ⟨h, by simp, ?_⟩
    rintro x hx y hy rfl
    exact hg (List.mem_singleton.1 hy ▸ hx)

theorem nodup_identity_merge (groups : List StaleRecord) (h : (ms.map (·.toRouteIdentity)).Nodup) :
    ((groups.foldl mergeGroup ms).map (·.toRouteIdentity)).Nodup := by
  induction groups generalizing ms with
  | nil => exact h
  | cons g gs ih => exact ih (nodup_identity_mergeGroup g h)

/-- In canonical form no two groups share an identity. -/
theorem nodup_identity_coalesce (groups : List StaleRecord) :
    ((coalesce groups).map (·.toRouteIdentity)).Nodup := by
  have hmerge : ((groups.foldl mergeGroup []).map (·.toRouteIdentity)).Nodup :=
    nodup_identity_merge groups List.nodup_nil
  have hsan : ((groups.foldl mergeGroup []).map StaleRecord.sanitize).map (·.toRouteIdentity) =
      (groups.foldl mergeGroup []).map (·.toRouteIdentity) := by
    rw [List.map_map]
    rfl
  rw [← hsan] at hmerge
  exact hmerge.sublist (List.filter_sublist.map _)

/-- Some group of identity `i` lists the route `id`. -/
def Lists (groups : List StaleRecord) (i : RouteIdentity) (id : RouteId) : Prop :=
  ∃ g ∈ groups, g.toRouteIdentity = i ∧ id ∈ g.installed

variable {i : RouteIdentity}

@[simp] theorem lists_nil : ¬Lists [] i id := by
  simp [Lists]

variable {gs : List StaleRecord} {g : StaleRecord}

@[simp] theorem lists_cons :
    Lists (g :: gs) i id ↔ g.toRouteIdentity = i ∧ id ∈ g.installed ∨ Lists gs i id := by
  simp [Lists]

@[simp] theorem lists_append {gs hs : List StaleRecord} :
    Lists (gs ++ hs) i id ↔ Lists gs i id ∨ Lists hs i id := by
  simp only [Lists, List.mem_append, or_and_right, exists_or]

theorem lists_mergeGroup :
    Lists (mergeGroup ms g) i id ↔ Lists ms i id ∨ g.toRouteIdentity = i ∧ id ∈ g.installed := by
  induction ms with
  | nil => simp [mergeGroup]
  | cons m ms ih =>
    rw [mergeGroup]
    split
    · next h => simp only [lists_cons, mem_unionIds, h]; tauto
    · rw [lists_cons, ih, lists_cons, or_assoc]

theorem lists_merge (groups : List StaleRecord) :
    Lists (groups.foldl mergeGroup ms) i id ↔ Lists ms i id ∨ Lists groups i id := by
  induction groups generalizing ms with
  | nil => simp
  | cons g gs ih => rw [List.foldl_cons, ih, lists_mergeGroup, lists_cons, or_assoc]

theorem lists_map_sanitize :
    Lists (gs.map StaleRecord.sanitize) i id ↔ Lists gs i id ∧ id ∈ plannedRoutes i.serverIp := by
  constructor
  · rintro ⟨_, hg, hi, hid⟩
    obtain ⟨g, hmem, rfl⟩ := List.mem_map.1 hg
    obtain ⟨hid, hplan⟩ := List.mem_filter.1 hid
    subst hi
    exact ⟨⟨g, hmem, rfl, hid⟩, of_decide_eq_true hplan⟩
  · rintro ⟨⟨g, hg, rfl, hid⟩, hplan⟩
    exact ⟨_, List.mem_map_of_mem hg, rfl, List.mem_filter.2 ⟨hid, decide_eq_true hplan⟩⟩

/-- Dropping the groups that list nothing changes nothing that is listed. -/
@[simp] theorem lists_filter_nonempty :
    Lists (gs.filter (!·.installed.isEmpty)) i id ↔ Lists gs i id := by
  constructor
  · rintro ⟨g, hg, hi, hid⟩
    exact ⟨g, (List.mem_filter.1 hg).1, hi, hid⟩
  · rintro ⟨g, hg, hi, hid⟩
    refine ⟨g, List.mem_filter.2 ⟨hg, ?_⟩, hi, hid⟩
    rw [Bool.not_eq_eq_eq_not, Bool.not_true, List.isEmpty_eq_false_iff]
    exact List.ne_nil_of_mem hid

/-- Canonical form lists the same routes, less those that have no teardown command. -/
theorem lists_coalesce :
    Lists (coalesce gs) i id ↔ Lists gs i id ∧ id ∈ plannedRoutes i.serverIp := by
  rw [coalesce, lists_filter_nonempty, lists_map_sanitize, lists_merge]
  simp

/-- The canonical form of a list of groups. -/
structure Canonical (groups : List StaleRecord) : Prop where
  /-- No two groups share an identity. -/
  distinct : (groups.map (·.toRouteIdentity)).Nodup
  nonempty : ∀ g ∈ groups, g.installed ≠ []
  /-- What a group lists is planned for its server. -/
  planned : ∀ g ∈ groups, ∀ id ∈ g.installed, id ∈ plannedRoutes g.serverIp

theorem canonical_coalesce (groups : List StaleRecord) : Canonical (coalesce groups) where
  distinct := nodup_identity_coalesce groups
  nonempty g hg := by
    have hne := (List.mem_filter.1 hg).2
    rwa [Bool.not_eq_eq_eq_not, Bool.not_true, List.isEmpty_eq_false_iff] at hne
  planned g hg id hid := by
    obtain ⟨m, -, rfl⟩ := List.mem_map.1 (List.mem_filter.1 hg).1
    exact of_decide_eq_true (List.mem_filter.1 hid).2

/-- A group of an identity that is not there yet is appended. -/
theorem mergeGroup_of_not_mem (h : g.toRouteIdentity ∉ ms.map (·.toRouteIdentity)) :
    mergeGroup ms g = ms ++ [g] := by
  induction ms with
  | nil => rfl
  | cons m ms ih =>
    rw [List.map_cons, List.mem_cons, not_or] at h
    rw [mergeGroup, if_neg (Ne.symm h.1), ih h.2, List.cons_append]

theorem foldl_mergeGroup_of_nodup (groups ms : List StaleRecord)
    (h : ((ms ++ groups).map (·.toRouteIdentity)).Nodup) :
    groups.foldl mergeGroup ms = ms ++ groups := by
  induction groups generalizing ms with
  | nil => exact (List.append_nil ms).symm
  | cons g groups ih =>
    have hg : g.toRouteIdentity ∉ ms.map (·.toRouteIdentity) := by
      rw [List.map_append, List.map_cons] at h
      exact fun hmem ↦ (List.nodup_append.1 h).2.2 _ hmem _ (.head _) rfl
    rw [List.append_cons] at h
    rw [List.foldl_cons, mergeGroup_of_not_mem hg, ih _ h, List.append_assoc, List.singleton_append]

theorem Canonical.sanitize_eq {groups : List StaleRecord} (h : Canonical groups) :
    groups.map StaleRecord.sanitize = groups := by
  have hid : ∀ g ∈ groups, g.sanitize = g := by
    intro g hg
    have hfilter : g.installed.filter (· ∈ plannedRoutes g.serverIp) = g.installed :=
      List.filter_eq_self.2 fun id hid ↦ decide_eq_true (h.planned g hg id hid)
    rw [StaleRecord.sanitize, hfilter]
  exact (List.map_congr_left hid).trans (List.map_id _)

/-- What is in canonical form is left as it is. -/
theorem Canonical.coalesce_eq {groups : List StaleRecord} (h : Canonical groups) :
    coalesce groups = groups := by
  rw [coalesce, foldl_mergeGroup_of_nodup groups [] h.distinct, List.nil_append, h.sanitize_eq]
  refine List.filter_eq_self.2 fun g hg ↦ ?_
  rw [Bool.not_eq_eq_eq_not, Bool.not_true, List.isEmpty_eq_false_iff]
  exact h.nonempty g hg

theorem Lists.perm {gs hs : List StaleRecord} (h : gs.Perm hs) (hlists : Lists gs i id) :
    Lists hs i id := by
  obtain ⟨g, hg, hi, hid⟩ := hlists
  exact ⟨g, h.mem_iff.1 hg, hi, hid⟩

/-- **Canonical form**: what `coalesce` returns is in it and lists what was listed and is planned;
`coalesce` changes it no further, and what it lists does not depend on the order of the groups. -/
theorem coalesce_spec (gs : List StaleRecord) :
    Canonical (coalesce gs) ∧
      (∀ i id, Lists (coalesce gs) i id ↔ Lists gs i id ∧ id ∈ plannedRoutes i.serverIp) ∧
      coalesce (coalesce gs) = coalesce gs ∧
      ∀ hs, gs.Perm hs → ∀ i id, Lists (coalesce gs) i id ↔ Lists (coalesce hs) i id := by
  refine ⟨canonical_coalesce gs, fun _ _ ↦ lists_coalesce,
    (canonical_coalesce gs).coalesce_eq, fun hs hperm i id ↦ ?_⟩
  rw [lists_coalesce, lists_coalesce]
  exact and_congr_left' ⟨Lists.perm hperm, Lists.perm hperm.symm⟩

end Hole.Routing
