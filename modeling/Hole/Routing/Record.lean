import Hole.Routing.System

/-!
# What the routing code keeps recorded

Two invariants of the routing code, proved together, one specification for each function.

*Nothing leaks out of the record*: every route in the table is named by the record on disk, and
by whatever the running function holds in memory. *Nothing freed stays in it*: a delete that was
confirmed is named by neither, until the route is set up again. The first holds in every state
of every run. The second is conditional, on a history of `Clean` events (`Good`), and it holds
of the record on disk only where an act ends.

A function's memory enters through the set of deletes it names, as `Tracks`; what the disk
satisfies in every state, the middle of an act included, is `Inv`.
-/

namespace Hole.Routing

open Effect

variable {plat : Platform} {P : Prop} {w w' : World} {S S' : Argv → Prop}

/-- The histories the second invariant is about. The parameter `P` switches it off. -/
def Good (plat : Platform) (P : Prop) (log : List Event) : Prop := P ∧ ∀ e ∈ log, e.Clean plat

variable {es : List Event}

theorem Good.tail {e : Event} (h : Good plat P (e :: es)) : Good plat P es :=
  ⟨h.1, fun e' he ↦ h.2 e' (.tail _ he)⟩

theorem not_good_storeFailed : ¬Good plat P (.storeFailed :: es) :=
  fun h ↦ h.2 _ (.head _)

theorem not_good_cut : ¬Good plat P (.cut :: es) :=
  fun h ↦ h.2 _ (.head _)

/-- The set `S` of deletes named holds what is in the table and nothing that was freed. -/
structure Tracks (plat : Platform) (P : Prop) (S : Argv → Prop) (w : World) : Prop where
  /-- Every route in the table is named. -/
  covers : ∀ r ∈ ledger plat w.log, S r
  /-- No freed route is named. -/
  fresh : Good plat P w.log → ∀ r, Freed plat w.log r → ¬S r

/-- What holds in every state: the record on disk and the live guard name every route in the
table, and every delete so far was issued for a route that was not freed. -/
structure Inv (plat : Platform) (P : Prop) (w : World) : Prop where
  /-- The record on disk covers the table. -/
  recorded : ∀ r ∈ ledger plat w.log, Names plat (recordGroups w.disk) r
  /-- The live guard covers the table. -/
  guarded : ∀ g, w.guard = some g → ∀ r ∈ ledger plat w.log, Names plat g.toRouteState.groups r
  /-- No delete was issued for a freed route. -/
  fresh : Good plat P w.log → ∀ newer older d, w.log = newer ++ .delete d :: older →
    ¬Freed plat older d.argv

theorem Tracks.congr (h : Tracks plat P S w) (hS : ∀ r, S r ↔ S' r) : Tracks plat P S' w :=
  ⟨fun r hr ↦ (hS r).1 (h.covers r hr), fun hg r hf hs ↦ h.fresh hg r hf ((hS r).2 hs)⟩

/-! ### One delete -/

/-- The world after a delete was issued. -/
def World.issue (w : World) (d : Delete) : World := { w with log := .delete d :: w.log }

variable {d : Delete}

theorem mem_ledger_delete {r : Argv} :
    r ∈ ledger plat (.delete d :: es) ↔ r ∈ ledger plat es ∧ (d.confirmed = true → r ≠ d.argv) := by
  rw [ledger]
  split
  · next h => simp [h]
  · next h => simp [h]

theorem Inv.issue (h : Inv plat P w) (hd : Good plat P w.log → ¬Freed plat w.log d.argv) :
    Inv plat P (w.issue d) where
  recorded r hr := h.recorded r (mem_ledger_delete.1 hr).1
  guarded g hg r hr := h.guarded g hg r (mem_ledger_delete.1 hr).1
  fresh hgood newer older d' hlog := by
    rcases newer with - | ⟨e, newer⟩
    · obtain ⟨he, rfl⟩ := List.cons.inj hlog
      cases he
      exact hd hgood.tail
    · exact h.fresh hgood.tail newer older d' (List.cons.inj hlog).2

theorem Tracks.issue_unconfirmed (h : Tracks plat P S w) (hd : d.confirmed = false) :
    Tracks plat P S (w.issue d) where
  covers r hr := h.covers r (mem_ledger_delete.1 hr).1
  fresh hgood r hr := by
    rcases hr with ⟨hc, -⟩ | hr
    · rw [hd] at hc
      cases hc
    · exact h.fresh hgood.tail r hr

/-- A confirmed delete may be taken out of the names, and has to be where the history is good. -/
theorem Tracks.issue_confirmed (h : Tracks plat P S w) (hd : d.confirmed = true)
    (hkeep : ∀ r, S r → r ≠ d.argv → S' r) (hsub : ∀ r, S' r → S r)
    (hout : Good plat P (.delete d :: w.log) → ¬S' d.argv) : Tracks plat P S' (w.issue d) where
  covers r hr := by
    obtain ⟨hr, hne⟩ := mem_ledger_delete.1 hr
    exact hkeep r (h.covers r hr) (hne hd)
  fresh hgood r hr := by
    rcases hr with ⟨-, rfl⟩ | hr
    · exact hout hgood
    · exact fun hs ↦ h.fresh hgood.tail r hr (hsub r hs)

/-- The delete `cmd` issues in a phase of an act, with its outcome. -/
def deleteOf (act : Act) (phase : BestEffortPhase) (cmd : RouteCommand) (w : World)
    (confirmed : Bool) : Delete :=
  ⟨cmd.toArgv, act.isLookup, phase, confirmed, w.disk⟩

variable {act : Act}

theorem safe_runTeardownCommand {phase : BestEffortPhase} {cmd : RouteCommand} (hI : Inv plat P w)
    (hcmd : Good plat P w.log → ¬Freed plat w.log cmd.toArgv) :
    (runTeardownCommand cmd phase).Safe (host act) (Inv plat P)
      (fun b w' ↦ w' = w.issue (deleteOf act phase cmd w b)) w := by
  have hI' : ∀ b, Inv plat P (w.issue (deleteOf act phase cmd w b)) := fun b ↦ hI.issue hcmd
  refine ⟨hI, fun c ↦ ?_⟩
  cases c with
  | ok => exact ⟨hI' true, rfl⟩
  | _ => exact ⟨hI' false, rfl⟩

/-! ### Store operations -/

/-- The outcomes of replacing the file by `d`: it landed, or the file is as it was. -/
inductive Stored (w : World) (d : Option RouteState) : World → Prop
  | landed : Stored w d { w with disk := d }
  | failed : Stored w d { w with log := .storeFailed :: w.log }

namespace Stored

variable {d : Option RouteState}

theorem ledger_eq (h : Stored w d w') : ledger plat w'.log = ledger plat w.log := by
  cases h <;> rfl

theorem good (h : Stored w d w') (hg : Good plat P w'.log) : w'.disk = d ∧ w'.log = w.log := by
  cases h with
  | landed => exact ⟨rfl, rfl⟩
  | failed => exact absurd hg not_good_storeFailed

theorem guard_eq (h : Stored w d w') : w'.guard = w.guard := by
  cases h <;> rfl

theorem tracks (h : Stored w d w') (ht : Tracks plat P S w) : Tracks plat P S w' where
  covers r hr := ht.covers r (by rwa [h.ledger_eq] at hr)
  fresh hg := by
    have hlog := (h.good hg).2
    rw [hlog] at hg ⊢
    exact ht.fresh hg

theorem inv (h : Stored w d w') (hI : Inv plat P w)
    (hd : ∀ r ∈ ledger plat w.log, Names plat (recordGroups d) r) : Inv plat P w' where
  recorded r hr := by
    rw [h.ledger_eq] at hr
    cases h with
    | landed => exact hd r hr
    | failed => exact hI.recorded r hr
  guarded g hg r hr := by
    rw [h.guard_eq] at hg
    rw [h.ledger_eq] at hr
    exact hI.guarded g hg r hr
  fresh hg := by
    have hlog := (h.good hg).2
    rw [hlog] at hg ⊢
    exact hI.fresh hg

/-- If what is stored was tracked, the file is tracked, whether the store landed or not. -/
theorem tracks_disk (h : Stored w d w') (hI : Inv plat P w')
    (ht : Tracks plat P (Names plat (recordGroups d)) w) :
    Tracks plat P (Names plat (recordGroups w'.disk)) w' where
  covers := hI.recorded
  fresh hg := by
    rw [(h.good hg).1]
    exact (h.tracks ht).fresh hg

end Stored

variable {st : RouteState}

theorem safe_writeRecord (hI : Inv plat P w)
    (hst : ∀ r ∈ ledger plat w.log, Names plat st.groups r) :
    (writeRecord st).Safe (host act) (Inv plat P)
      (fun res w' ↦ Stored w (some st) w' ∧ (res = .ok () → w' = { w with disk := some st }) ∧
        (res ≠ .ok () → ¬Good plat P w'.log)) w := by
  have hland : Inv plat P { w with disk := some st } := Stored.landed.inv hI hst
  have hfail : Inv plat P { w with log := .storeFailed :: w.log } :=
    (Stored.failed (d := some st)).inv hI hst
  refine ⟨hI, fun c ↦ ?_⟩
  cases c with
  | ok => exact ⟨hland, .landed, fun _ ↦ rfl, fun h ↦ absurd rfl h⟩
  | _ => exact ⟨hfail, .failed, nofun, fun _ ↦ not_good_storeFailed⟩

theorem safe_tryWrite (hI : Inv plat P w) (hst : ∀ r ∈ ledger plat w.log, Names plat st.groups r) :
    (tryWrite st).Safe (host act) (Inv plat P) (fun _ w' ↦ Stored w (some st) w') w :=
  (safe_writeRecord hI hst).bind fun _ _ hI' h ↦ ⟨hI', h.1⟩

theorem safe_tryRemove (hI : Inv plat P w) (hnil : ledger plat w.log = []) :
    tryRemove.Safe (host act) (Inv plat P) (fun _ w' ↦ Stored w none w') w := by
  have hst : ∀ r ∈ ledger plat w.log, Names plat (recordGroups none) r := by simp [hnil]
  have hland : Inv plat P { w with disk := none } := Stored.landed.inv hI hst
  have hfail : Inv plat P { w with log := .storeFailed :: w.log } :=
    (Stored.failed (d := none)).inv hI hst
  refine ⟨hI, fun c ↦ ?_⟩
  cases c with
  | ok => exact ⟨hland, .landed⟩
  | _ => exact ⟨hfail, .failed⟩

/-! ### Recovery of groups -/

/-- One of the two command families recovery goes through: a part of the teardown commands that
contains a command of any group as soon as it contains it for one. -/
structure Family (plat : Platform) (commandsOf : RouteIdentity → List RouteCommand) : Prop where
  /-- The family is a part of the teardown commands. -/
  mem_build : ∀ {i c}, c ∈ commandsOf i → c ∈ buildTeardownCommands plat i
  /-- Membership depends on the command alone. -/
  mem_of_build : ∀ {i j c}, c ∈ buildTeardownCommands plat i → c ∈ commandsOf j → c ∈ commandsOf i
  /-- A group's commands are distinct. -/
  distinct : ∀ i, (commandsOf i).Pairwise (·.toArgv ≠ ·.toArgv)

theorem family_split : Family plat fun i ↦ buildSplitRouteTeardownCommands plat i.tunName where
  mem_build h := List.mem_append_left _ h
  mem_of_build {i j c} hi hj := by
    rcases List.mem_append.1 hi with h | h
    · exact h
    · exact absurd rfl (split_ne_bypass hj (Option.mem_toList.1 h))
  distinct i := by
    cases plat <;> simp [buildSplitRouteTeardownCommands, netshRoute]

theorem family_bypass : Family plat fun i ↦ (platformBypassTeardownCommand plat i).toList where
  mem_build h := List.mem_append_right _ h
  mem_of_build {i j c} hi hj := by
    rcases List.mem_append.1 hi with h | h
    · exact absurd rfl (split_ne_bypass h (Option.mem_toList.1 hj))
    · exact h
  distinct i := by
    rcases platformBypassTeardownCommand plat i with - | c <;> simp

section Groups

variable {commandsOf : RouteIdentity → List RouteCommand}

@[simp] theorem StaleRecord.narrow_identity (cmd : RouteCommand) (g : StaleRecord) :
    (g.narrow commandsOf cmd).toRouteIdentity = g.toRouteIdentity := by
  unfold StaleRecord.narrow
  split <;> rfl

theorem map_identity_narrow (cmd : RouteCommand) (gs : List StaleRecord) :
    (gs.map (·.narrow commandsOf cmd)).map (·.toRouteIdentity) = gs.map (·.toRouteIdentity) := by
  simp [Function.comp_def]

variable {cmd : RouteCommand} {i : RouteIdentity}

/-- Dropping a route from a group takes out its delete and nothing else. -/
theorem mem_deletes_filter (hcmd : cmd ∈ buildTeardownCommands plat i) {ids : List RouteId}
    {r : Argv} :
    r ∈ (⟨i, ids.filter (· ≠ cmd.id)⟩ : StaleRecord).deletes plat ↔
      r ∈ (⟨i, ids⟩ : StaleRecord).deletes plat ∧ r ≠ cmd.toArgv := by
  simp only [StaleRecord.mem_deletes, List.mem_filter, decide_eq_true_eq]
  constructor
  · rintro ⟨c, hc, ⟨hid, hne⟩, rfl⟩
    exact ⟨⟨c, hc, hid, rfl⟩, fun h ↦ hne (by rw [eq_of_argv_eq hc hcmd h])⟩
  · rintro ⟨⟨c, hc, hid, rfl⟩, hne⟩
    exact ⟨c, hc, ⟨hid, fun h ↦ hne (by rw [eq_of_id_eq hc hcmd h])⟩, rfl⟩

/-- Narrowing takes out the confirmed delete and nothing else. -/
theorem mem_deletes_narrow (hfam : Family plat commandsOf) (hcmd : cmd ∈ commandsOf i)
    {g : StaleRecord} {r : Argv} :
    r ∈ (g.narrow commandsOf cmd).deletes plat ↔ r ∈ g.deletes plat ∧ r ≠ cmd.toArgv := by
  unfold StaleRecord.narrow
  split
  · next hnar => exact mem_deletes_filter (hfam.mem_build hnar.2)
  · next hnar =>
    refine ⟨fun hr ↦ ⟨hr, ?_⟩, And.left⟩
    rintro rfl
    obtain ⟨c, hc, hid, h⟩ := StaleRecord.mem_deletes.1 hr
    obtain rfl := eq_of_argv_eq hc (hfam.mem_build hcmd) h
    exact hnar ⟨hid, hfam.mem_of_build hc hcmd⟩

variable {gs : List StaleRecord}

theorem names_narrow (hfam : Family plat commandsOf) (hcmd : cmd ∈ commandsOf i) {r : Argv} :
    Names plat (gs.map (·.narrow commandsOf cmd)) r ↔ Names plat gs r ∧ r ≠ cmd.toArgv := by
  simp only [Names, List.mem_map, exists_exists_and_eq_and, mem_deletes_narrow hfam hcmd,
    ← and_assoc, exists_and_right]

/-- `f` makes a record of a list of groups with the identities `ids` that names the same. -/
def Carries (plat : Platform) (ids : List RouteIdentity) (f : List StaleRecord → RouteState) :
    Prop :=
  ∀ gs : List StaleRecord, gs.map (·.toRouteIdentity) = ids →
    ∀ r, Names plat (f gs).groups r ↔ Names plat gs r

/-- The assertion of the delete loop of one group: what is in memory is tracked, and the deletes
left to issue are distinct and not for freed routes. -/
structure Pending (plat : Platform) (P : Prop) (commandsOf : RouteIdentity → List RouteCommand)
    (ids : List RouteIdentity) (rest : List RouteCommand)
    (acc : List StaleRecord × List Argv) (w : World) : Prop where
  tracks : Tracks plat P (Names plat acc.1) w
  ids_eq : acc.1.map (·.toRouteIdentity) = ids
  /-- Every delete left belongs to the family. -/
  mem : ∀ c ∈ rest, ∃ i, c ∈ commandsOf i
  /-- No delete left is for a freed route. -/
  live : Good plat P w.log → ∀ c ∈ rest, ¬Freed plat w.log c.toArgv
  distinct : rest.Pairwise (·.toArgv ≠ ·.toArgv)

variable {ids : List RouteIdentity} {f : List StaleRecord → RouteState} {act : Act}
  {phase : BestEffortPhase}

variable {acc : List StaleRecord × List Argv}

theorem safe_recoverRound (hfam : Family plat commandsOf) (hf : Carries plat ids f)
    {rest : List RouteCommand} (hI : Inv plat P w)
    (h : Pending plat P commandsOf ids (cmd :: rest) acc w) :
    (recoverRound commandsOf phase (fun gs ↦ tryWrite (f gs)) acc cmd).Safe (host act)
      (Inv plat P) (Pending plat P commandsOf ids rest) w := by
  obtain ⟨i, hcmd⟩ := h.mem cmd (.head _)
  refine (safe_runTeardownCommand hI fun hg ↦ h.live hg cmd (.head _)).bind ?_
  rintro gone _ hI' rfl
  set w₁ := w.issue (deleteOf act phase cmd w gone) with hw₁
  set groups := if gone then acc.1.map (·.narrow commandsOf cmd) else acc.1 with hgroups
  have hids : groups.map (·.toRouteIdentity) = ids := by
    rw [hgroups, ← h.ids_eq]
    split
    · exact map_identity_narrow cmd acc.1
    · rfl
  have htracks : Tracks plat P (Names plat groups) w₁ := by
    cases gone with
    | false => exact h.tracks.issue_unconfirmed rfl
    | true =>
      refine h.tracks.issue_confirmed rfl (fun r hr hne ↦ ?_) (fun r hr ↦ ?_) fun _ hr ↦ ?_
      · exact (names_narrow hfam hcmd).2 ⟨hr, hne⟩
      · exact ((names_narrow hfam hcmd).1 hr).1
      · exact ((names_narrow hfam hcmd).1 hr).2 rfl
  refine (safe_tryWrite hI' fun r hr ↦ (hf groups hids r).2 (htracks.covers r hr)).bind ?_
  intro _ w₂ hI₂ hst
  refine ⟨hI₂, hst.tracks htracks, hids, fun c hc ↦ h.mem c (.tail _ hc), ?_,
    h.distinct.of_cons⟩
  intro hg c hc
  obtain ⟨-, hlog⟩ := hst.good hg
  rw [hlog] at hg ⊢
  -- only the delete just issued can have become freed, and it is none of those left
  rintro (⟨-, heq⟩ | hfreed)
  · exact (List.pairwise_cons.1 h.distinct).1 c hc heq
  · exact h.live hg.tail c (.tail _ hc) hfreed

theorem pending_pendingCommands (hfam : Family plat commandsOf)
    (ht : Tracks plat P (Names plat acc.1) w) (hids : acc.1.map (·.toRouteIdentity) = ids)
    (i : Nat) : Pending plat P commandsOf ids (pendingCommands commandsOf acc i) acc w := by
  unfold pendingCommands
  split
  · next g hg =>
    have hmem := List.mem_of_getElem? hg
    refine ⟨ht, hids, fun c hc ↦ ⟨_, (List.mem_filter.1 hc).1⟩, fun hgood c hc hf ↦ ?_, ?_⟩
    · obtain ⟨hc, hid⟩ := List.mem_filter.1 hc
      have hid : c.id ∈ g.installed := (of_decide_eq_true hid).1
      refine ht.fresh hgood _ hf ⟨g, hmem, ?_⟩
      exact StaleRecord.mem_deletes.2 ⟨c, hfam.mem_build hc, hid, rfl⟩
    · exact (hfam.distinct _).filter _
  · exact ⟨ht, hids, nofun, fun _ ↦ nofun, .nil⟩

theorem safe_recoverPass (hfam : Family plat commandsOf) (hf : Carries plat ids f)
    (hI : Inv plat P w) (ht : Tracks plat P (Names plat gs) w)
    (hids : gs.map (·.toRouteIdentity) = ids) :
    (recoverPass commandsOf phase (fun gs ↦ tryWrite (f gs)) gs).Safe (host act) (Inv plat P)
      (fun gs' w' ↦ Tracks plat P (Names plat gs') w' ∧ gs'.map (·.toRouteIdentity) = ids) w := by
  let R (acc : List StaleRecord × List Argv) (w' : World) : Prop :=
    Tracks plat P (Names plat acc.1) w' ∧ acc.1.map (·.toRouteIdentity) = ids
  refine Prog.Safe.bind (R := R) ?_ fun acc w' hI' h ↦ ⟨hI', h⟩
  refine Prog.safe_foldlM (L := fun _ ↦ R) _ hI ⟨ht, hids⟩ ?_
  rintro i - acc w' hI' ⟨ht', hids'⟩
  refine (Prog.safe_foldlM (L := Pending plat P commandsOf ids) _ hI'
    (pending_pendingCommands hfam ht' hids' i) ?_).mono fun _ _ _ h ↦ ⟨h.tracks, h.ids_eq⟩
  exact fun cmd rest acc w hI h ↦ safe_recoverRound hfam hf hI h

/-- Recovery keeps what it holds in memory tracked: every confirmed delete is taken out of every
group that names it. -/
theorem safe_recoverGroups (hf : Carries plat ids f) (hI : Inv plat P w)
    (ht : Tracks plat P (Names plat gs) w) (hids : gs.map (·.toRouteIdentity) = ids) :
    (recoverGroups plat gs fun gs ↦ tryWrite (f gs)).Safe (host act) (Inv plat P)
      (fun gs' w' ↦ Tracks plat P (Names plat gs') w' ∧ gs'.map (·.toRouteIdentity) = ids) w :=
  (safe_recoverPass family_split hf hI ht hids).bind fun _ _ hI' h ↦
    safe_recoverPass family_bypass hf hI' h.1 h.2

end Groups

/-! ### The sweep before an install -/

/-- What a read finds, given the file. -/
def Found.Of (disk : Option RouteState) : Found → Prop
  | .records st => disk = some st
  | .nothing => disk = none
  | .unreadable _ => True

theorem safe_readRecord (hI : Inv plat P w) :
    readRecord.Safe (host act) (Inv plat P) (fun found w' ↦ w' = w ∧ found.Of w.disk) w := by
  refine ⟨hI, fun c ↦ ⟨hI, rfl, ?_⟩⟩
  obtain ⟨disk, guard, log⟩ := w
  cases c with
  | ok => cases disk <;> rfl
  | _ => trivial

theorem RouteState.primary_deletes_of_nil (h : st.installed = []) :
    st.primary.deletes plat = [] := by
  simp [StaleRecord.deletes, RouteState.primary, h]

theorem names_groups {r : Argv} :
    Names plat st.groups r ↔ Names plat st.stale r ∨ r ∈ st.primary.deletes plat := by
  simp [RouteState.groups]

theorem names_groups_of_nil (h : st.installed = []) {r : Argv} :
    Names plat st.groups r ↔ Names plat st.stale r := by
  simp [names_groups, RouteState.primary_deletes_of_nil h]

/-- After a sweep the fresh record in memory is tracked. A refused sweep did nothing. -/
theorem safe_sweepLeftoverBeforeInstall {template : RouteState} (hinst : template.installed = [])
    (hstale : template.stale = []) (hI : Inv plat P w)
    (ht : Tracks plat P (Names plat (recordGroups w.disk)) w) :
    (sweepLeftoverBeforeInstall plat template).Safe (host act) (Inv plat P)
      (fun res w' ↦ match res with
        | .ok p => p.toRouteIdentity = template.toRouteIdentity ∧ p.installed = [] ∧
            Tracks plat P (Names plat p.groups) w'
        | .error _ => w' = w) w := by
  have hcarry : ∀ ids, Carries plat ids fun gs ↦ { template with stale := gs } :=
    fun ids gs _ r ↦ names_groups_of_nil (by exact hinst)
  have hnil : ∀ r, ¬Names plat template.groups r := by
    intro r
    rw [names_groups_of_nil hinst, hstale]
    exact names_nil
  refine (safe_readRecord hI).bind ?_
  rintro found w₁ hI ⟨hw, hdisk⟩
  subst w₁
  rcases found with leftover | - | cause
  · -- a record: its groups are carried over in canonical form
    dsimp only
    set groups := coalesce
      (if leftover.installed.isEmpty then leftover.stale else leftover.groups) with hgroups
    have hnames : ∀ r, Names plat (recordGroups w.disk) r ↔ Names plat groups r := by
      intro r
      rw [show w.disk = some leftover from hdisk, hgroups, names_coalesce, recordGroups]
      split
      · next he => exact names_groups_of_nil (List.isEmpty_iff.1 he)
      · rfl
    have ht : Tracks plat P (Names plat groups) w := ht.congr hnames
    split
    · next he =>
      rw [List.isEmpty_iff.1 he] at ht
      exact ⟨hI, rfl, hinst, ht.congr fun r ↦ iff_of_false names_nil (hnil r)⟩
    · refine (safe_tryWrite hI fun r hr ↦ (hcarry _ _ rfl r).2 (ht.covers r hr)).bind ?_
      intro _ w₁ hI₁ hst₁
      refine (safe_recoverGroups (hcarry _) hI₁ (hst₁.tracks ht) rfl).bind ?_
      rintro swept w₂ hI₂ ⟨ht₂, -⟩
      have hswept : ∀ r, Names plat swept r ↔ Names plat
          { template with stale := swept.filter (!·.installed.isEmpty) }.groups r := by
        intro r
        rw [hcarry _ _ rfl, names_filter_nonempty]
      refine (safe_tryWrite hI₂ fun r hr ↦ (hswept r).1 (ht₂.covers r hr)).bind ?_
      intro _ w₃ hI₃ hst₃
      exact ⟨hI₃, rfl, hinst, hst₃.tracks (ht₂.congr hswept)⟩
  · refine ⟨hI, rfl, hinst, ht.congr fun r ↦ iff_of_false ?_ (hnil r)⟩
    rw [show w.disk = none from hdisk]
    exact names_nil
  · exact ⟨hI, rfl⟩

/-! ### The gateway lookup -/

section Lookup

variable {act : Act} {dest : IpAddr} {C : Argv → Prop}

/-- How many groups of the record name a delete. -/
def namedBy (plat : Platform) (gs : List StaleRecord) (r : Argv) : Nat :=
  gs.countP (r ∈ ·.deletes plat)

theorem namedBy_eq_zero {gs : List StaleRecord} {r : Argv} :
    namedBy plat gs r = 0 ↔ ¬Names plat gs r := by
  simp [namedBy, List.countP_eq_zero, Names]

/-- What a lookup's delete of one group leaves, where `C` is what the other groups in memory
name. -/
structure GroupCleared (plat : Platform) (P : Prop) (C : Argv → Prop) (g : StaleRecord) (w : World)
    (res : StaleRecord × Bool) (w' : World) : Prop where
  tracks : Tracks plat P (fun r ↦ C r ∨ r ∈ res.1.deletes plat) w'
  disk_eq : w'.disk = w.disk
  /-- The group names no more than it did. -/
  subset : ∀ r ∈ res.1.deletes plat, r ∈ g.deletes plat
  identity_eq : res.1.toRouteIdentity = g.toRouteIdentity
  /-- No change is reported only where there is none. -/
  unchanged : res.2 = false → res.1 = g

/-- A lookup's delete of one group: unless two groups on disk name it, a confirmed delete leaves
nothing freed named. -/
theorem safe_clearGroup (hact : act.isLookup = true) {g : StaleRecord} (hI : Inv plat P w)
    (ht : Tracks plat P (fun r ↦ C r ∨ r ∈ g.deletes plat) w)
    (hsole : ∀ r ∈ g.deletes plat, namedBy plat (recordGroups w.disk) r ≤ 1 → ¬C r) :
    (clearGroup plat dest g).Safe (host act) (Inv plat P) (GroupCleared plat P C g w) w := by
  have hsame : GroupCleared plat P C g w (g, false) w := ⟨ht, rfl, fun _ h ↦ h, rfl, fun _ ↦ rfl⟩
  unfold clearGroup runStaleBypassDelete
  split
  · split
    · next hid =>
      rcases hcmd : platformBypassTeardownCommand plat g.toRouteIdentity with - | cmd
      · exact ⟨hI, hsame⟩
      · obtain ⟨hcid, -⟩ := id_of_mem_bypass hcmd
        have hbuild : cmd ∈ buildTeardownCommands plat g.toRouteIdentity :=
          List.mem_append_right _ (Option.mem_toList.2 hcmd)
        have hmem : cmd.toArgv ∈ g.deletes plat :=
          StaleRecord.mem_deletes.2 ⟨cmd, hbuild, hcid ▸ hid, rfl⟩
        rw [Prog.safe_bind, Prog.safe_bind]
        refine (safe_runTeardownCommand hI fun hg hf ↦
          ht.fresh hg _ hf (.inr hmem)).mono ?_
        rintro gone _ hI' rfl
        cases gone with
        | false =>
          exact ⟨hI', hI', ht.issue_unconfirmed rfl, rfl, fun _ h ↦ h, rfl, fun _ ↦ rfl⟩
        | true =>
          have hfil : ∀ r, r ∈ (⟨g.toRouteIdentity, g.installed.filter (· ≠ .serverBypass)⟩ :
              StaleRecord).deletes plat ↔ r ∈ g.deletes plat ∧ r ≠ cmd.toArgv := by
            intro r
            rw [← hcid]
            exact mem_deletes_filter hbuild
          refine ⟨hI', hI', ?_, rfl, fun r h ↦ ((hfil r).1 h).1, rfl, nofun⟩
          refine ht.issue_confirmed rfl (fun r hr hne ↦ ?_) (fun r hr ↦ ?_) fun hgood hr ↦ ?_
          · exact hr.imp id fun h ↦ (hfil r).2 ⟨h, hne⟩
          · exact hr.imp id fun h ↦ ((hfil r).1 h).1
          · -- the event is clean: only this group named the delete on disk
            have hclean := hgood.2 _ (.head _) rfl (.inr hact)
            rcases hr with hr | hr
            · exact hsole _ hmem hclean hr
            · exact ((hfil _).1 hr).2 rfl
    · exact ⟨hI, hsame⟩
  · exact ⟨hI, hsame⟩

/-- What a lookup's deletes of a list of groups leave. -/
structure ClearedAll (plat : Platform) (P : Prop) (C : Argv → Prop) (gs : List StaleRecord)
    (w : World) (res : List StaleRecord × Bool) (w' : World) : Prop where
  tracks : Tracks plat P (fun r ↦ C r ∨ Names plat res.1 r) w'
  disk_eq : w'.disk = w.disk
  unchanged : res.2 = false → res.1 = gs

theorem safe_clearGroups (hact : act.isLookup = true) (gs : List StaleRecord)
    (hI : Inv plat P w) (ht : Tracks plat P (fun r ↦ C r ∨ Names plat gs r) w)
    (hsole : ∀ r, namedBy plat (recordGroups w.disk) r ≤ 1 →
      namedBy plat gs r ≤ 1 ∧ (Names plat gs r → ¬C r)) :
    (clearGroups plat dest gs).Safe (host act) (Inv plat P) (ClearedAll plat P C gs w) w := by
  induction gs generalizing w C with
  | nil => exact ⟨hI, ht, rfl, fun _ ↦ rfl⟩
  | cons g gs ih =>
    have hone : ∀ r ∈ g.deletes plat, namedBy plat (recordGroups w.disk) r ≤ 1 →
        ¬Names plat gs r := by
      intro r hr hle
      have hcount := (hsole r hle).1
      rw [namedBy, List.countP_cons_of_pos (by simpa using hr)] at hcount
      exact namedBy_eq_zero.1 (Nat.le_zero.1 (Nat.le_of_succ_le_succ hcount))
    have ht' : Tracks plat P (fun r ↦ (C r ∨ Names plat gs r) ∨ r ∈ g.deletes plat) w :=
      ht.congr fun r ↦ by rw [names_cons]; tauto
    refine (safe_clearGroup hact hI ht' fun r hr hle ↦ ?_).bind ?_
    · exact not_or.2 ⟨(hsole r hle).2 (names_cons.2 (.inl hr)), hone r hr hle⟩
    rintro ⟨g', changed⟩ w₁ hI₁ h₁
    have ht₁ : Tracks plat P (fun r ↦ (C r ∨ r ∈ g'.deletes plat) ∨ Names plat gs r) w₁ :=
      h₁.tracks.congr fun r ↦ by tauto
    refine (ih hI₁ ht₁ fun r hle ↦ ?_).bind ?_
    · rw [h₁.disk_eq] at hle
      obtain ⟨hcount, hC⟩ := hsole r hle
      refine ⟨Nat.le_trans (List.sublist_cons_self g gs).countP_le hcount,
        fun hn ↦ not_or.2 ⟨?_, fun hr ↦ ?_⟩⟩
      · exact hC (names_cons.2 (.inr hn))
      · exact hone r (h₁.subset r hr) hle hn
    rintro ⟨gs', rest⟩ w₂ hI₂ h₂
    refine ⟨hI₂, h₂.tracks.congr fun r ↦ ?_, h₂.disk_eq.trans h₁.disk_eq, fun h ↦ ?_⟩
    · rw [names_cons]; tauto
    · obtain ⟨hc, hr⟩ := Bool.or_eq_false_iff.1 h
      exact congrArg₂ List.cons (h₁.unchanged hc) (h₂.unchanged hr)

/-- A gateway lookup leaves the record tracked. -/
theorem safe_clearStaleServerBypass (hact : act.isLookup = true) (hI : Inv plat P w)
    (ht : Tracks plat P (Names plat (recordGroups w.disk)) w) :
    (clearStaleServerBypass plat dest).Safe (host act) (Inv plat P)
      (fun _ w' ↦ Tracks plat P (Names plat (recordGroups w'.disk)) w') w := by
  refine (safe_readRecord hI).bind ?_
  rintro found w₁ hI ⟨hw, hdisk⟩
  subst w₁
  rcases found with leftover | - | cause
  · have hdisk : w.disk = some leftover := hdisk
    have ht' : Tracks plat P
        (fun r ↦ Names plat leftover.stale r ∨ r ∈ leftover.primary.deletes plat) w :=
      ht.congr fun r ↦ by rw [hdisk]; exact names_groups
    have hcount : ∀ r, namedBy plat (recordGroups w.disk) r =
        namedBy plat leftover.stale r + namedBy plat [leftover.primary] r := by
      intro r
      rw [hdisk]
      exact List.countP_append
    have hone : ∀ r ∈ leftover.primary.deletes plat,
        namedBy plat (recordGroups w.disk) r ≤ 1 → ¬Names plat leftover.stale r := by
      intro r hr hle
      rw [hcount, show namedBy plat [leftover.primary] r = 1 by simp [namedBy, hr]] at hle
      exact namedBy_eq_zero.1 (by omega)
    refine (safe_clearGroup hact hI ht' hone).bind ?_
    rintro ⟨own, changedOwn⟩ w₁ hI₁ h₁
    refine (safe_clearGroups hact leftover.stale hI₁ (h₁.tracks.congr fun r ↦ or_comm)
      fun r hle ↦ ?_).bind ?_
    · rw [h₁.disk_eq] at hle
      refine ⟨?_, fun hn hr ↦ hone r (h₁.subset r hr) hle hn⟩
      rw [hcount] at hle
      omega
    rintro ⟨stale, changedStale⟩ w₂ hI₂ h₂
    have ht₂ : Tracks plat P (Names plat { leftover with
        installed := own.installed, stale := stale.filter (!·.installed.isEmpty) }.groups) w₂ := by
      refine h₂.tracks.congr fun r ↦ ?_
      have hown : own = ⟨leftover.toRouteIdentity, own.installed⟩ := by
        rw [← show own.toRouteIdentity = leftover.toRouteIdentity from h₁.identity_eq]
      rw [names_groups, names_filter_nonempty, or_comm, hown]
      rfl
    dsimp only
    split
    · refine (safe_tryWrite hI₂ ht₂.covers).mono fun _ w₃ hI₃ hst ↦ ?_
      exact hst.tracks_disk hI₃ ht₂
    · next hsame =>
      obtain ⟨hown, hstale⟩ := Bool.or_eq_false_iff.1 (Bool.not_eq_true _ ▸ hsame)
      have hg := h₁.unchanged hown
      have hgs := h₂.unchanged hstale
      dsimp only at hg hgs
      subst hg hgs
      refine ⟨hI₂, h₂.tracks.congr fun r ↦ ?_⟩
      rw [h₂.disk_eq, h₁.disk_eq, hdisk, recordGroups, names_groups]
      exact or_comm
  · exact ⟨hI, ht⟩
  · exact ⟨hI, ht⟩

end Lookup

/-! ### Crash recovery -/

theorem lists_ofGroups {i j : RouteIdentity} {gs : List StaleRecord} {id : RouteId}
    (hnd : (gs.map (·.toRouteIdentity)).Nodup) :
    Lists (RouteState.ofGroups i gs).groups j id ↔ Lists gs j id := by
  rw [RouteState.groups, lists_append, lists_cons]
  constructor
  · rintro (⟨g, hg, hi, hid⟩ | ⟨hi, hid⟩ | h)
    · exact ⟨g, (List.mem_filter.1 hg).1, hi, hid⟩
    · rcases hfind : gs.find? (·.toRouteIdentity = i) with - | g
      · simp [RouteState.primary, RouteState.ofGroups, hfind] at hid
      · refine ⟨g, List.mem_of_find?_eq_some hfind, ?_, ?_⟩
        · have hg : g.toRouteIdentity = i := by simpa using List.find?_some hfind
          exact hg.trans hi
        · simpa [RouteState.primary, RouteState.ofGroups, hfind] using hid
    · exact absurd h lists_nil
  · rintro ⟨g, hg, rfl, hid⟩
    by_cases hi : g.toRouteIdentity = i
    · refine .inr (.inl ⟨hi.symm, ?_⟩)
      -- the group recovery puts in the primary slot is the only one of this identity
      rcases hfind : gs.find? (·.toRouteIdentity = i) with - | g'
      · exact absurd (decide_eq_true hi) (List.find?_eq_none.1 hfind g hg)
      · have hg' : g'.toRouteIdentity = i := by simpa using List.find?_some hfind
        have := List.inj_on_of_nodup_map hnd hg (List.mem_of_find?_eq_some hfind)
          (hi.trans hg'.symm)
        simpa [RouteState.primary, RouteState.ofGroups, hfind, ← this] using hid
    · exact .inl ⟨g, List.mem_filter.2 ⟨hg, by simpa using hi⟩, rfl, hid⟩

theorem carries_ofGroups {ids : List RouteIdentity} (hnd : ids.Nodup) (i : RouteIdentity) :
    Carries plat ids (RouteState.ofGroups i) :=
  fun _ hids _ ↦ names_congr fun _ _ ↦ lists_ofGroups (hids ▸ hnd)

/-- The record is removed only where it names nothing. -/
theorem Tracks.ledger_eq_nil (ht : Tracks plat P (Names plat st.groups) w)
    (hinst : st.installed = []) (hstale : st.stale = []) : ledger plat w.log = [] := by
  refine List.eq_nil_iff_forall_not_mem.2 fun r hr ↦ ?_
  have := (names_groups_of_nil hinst).1 (ht.covers r hr)
  rw [hstale] at this
  exact names_nil this

/-- Store what memory names, or remove the record where that is nothing: either way the file is
tracked. -/
theorem safe_settle (hI : Inv plat P w) (ht : Tracks plat P (Names plat st.groups) w) :
    (if st.installed.isEmpty && st.stale.isEmpty then tryRemove else tryWrite st).Safe
      (host act) (Inv plat P)
      (fun _ w' ↦ Tracks plat P (Names plat (recordGroups w'.disk)) w') w := by
  split
  · next h =>
    obtain ⟨hinst, hstale⟩ := Bool.and_eq_true_iff.1 h
    have hinst := List.isEmpty_iff.1 hinst
    have hstale := List.isEmpty_iff.1 hstale
    refine (safe_tryRemove hI (ht.ledger_eq_nil hinst hstale)).mono fun _ w' hI' hst ↦ ?_
    refine hst.tracks_disk hI' (ht.congr fun r ↦ ?_)
    rw [names_groups_of_nil hinst, hstale]
    rfl
  · exact (safe_tryWrite hI ht.covers).mono fun _ w' hI' hst ↦ hst.tracks_disk hI' ht

/-- Crash recovery leaves the record tracked. -/
theorem safe_recoverRoutesWith (hI : Inv plat P w)
    (ht : Tracks plat P (Names plat (recordGroups w.disk)) w) :
    (recoverRoutesWith plat).Safe (host act) (Inv plat P)
      (fun _ w' ↦ Tracks plat P (Names plat (recordGroups w'.disk)) w') w := by
  refine (safe_readRecord hI).bind ?_
  rintro found w₁ hI ⟨hw, hdisk⟩
  subst w₁
  rcases found with loaded | - | cause
  · have hnd := nodup_identity_coalesce loaded.groups
    have hcarry : Carries plat _ (RouteState.ofGroups loaded.toRouteIdentity) :=
      carries_ofGroups hnd _
    have ht : Tracks plat P (Names plat (coalesce loaded.groups)) w := ht.congr fun r ↦ by
        rw [show w.disk = some loaded from hdisk, names_coalesce, recordGroups]
    refine (safe_recoverGroups hcarry hI ht rfl).bind ?_
    rintro groups w₂ hI₂ ⟨ht₂, hids⟩
    refine safe_settle hI₂ (ht₂.congr fun r ↦ ?_)
    rw [← hcarry groups hids, names_groups, names_groups, names_filter_nonempty]
    rfl
  · exact ⟨hI, ht⟩
  · exact ⟨hI, ht⟩

end Hole.Routing
