import Hole.Routing.Record

/-!
# Sessions keep the record

The other half of the specifications of `Hole.Routing.Record`: the functions that put routes
into the table and take a session's own routes out again. Setup records each command before it
runs, so the record covers the table whatever the command does; teardown, whether of a guard or
of an install that failed, takes a confirmed delete out of the session's own group only, which
is why the second invariant needs that no stale group names it too.
-/

namespace Hole.Routing

open Effect

variable {plat : Platform} {P : Prop} {w w' : World} {act : Act}

/-! ### Teardown -/

section Teardown

variable {i : RouteIdentity} {stale : List StaleRecord} {extra : List RouteId}
  {f : List RouteId → RouteState}

/-- `f` makes a record of the routes still to be torn down, beside routes and groups that the
teardown does not touch. -/
structure Beside (i : RouteIdentity) (stale : List StaleRecord) (extra : List RouteId)
    (f : List RouteId → RouteState) : Prop where
  identity_eq : ∀ ids, (f ids).toRouteIdentity = i
  stale_eq : ∀ ids, (f ids).stale = stale
  /-- The routes torn down and the ones beside them. -/
  mem : ∀ {ids id}, id ∈ (f ids).installed ↔ id ∈ ids ∨ id ∈ extra

theorem Beside.names (hf : Beside i stale extra f) {ids : List RouteId} {r : Argv} :
    Names plat (f ids).groups r ↔ Names plat stale r ∨
      ∃ c ∈ buildTeardownCommands plat i, (c.id ∈ ids ∨ c.id ∈ extra) ∧ c.toArgv = r := by
  rw [names_groups, hf.stale_eq, StaleRecord.mem_deletes, RouteState.primary, hf.identity_eq]
  simp only [hf.mem]

/-- The assertion of the teardown loop: memory is tracked and on disk, and each delete left is
for a route still listed. -/
structure Draining (plat : Platform) (P : Prop) (i : RouteIdentity) (extra : List RouteId)
    (f : List RouteId → RouteState) (rest : List RouteCommand) (still : List RouteId)
    (w : World) : Prop where
  tracks : Tracks plat P (Names plat (f still).groups) w
  disk_eq : Good plat P w.log → w.disk = some (f still)
  /-- The deletes left are the session's, for routes still listed. -/
  mem : ∀ c ∈ rest, c ∈ buildTeardownCommands plat i ∧ c.id ∈ still
  distinct : rest.Pairwise (·.id ≠ ·.id)
  /-- No route is both torn down and kept. -/
  disjoint : ∀ id ∈ still, id ∉ extra

theorem safe_teardownRound (hf : Beside i stale extra f) {cmd : RouteCommand}
    {rest : List RouteCommand} {still : List RouteId} (hI : Inv plat P w)
    (h : Draining plat P i extra f (cmd :: rest) still w) :
    (teardownRound (fun ids ↦ tryWrite (f ids)) still cmd).Safe (host act) (Inv plat P)
      (Draining plat P i extra f rest) w := by
  obtain ⟨hcmd, hid⟩ := h.mem cmd (.head _)
  have hnamed : Names plat (f still).groups cmd.toArgv :=
    hf.names.2 (.inr ⟨cmd, hcmd, .inl hid, rfl⟩)
  refine (safe_runTeardownCommand hI fun hg hfr ↦ h.tracks.fresh hg _ hfr hnamed).bind ?_
  rintro gone _ hI' rfl
  set w₁ := w.issue (deleteOf act .teardown cmd w gone) with hw₁
  set left := if gone then still.filter (· ≠ cmd.id) else still with hleft
  have hsub : ∀ id ∈ left, id ∈ still := by
    intro id hmem
    rw [hleft] at hmem
    split at hmem
    · exact (List.mem_filter.1 hmem).1
    · exact hmem
  have htracks : Tracks plat P (Names plat (f left).groups) w₁ := by
    cases gone with
    | false => exact h.tracks.issue_unconfirmed rfl
    | true =>
      refine h.tracks.issue_confirmed rfl (fun r hr hne ↦ ?_) (fun r hr ↦ ?_) fun hgood hr ↦ ?_
      · rw [hf.names] at hr ⊢
        refine hr.imp id ?_
        rintro ⟨c, hc, hcid, rfl⟩
        refine ⟨c, hc, hcid.imp (fun hs ↦ List.mem_filter.2 ⟨hs, ?_⟩) id, rfl⟩
        have : c.id ≠ cmd.id := fun he ↦ hne (by rw [eq_of_id_eq hc hcmd he]; rfl)
        simpa using this
      · rw [hf.names] at hr ⊢
        refine hr.imp id ?_
        rintro ⟨c, hc, hcid, hrc⟩
        exact ⟨c, hc, hcid.imp (hsub _) id, hrc⟩
      · -- the event is clean, so the session's own group was the only one naming it
        have hdisk := h.disk_eq hgood.tail
        have hsole : namedBy plat (recordGroups w.disk) cmd.toArgv ≤ 1 :=
          hgood.2 _ (.head _) rfl (.inl rfl)
        rw [hdisk, recordGroups, namedBy, RouteState.groups, List.countP_append] at hsole
        have hown : cmd.toArgv ∈ (f still).primary.deletes plat := by
          rw [StaleRecord.mem_deletes, RouteState.primary, hf.identity_eq]
          exact ⟨cmd, hcmd, hf.mem.2 (.inl hid), rfl⟩
        rw [List.countP_singleton, if_pos (by simpa using hown), hf.stale_eq] at hsole
        rcases hf.names.1 hr with hr | ⟨c, hc, hcid, hrc⟩
        · exact namedBy_eq_zero.1 (Nat.le_zero.1 (Nat.le_of_succ_le_succ hsole)) hr
        · obtain rfl := eq_of_argv_eq hc hcmd hrc
          rcases hcid with hcid | hcid
          · simpa using (List.mem_filter.1 hcid).2
          · exact h.disjoint _ hid hcid
  refine (safe_tryWrite hI' htracks.covers).bind fun _ w₂ hI₂ hst ↦ ⟨hI₂, ?_⟩
  refine ⟨hst.tracks htracks, fun hg ↦ (hst.good hg).1, fun c hc ↦ ?_, h.distinct.of_cons,
    fun id hmem ↦ h.disjoint id (hsub id hmem)⟩
  obtain ⟨hbuild, hcid⟩ := h.mem c (.tail _ hc)
  refine ⟨hbuild, ?_⟩
  have hne := (List.pairwise_cons.1 h.distinct).1 c hc
  rw [hleft]
  split
  · exact List.mem_filter.2 ⟨hcid, by simpa using Ne.symm hne⟩
  · exact hcid

/-- Teardown keeps the record in memory tracked and on disk. -/
theorem safe_teardownRoutes (hf : Beside i stale extra f) {installed : List RouteId}
    (hI : Inv plat P w) (ht : Tracks plat P (Names plat (f installed).groups) w)
    (hdisk : Good plat P w.log → w.disk = some (f installed))
    (hdisj : ∀ id ∈ installed, id ∉ extra) :
    (teardownRoutes plat i installed fun ids ↦ tryWrite (f ids)).Safe (host act) (Inv plat P)
      (fun left w' ↦ Tracks plat P (Names plat (f left).groups) w' ∧
        (Good plat P w'.log → w'.disk = some (f left))) w := by
  refine (Prog.safe_foldlM (L := Draining plat P i extra f) _ hI ?_
    fun cmd rest still w hI h ↦ safe_teardownRound hf hI h).mono
    fun left w' _ h ↦ ⟨h.tracks, h.disk_eq⟩
  refine ⟨ht, hdisk, fun c hc ↦ ?_, ?_, hdisj⟩
  · obtain ⟨hc, hid⟩ := List.mem_filter.1 hc
    exact ⟨hc, of_decide_eq_true hid⟩
  · exact (List.pairwise_map.1 (nodup_id_buildTeardownCommands plat i)).filter _

end Teardown

/-- The drop of a guard whose record is the one on disk leaves the record tracked. -/
theorem safe_teardownWith {g : SystemRoutes} (hI : Inv plat P w)
    (ht : Tracks plat P (Names plat g.toRouteState.groups) w)
    (hdisk : Good plat P w.log → w.disk = some g.toRouteState) :
    (teardownWith plat g).Safe (host act) (Inv plat P)
      (fun _ w' ↦ Tracks plat P (Names plat (recordGroups w'.disk)) w') w := by
  have hf : Beside g.toRouteState.toRouteIdentity g.stale []
      fun ids ↦ { g.toRouteState with installed := ids } :=
    ⟨fun _ ↦ rfl, fun _ ↦ rfl, by simp⟩
  refine (safe_teardownRoutes hf hI ht hdisk (by simp)).bind ?_
  rintro left w₁ hI₁ ⟨ht₁, hdisk₁⟩
  split
  · next h =>
    obtain ⟨hleft, hstale⟩ := Bool.and_eq_true_iff.1 h
    have hleft := List.isEmpty_iff.1 hleft
    have hstale := List.isEmpty_iff.1 hstale
    refine (safe_tryRemove hI₁ (ht₁.ledger_eq_nil hleft hstale)).mono fun _ w' hI' hst ↦ ?_
    refine hst.tracks_disk hI' (ht₁.congr fun r ↦ ?_)
    rw [names_groups_of_nil (by exact hleft)]
    show Names plat g.stale r ↔ _
    rw [hstale]
    rfl
  · refine ⟨hI₁, hI₁.recorded, fun hg ↦ ?_⟩
    rw [hdisk₁ hg]
    exact ht₁.fresh hg

variable {persisted : RouteState}

/-- A rollback leaves the record tracked. -/
theorem safe_rollbackAndRecord {confirmed extra : List RouteId} (hI : Inv plat P w)
    (ht : Tracks plat P
      (Names plat { persisted with installed := unionIds confirmed extra }.groups) w)
    (hdisj : ∀ id ∈ confirmed, id ∉ extra) :
    (rollbackAndRecord plat confirmed persisted extra).Safe (host act) (Inv plat P)
      (fun _ w' ↦ Tracks plat P (Names plat (recordGroups w'.disk)) w') w := by
  have hf : Beside persisted.toRouteIdentity persisted.stale extra
      fun ids ↦ { persisted with installed := unionIds ids extra } :=
    ⟨fun _ ↦ rfl, fun _ ↦ rfl, mem_unionIds⟩
  refine (safe_tryWrite hI ht.covers).bind fun _ w₁ hI₁ hst ↦ ?_
  refine (safe_teardownRoutes hf hI₁ (hst.tracks ht) (fun hg ↦ (hst.good hg).1) hdisj).bind ?_
  rintro left w₂ hI₂ ⟨ht₂, -⟩
  exact safe_settle hI₂ ht₂

/-! ### Setup -/

theorem safe_checkpointInstalled {ids : List RouteId} (hI : Inv plat P w)
    (hst : ∀ r ∈ ledger plat w.log, Names plat { persisted with installed := ids }.groups r) :
    (checkpointInstalled persisted ids).Safe (host act) (Inv plat P)
      (fun res w' ↦ Stored w (some { persisted with installed := ids }) w' ∧
        (res.2 = .ok () → res.1 = { persisted with installed := ids } ∧
          w' = { w with disk := some { persisted with installed := ids } }) ∧
        (res.2 ≠ .ok () → res.1 = persisted ∧ ¬Good plat P w'.log)) w := by
  refine (safe_writeRecord hI hst).bind ?_
  rintro (e | ⟨⟩) w' hI' ⟨hstored, hok, herr⟩
  · exact ⟨hI', hstored, nofun, fun _ ↦ ⟨rfl, herr nofun⟩⟩
  · exact ⟨hI', hstored, fun _ ↦ ⟨rfl, hok rfl⟩, fun h ↦ absurd rfl h⟩

/-- The state between two setup commands: `installed` is what was confirmed so far, `persisted`
the record as last written. -/
structure Staged (plat : Platform) (P : Prop) (i : RouteIdentity) (installed : List RouteId)
    (persisted : RouteState) (w : World) : Prop where
  identity_eq : persisted.toRouteIdentity = i
  guard_eq : w.guard = none
  tracks : Tracks plat P (Names plat { persisted with installed := installed }.groups) w
  /-- The routes written last are not freed: their setup command was issued. -/
  live : Good plat P w.log → ∀ c ∈ buildTeardownCommands plat i, c.id ∈ persisted.installed →
    ¬Freed plat w.log c.toArgv

theorem names_with {st : RouteState} {ids : List RouteId} {r : Argv} :
    Names plat { st with installed := ids }.groups r ↔ Names plat st.stale r ∨
      ∃ c ∈ buildTeardownCommands plat st.toRouteIdentity, c.id ∈ ids ∧ c.toArgv = r := by
  rw [names_groups, StaleRecord.mem_deletes]
  rfl

/-- The world after a setup command was issued. -/
def World.added (w : World) (a : Argv) (confirmed : Bool) : World :=
  { w with log := .setup a confirmed :: w.log }

theorem mem_ledger_setup {a r : Argv} {confirmed : Bool} {es : List Event} :
    r ∈ ledger plat (.setup a confirmed :: es) ↔
      r ∈ ledger plat es ∨ confirmed = true ∧ r = undo plat a := by
  rw [ledger]
  split
  · next h => simp [h, or_comm]
  · next h => simp [h]

section Added

variable {i : RouteIdentity} {installed : List RouteId} {persisted : RouteState}
  {cmd : SetupCommand}

/-- Issuing a recorded setup command keeps the record on disk covering the table. -/
theorem Inv.added (hI : Inv plat P w) (hguard : w.guard = none) {a : Argv}
    (ha : Names plat (recordGroups w.disk) (undo plat a)) (b : Bool) :
    Inv plat P (w.added a b) where
  recorded r hr := by
    rcases mem_ledger_setup.1 hr with hr | ⟨-, rfl⟩
    · exact hI.recorded r hr
    · exact ha
  guarded g hg := by
    rw [show w.guard = some g from hg] at hguard
    cases hguard
  fresh hgood newer older d hlog := by
    rcases newer with - | ⟨e, newer⟩
    · cases (List.cons.inj hlog).1
    · exact hI.fresh hgood.tail newer older d (List.cons.inj hlog).2

/-- A confirmed setup command adds its route to what is tracked. -/
theorem Staged.tracks_confirmed (h : Staged plat P i installed persisted w)
    (hcmd : (⟨undo plat cmd.toArgv, cmd.id⟩ : RouteCommand) ∈ buildTeardownCommands plat i) :
    Tracks plat P (Names plat { persisted with installed := installed ++ [cmd.id] }.groups)
      (w.added cmd.toArgv true) where
  covers r hr := by
    rw [names_with, h.identity_eq]
    rcases mem_ledger_setup.1 hr with hr | ⟨-, rfl⟩
    · have := h.tracks.covers r hr
      rw [names_with, h.identity_eq] at this
      refine this.imp id ?_
      rintro ⟨c, hc, hid, hrc⟩
      exact ⟨c, hc, List.mem_append_left _ hid, hrc⟩
    · exact .inr ⟨_, hcmd, by simp, rfl⟩
  fresh hgood r hr := by
    obtain ⟨hne, hr⟩ := hr
    have hold := h.tracks.fresh hgood.tail r hr
    rw [names_with, h.identity_eq] at hold ⊢
    rintro (hn | ⟨c, hc, hid, rfl⟩)
    · exact hold (.inl hn)
    · rcases List.mem_append.1 hid with hid | hid
      · exact hold (.inr ⟨c, hc, hid, rfl⟩)
      · rw [eq_of_id_eq hc hcmd (List.mem_singleton.1 hid)] at hne
        exact hne rfl

/-- A setup command that did not confirm leaves what is tracked as it was. -/
theorem Staged.tracks_unconfirmed (h : Staged plat P i installed persisted w) :
    Tracks plat P (Names plat { persisted with installed := installed }.groups)
      (w.added cmd.toArgv false) where
  covers r hr := by
    rcases mem_ledger_setup.1 hr with hr | ⟨hf, -⟩
    · exact h.tracks.covers r hr
    · cases hf
  fresh hgood r hr := h.tracks.fresh hgood.tail r hr.2

/-- Once the command is issued, none of the routes recorded for it is freed. -/
theorem Staged.live_added (h : Staged plat P i installed persisted w)
    (hcmd : (⟨undo plat cmd.toArgv, cmd.id⟩ : RouteCommand) ∈ buildTeardownCommands plat i)
    (b : Bool) (hgood : Good plat P (w.added cmd.toArgv b).log) :
    ∀ c ∈ buildTeardownCommands plat i, c.id ∈ installed ++ [cmd.id] →
      ¬Freed plat (w.added cmd.toArgv b).log c.toArgv := by
  rintro c hc hid ⟨hne, hfreed⟩
  rcases List.mem_append.1 hid with hid | hid
  · refine h.tracks.fresh hgood.tail _ hfreed ?_
    rw [names_with, h.identity_eq]
    exact .inr ⟨c, hc, hid, rfl⟩
  · rw [eq_of_id_eq hc hcmd (List.mem_singleton.1 hid)] at hne
    exact hne rfl

/-- What was confirmed is on disk, with the groups carried along. -/
def Synced (plat : Platform) (P : Prop) (installed : List RouteId) (persisted : RouteState)
    (w : World) : Prop :=
  Good plat P w.log → w.disk = some { persisted with installed := installed }

/-- The checkpoint after a setup command brings the record back in step with what was
confirmed. -/
theorem safe_checkpoint_staged {ids : List RouteId} (hI : Inv plat P w)
    (hid : persisted.toRouteIdentity = i) (hguard : w.guard = none)
    (ht : Tracks plat P (Names plat { persisted with installed := ids }.groups) w) :
    (checkpointInstalled persisted ids).Safe (host act) (Inv plat P)
      (fun res w' ↦ Staged plat P i ids res.1 w' ∧ Synced plat P ids res.1 w') w := by
  refine (safe_checkpointInstalled hI ht.covers).mono ?_
  rintro ⟨p, res⟩ w' hI' ⟨hst, hok, herr⟩
  have ht' := hst.tracks ht
  have hguard' : w'.guard = none := hst.guard_eq.trans hguard
  by_cases hres : res = .ok ()
  · obtain ⟨rfl, -⟩ := hok hres
    refine ⟨⟨hid, hguard', ht', fun hg c hc hcid hf ↦ ?_⟩, fun hg ↦ (hst.good hg).1⟩
    refine ht'.fresh hg _ hf ?_
    rw [names_with, hid]
    exact .inr ⟨c, hc, hcid, rfl⟩
  · obtain ⟨rfl, hbad⟩ := herr hres
    exact ⟨⟨hid, hguard', ht', fun hg ↦ absurd hg hbad⟩, fun hg ↦ absurd hg hbad⟩

theorem safe_runSetup {a : Argv} (hI : Inv plat P w) (hadded : ∀ b, Inv plat P (w.added a b)) :
    (runSetup a).Safe (host act) (Inv plat P) (fun res w' ↦ w' = w.added a res.isOk) w := by
  refine ⟨hI, fun c ↦ ?_⟩
  cases c with
  | ok => exact ⟨hadded true, rfl⟩
  | _ => exact ⟨hadded false, rfl⟩

/-- The setup phase, from any command on: what it confirmed is tracked, and on disk if the phase
did not stop early. -/
theorem safe_runSetupCommands {total index : Nat} (cmds : List SetupCommand)
    (hcmds : ∀ c ∈ cmds, (⟨undo plat c.toArgv, c.id⟩ : RouteCommand) ∈ buildTeardownCommands plat i)
    (hI : Inv plat P w) (h : Staged plat P i installed persisted w)
    (hsync : cmds = [] → Synced plat P installed persisted w) :
    (runSetupCommands total index cmds installed persisted).Safe (host act) (Inv plat P)
      (fun res w' ↦ Staged plat P i res.1 res.2.1 w' ∧
        (res.2.2 = .ok () → Synced plat P res.1 res.2.1 w')) w := by
  induction cmds generalizing index installed persisted w with
  | nil => exact ⟨hI, h, fun _ ↦ hsync rfl⟩
  | cons cmd cmds ih =>
    have hcmd := hcmds cmd (.head _)
    have hrest : ∀ c ∈ cmds, (⟨undo plat c.toArgv, c.id⟩ : RouteCommand) ∈
      buildTeardownCommands plat i := fun c hc ↦ hcmds c (.tail _ hc)
    -- the speculative entry only adds to what the record names
    have hspec : ∀ r ∈ ledger plat w.log,
        Names plat { persisted with installed := installed ++ [cmd.id] }.groups r := by
      intro r hr
      have := h.tracks.covers r hr
      rw [names_with] at this ⊢
      refine this.imp id ?_
      rintro ⟨c, hc, hid, hrc⟩
      exact ⟨c, hc, List.mem_append_left _ hid, hrc⟩
    refine (safe_checkpointInstalled hI hspec).bind ?_
    rintro ⟨p, res⟩ w₁ hI₁ ⟨hst, hok, herr⟩
    rcases res with e | ⟨⟩
    · -- the record could not be written: the command does not run
      obtain ⟨rfl, hbad⟩ := herr nofun
      refine ⟨hI₁, ⟨h.identity_eq, hst.guard_eq.trans h.guard_eq, hst.tracks h.tracks, ?_⟩, nofun⟩
      exact fun hg ↦ absurd hg hbad
    · obtain ⟨rfl, rfl⟩ := hok rfl
      set p : RouteState := { persisted with installed := installed ++ [cmd.id] } with hp
      set w₁ : World := { w with disk := some p } with hw₁
      have h₁ : Staged plat P i installed persisted w₁ :=
        ⟨h.identity_eq, h.guard_eq, hst.tracks h.tracks, h.live⟩
      have hnamed : Names plat (recordGroups w₁.disk) (undo plat cmd.toArgv) := by
        show Names plat p.groups _
        rw [hp, names_with, h.identity_eq]
        exact .inr ⟨_, hcmd, by simp, rfl⟩
      have hidp : p.toRouteIdentity = i := h.identity_eq
      have hguard : ∀ b, (w₁.added cmd.toArgv b).guard = none := fun _ ↦ h.guard_eq
      refine (safe_runSetup hI₁ (hI₁.added h₁.guard_eq hnamed)).bind ?_
      rintro (failure | ⟨⟩) _ hI₂ rfl
      · have ht : Tracks plat P (Names plat { p with installed := installed }.groups)
            (w₁.added cmd.toArgv false) := h₁.tracks_unconfirmed
        dsimp only
        split
        · rcases failure with e | code
          · refine ⟨hI₂, ⟨hidp, hguard _, ht, fun hg ↦ ?_⟩, nofun⟩
            exact h₁.live_added hcmd false hg
          · refine (safe_checkpoint_staged hI₂ hidp (hguard _) ht).bind ?_
            exact fun res w' hI' hres ↦ ⟨hI', hres.1, nofun⟩
        · refine (safe_checkpoint_staged hI₂ hidp (hguard _) ht).bind ?_
          exact fun res w' hI' hres ↦ ih hrest hI' hres.1 fun _ ↦ hres.2
      · have ht : Tracks plat P (Names plat { p with installed := installed ++ [cmd.id] }.groups)
            (w₁.added cmd.toArgv true) := h₁.tracks_confirmed hcmd
        refine (safe_checkpoint_staged hI₂ hidp (hguard _) ht).bind ?_
        exact fun res w' hI' hres ↦ ih hrest hI' hres.1 fun _ ↦ hres.2

/-- What a failed install rolls back from is tracked: the routes confirmed, and those whose fate
is unknown. -/
theorem Staged.tracks_union (h : Staged plat P i installed persisted w) :
    Tracks plat P (Names plat { persisted with
      installed := unionIds installed (persisted.installed.filter (· ∉ installed)) }.groups)
      w := by
  have hmem : ∀ id, id ∈ unionIds installed (persisted.installed.filter (· ∉ installed)) ↔
      id ∈ installed ∨ id ∈ persisted.installed := by
    intro id
    simp only [mem_unionIds, List.mem_filter, decide_eq_true_eq]
    tauto
  refine ⟨fun r hr ↦ ?_, fun hg r hr ↦ ?_⟩
  · have := h.tracks.covers r hr
    rw [names_with] at this ⊢
    refine this.imp id ?_
    rintro ⟨c, hc, hid, hrc⟩
    exact ⟨c, hc, (hmem _).2 (.inl hid), hrc⟩
  · have hold := h.tracks.fresh hg r hr
    rw [names_with, h.identity_eq] at hold ⊢
    rintro (hn | ⟨c, hc, hid, rfl⟩)
    · exact hold (.inl hn)
    · rcases (hmem _).1 hid with hid | hid
      · exact hold (.inr ⟨c, hc, hid, rfl⟩)
      · exact h.live hg c hc hid hr

end Added

/-! ### Install -/

/-- No call touches the guard. -/
theorem safe_guard {α : Type} (p : RouteM α) {g : Option SystemRoutes} (h : w.guard = g) :
    p.Safe (host act) (·.guard = g) (fun _ w' ↦ w'.guard = g) w := by
  induction p generalizing w with
  | pure a => exact ⟨h, h⟩
  | call o k ih =>
    refine ⟨h, fun c ↦ ih _ ?_⟩
    cases o <;> simp only [host, next] <;> first | exact h | (split <;> exact h)

theorem safe_setupRoutes {tun : String} {ip : IpAddr} {gw : GatewayInfo} (hI : Inv plat P w)
    (h : Staged plat P (identityOf tun ip gw) [] persisted w) :
    (setupRoutes plat tun ip gw persisted).Safe (host act) (Inv plat P)
      (fun res w' ↦ Staged plat P (identityOf tun ip gw) res.1 res.2.1 w' ∧
        (res.2.2 = .ok () → Synced plat P res.1 res.2.1 w')) w := by
  refine ⟨hI, fun c ↦ safe_runSetupCommands _ (fun c hc ↦ exists_teardown_undo hc) hI h ?_⟩
  exact fun hnil ↦ absurd hnil (buildSetupCommands_ne_nil plat tun ip gw _)

/-- An install that succeeds returns a guard that stands for the record on disk; one that fails
leaves the record tracked. -/
theorem safe_installWith {tun : String} {ip : IpAddr} {gw : GatewayInfo} (hI : Inv plat P w)
    (hguard : w.guard = none) (ht : Tracks plat P (Names plat (recordGroups w.disk)) w) :
    (installWith plat tun ip gw).Safe (host act) (Inv plat P) (fun res w' ↦ match res with
        | .ok g => Tracks plat P (Names plat g.toRouteState.groups) w' ∧
            (Good plat P w'.log → w'.disk = some g.toRouteState)
        | .error _ => Tracks plat P (Names plat (recordGroups w'.disk)) w') w := by
  refine ((safe_sweepLeftoverBeforeInstall rfl rfl hI ht).and (safe_guard _ hguard)).bind ?_
  rintro (e | persisted) w₁ hI₁ ⟨hres, hguard₁⟩
  · obtain rfl : w₁ = w := hres
    exact ⟨hI₁, ht⟩
  · obtain ⟨hid, hinst, ht₁⟩ := hres
    have hstaged : Staged plat P (identityOf tun ip gw) [] persisted w₁ := by
      refine ⟨hid, hguard₁, ht₁.congr fun r ↦ ?_, fun _ c _ hc ↦ ?_⟩
      · rw [← hinst]
      · rw [hinst] at hc
        cases hc
    refine (safe_setupRoutes hI₁ hstaged).bind ?_
    rintro ⟨installed, p, res⟩ w₂ hI₂ ⟨h₂, hsync⟩
    have hdisj : ∀ id ∈ installed, id ∉ p.installed.filter (· ∉ installed) := by
      intro id hmem hf
      exact of_decide_eq_true (List.mem_filter.1 hf).2 hmem
    have hroll : (rollbackAndRecord plat installed p
        (p.installed.filter (· ∉ installed))).Safe (host act) (Inv plat P)
        (fun _ w' ↦ Tracks plat P (Names plat (recordGroups w'.disk)) w') w₂ :=
      safe_rollbackAndRecord hI₂ h₂.tracks_union hdisj
    rcases res with e | ⟨⟩
    · exact hroll.bind fun _ w₃ hI₃ h₃ ↦ ⟨hI₃, h₃⟩
    · dsimp only
      split
      · exact hroll.bind fun _ w₃ hI₃ h₃ ↦ ⟨hI₃, h₃⟩
      · -- the guard carries the identity the record was written under
        have hstate : (SystemRoutes.toRouteState
            { tunName := tun, serverIp := ip, interfaceName := gw.interfaceName,
              originalGateway := gw.gatewayIp, routeForm := routeFormOf gw,
              installed := installed, stale := p.stale }) = { p with installed := installed } := by
          rw [show p.toRouteIdentity = identityOf tun ip gw from h₂.identity_eq]
          rfl
        refine ⟨hI₂, ?_⟩
        dsimp only
        rw [hstate]
        exact ⟨h₂.tracks, hsync rfl⟩

end Hole.Routing
