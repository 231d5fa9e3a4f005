import Hole.Routing.Recover
import Hole.Routing.Runs

/-!
# What an install leaves

The outcome of `install_with`, for every outcome of its commands and of its writes. A route counts
as *in* once its setup command is confirmed. The install succeeds exactly if every planned route is
in; a failed one deletes routes that are in and no others, and records those of them that it could
not delete, with what the last checkpoint that landed still names beside them.

What that checkpoint names beside them is a route whose setup command ended without a confirmation
and whose narrowing checkpoint did not land or was not made: a command that could not be spawned is
left recorded on purpose (its fate is unknown), and one that failed stays recorded if the write that
takes it out fails (`refused_stays_recorded`).
-/

namespace Hole.Routing

open Effect
open Prog (hasTrace_bind hasTrace_perform hasTrace_pure only_perform only_pure only_foldlM)

/-! ### Reading a trace of an install -/

/-- The setup command that a call issues and that is confirmed. -/
def put? : Exchange RouteOp.Ans → Option Argv
  | ⟨.setup a, .ok ()⟩ => some a
  | _ => none

/-- The record that a call writes, if the write lands. -/
def landed? : Exchange RouteOp.Ans → Option RouteState
  | ⟨.write st, .ok ()⟩ => some st
  | _ => none

/-- The confirmed setup commands of a trace. -/
def put (t : List (Exchange RouteOp.Ans)) : List Argv := t.filterMap put?

/-- The records that a trace writes and that land. -/
def landed (t : List (Exchange RouteOp.Ans)) : List RouteState := t.filterMap landed?

/-- The record on disk after a call. -/
def recordStep (disk : Option RouteState) : Exchange RouteOp.Ans → Option RouteState
  | ⟨.write st, .ok ()⟩ => some st
  | ⟨.remove, .ok .gone⟩ => none
  | _ => disk

/-- The record on disk after a trace. -/
def recordAfter (disk : Option RouteState) (t : List (Exchange RouteOp.Ans)) : Option RouteState :=
  t.foldl recordStep disk

/-- The last call of the trace changes the record as it is asked to. -/
def LastLands (t : List (Exchange RouteOp.Ans)) : Prop :=
  (∃ st, t.getLast? = some ⟨.write st, .ok ()⟩) ∨ t.getLast? = some ⟨.remove, .ok .gone⟩

/-- What the last checkpoint that landed names. -/
def lastCheckpoint (t : List (Exchange RouteOp.Ans)) : List RouteId :=
  ((landed t).getLast?.map (·.installed)).getD []

/-- The groups that the trace reads. -/
def readGroups (t : List (Exchange RouteOp.Ans)) : List StaleRecord :=
  match t.head? with
  | some ⟨.read, .records st⟩ => st.groups
  | _ => []

/-- The setup phase began. -/
def SetupBegan (t : List (Exchange RouteOp.Ans)) : Prop :=
  ∃ tun x, (⟨.tunIpv6Available tun, x⟩ : Exchange RouteOp.Ans) ∈ t

variable {plat : Platform} {tun : String} {ip : IpAddr} {gw : GatewayInfo} {id : RouteId}
  {t t' : List (Exchange RouteOp.Ans)}

@[simp] theorem put_append : put (t ++ t') = put t ++ put t' := List.filterMap_append

@[simp] theorem landed_append : landed (t ++ t') = landed t ++ landed t' := List.filterMap_append

theorem recordAfter_append (disk : Option RouteState) :
    recordAfter disk (t ++ t') = recordAfter (recordAfter disk t) t' := List.foldl_append

/-- The route is in: its setup command was confirmed. -/
def In (plat : Platform) (tun : String) (ip : IpAddr) (gw : GatewayInfo)
    (t : List (Exchange RouteOp.Ans)) (id : RouteId) : Prop :=
  ∃ c ∈ buildSetupCommands plat tun ip gw true, c.id = id ∧ c.toArgv ∈ put t

/-- The commands do not depend on whether the TUN has an IPv6 binding, but for what is fatal. -/
theorem exists_setupCommand (v6 v6' : Bool) {a : Argv} :
    (∃ c ∈ buildSetupCommands plat tun ip gw v6, c.id = id ∧ c.toArgv = a) →
      ∃ c ∈ buildSetupCommands plat tun ip gw v6', c.id = id ∧ c.toArgv = a := by
  have hsame : (buildSetupCommands plat tun ip gw v6).map (fun c ↦ (c.id, c.toArgv)) =
      (buildSetupCommands plat tun ip gw v6').map fun c ↦ (c.id, c.toArgv) := by
    cases plat <;> rfl
  rintro ⟨c, hc, rfl, rfl⟩
  have hmem := List.mem_map_of_mem (f := fun c : SetupCommand ↦ (c.id, c.toArgv)) hc
  rw [hsame] at hmem
  obtain ⟨c', hc', heq⟩ := List.mem_map.1 hmem
  exact ⟨c', hc', (Prod.mk.inj heq).1, (Prod.mk.inj heq).2⟩

theorem in_iff (v6 : Bool) :
    In plat tun ip gw t id ↔
      ∃ c ∈ buildSetupCommands plat tun ip gw v6, c.id = id ∧ c.toArgv ∈ put t := by
  constructor
  · rintro ⟨c, hc, hid, hput⟩
    obtain ⟨c', hc', hid', hargv⟩ := exists_setupCommand true v6 ⟨c, hc, hid, rfl⟩
    exact ⟨c', hc', hid', hargv ▸ hput⟩
  · rintro ⟨c, hc, hid, hput⟩
    obtain ⟨c', hc', hid', hargv⟩ := exists_setupCommand v6 true ⟨c, hc, hid, rfl⟩
    exact ⟨c', hc', hid', hargv ▸ hput⟩

/-! ### The setup phase -/

/-- Two records of one session: they differ in its own routes only. -/
def RouteState.SameSession (st st' : RouteState) : Prop :=
  st.toRouteIdentity = st'.toRouteIdentity ∧ st.stale = st'.stale

theorem RouteState.SameSession.trans {a b c : RouteState} (h : a.SameSession b)
    (h' : b.SameSession c) : a.SameSession c := ⟨h.1.trans h'.1, h.2.trans h'.2⟩

/-- A part of the phase that confirms the commands `as` and takes the record in memory from `p` to
`p'`: the last one that landed. -/
structure Advance (as : List Argv) (p : RouteState) (t : List (Exchange RouteOp.Ans))
    (p' : RouteState) : Prop where
  put_eq : put t = as
  issued_eq : issued t = []
  last : p' = (landed t).getLast?.getD p
  same : ∀ st ∈ landed t, st.SameSession p

namespace Advance

variable {as as' : List Argv} {p p' p'' : RouteState}

theorem sameSession (h : Advance as p t p') : p'.SameSession p := by
  rw [h.last]
  rcases hlast : (landed t).getLast? with - | st
  · exact ⟨rfl, rfl⟩
  · exact h.same st (List.mem_of_getLast? hlast)

theorem append (h : Advance as p t p') (h' : Advance as' p' t' p'') :
    Advance (as ++ as') p (t ++ t') p'' where
  put_eq := by rw [put_append, h.put_eq, h'.put_eq]
  issued_eq := by rw [issued_append, h.issued_eq, h'.issued_eq, List.append_nil]
  last := by rw [landed_append, List.getLast?_append, Option.getD_or, ← h.last, ← h'.last]
  same st hst := by
    rw [landed_append] at hst
    rcases List.mem_append.1 hst with hst | hst
    · exact h.same st hst
    · exact (h'.same st hst).trans h.sameSession

theorem checkpoint {ids : List RouteId} {res : Except CheckpointFailure Unit}
    (h : (checkpointInstalled p ids).HasTrace t (p', res)) : Advance [] p t p' := by
  obtain ⟨t₁, t₂, x, rfl, h₁, h₂⟩ := hasTrace_bind.1 h
  obtain rfl := hasTrace_perform.1 h₁
  rcases x with e | ⟨⟩
  · obtain ⟨rfl, heq⟩ := hasTrace_pure.1 h₂
    cases heq
    exact ⟨rfl, rfl, rfl, nofun⟩
  · obtain ⟨rfl, heq⟩ := hasTrace_pure.1 h₂
    cases heq
    refine ⟨rfl, rfl, rfl, fun st hst ↦ ?_⟩
    obtain rfl := List.mem_singleton.1 hst
    exact ⟨rfl, rfl⟩

theorem confirmed (a : Argv) (p : RouteState) : Advance [a] p [⟨.setup a, .ok ()⟩] p :=
  ⟨rfl, rfl, rfl, nofun⟩

theorem refused (a : Argv) (e : CommandFailure) (p : RouteState) :
    Advance [] p [⟨.setup a, .error e⟩] p := ⟨rfl, rfl, rfl, nofun⟩

end Advance

/-- What a setup phase over `cmds` comes to, after the trace `t`. -/
structure SetupPhase (cmds : List SetupCommand) (installed : List RouteId)
    (persisted : RouteState) (t : List (Exchange RouteOp.Ans)) (installed' : List RouteId)
    (persisted' : RouteState) (res : Except SetupFailure Unit) : Prop where
  /-- The routes that are in are those whose commands were confirmed. -/
  installed_eq : installed' = installed ++ (cmds.filter (·.toArgv ∈ put t)).map (·.id)
  /-- Only commands of the phase are confirmed. -/
  put_sub : ∀ a ∈ put t, ∃ c ∈ cmds, c.toArgv = a
  /-- Nothing is deleted, and the record in memory is the last one that landed. -/
  advance : Advance (put t) persisted t persisted'
  /-- The phase does not stop if every command is confirmed. -/
  all : (∀ c ∈ cmds, c.toArgv ∈ put t) → res = .ok ()

namespace SetupPhase

variable {cmd : SetupCommand} {cmds : List SetupCommand} {installed installed' : List RouteId}
  {persisted p persisted' : RouteState} {res : Except SetupFailure Unit}

/-- The phase stops at a command that is not confirmed. -/
theorem stopped (h : Advance [] persisted t p) :
    SetupPhase (cmd :: cmds) installed persisted t installed p res where
  installed_eq := by simp [h.put_eq]
  put_sub := by simp [h.put_eq]
  advance := by rwa [h.put_eq]
  all hall := by
    have hmem := hall cmd (.head _)
    rw [h.put_eq] at hmem
    cases hmem

/-- The phase goes on after a command that is not confirmed. -/
theorem skipped (hapart : ∀ c ∈ cmds, cmd.toArgv ≠ c.toArgv) (h : Advance [] persisted t p)
    (hrest : SetupPhase cmds installed p t' installed' persisted' res) :
    SetupPhase (cmd :: cmds) installed persisted (t ++ t') installed' persisted' res := by
  have hput : put (t ++ t') = put t' := by rw [put_append, h.put_eq, List.nil_append]
  have hnot : cmd.toArgv ∉ put t' := by
    intro hmem
    obtain ⟨c, hc, heq⟩ := hrest.put_sub _ hmem
    exact hapart c hc heq.symm
  refine ⟨?_, fun a ha ↦ ?_, ?_, fun hall ↦ ?_⟩
  · rw [hput, List.filter_cons_of_neg (by simpa using hnot)]
    exact hrest.installed_eq
  · rw [hput] at ha
    obtain ⟨c, hc, hca⟩ := hrest.put_sub a ha
    exact ⟨c, .tail _ hc, hca⟩
  · rw [hput]
    exact h.append hrest.advance
  · rw [hput] at hall
    exact absurd (hall cmd (.head _)) hnot

/-- The phase goes on after a command that is confirmed. -/
theorem entered (hapart : ∀ c ∈ cmds, cmd.toArgv ≠ c.toArgv)
    (h : Advance [cmd.toArgv] persisted t p)
    (hrest : SetupPhase cmds (installed ++ [cmd.id]) p t' installed' persisted' res) :
    SetupPhase (cmd :: cmds) installed persisted (t ++ t') installed' persisted' res := by
  have hput : put (t ++ t') = cmd.toArgv :: put t' := by rw [put_append, h.put_eq]; rfl
  have hmem {c : SetupCommand} (hc : c ∈ cmds) : c.toArgv ∈ put (t ++ t') ↔ c.toArgv ∈ put t' := by
    rw [hput, List.mem_cons]
    exact or_iff_right (hapart c hc).symm
  refine ⟨?_, fun a ha ↦ ?_, ?_, fun hall ↦ ?_⟩
  · have hfilter : cmds.filter (·.toArgv ∈ put (t ++ t')) = cmds.filter (·.toArgv ∈ put t') :=
      List.filter_congr fun c hc ↦ by rw [decide_eq_decide, hmem hc]
    rw [List.filter_cons_of_pos (by simp [hput]), hfilter, hrest.installed_eq, List.map_cons,
      List.append_assoc, List.singleton_append]
  · rw [hput] at ha
    rcases List.mem_cons.1 ha with rfl | ha
    · exact ⟨cmd, .head _, rfl⟩
    · obtain ⟨c, hc, hca⟩ := hrest.put_sub a ha
      exact ⟨c, .tail _ hc, hca⟩
  · rw [hput]
    exact h.append hrest.advance
  · exact hrest.all fun c hc ↦ (hmem hc).1 (hall c (.tail _ hc))

end SetupPhase

theorem hasTrace_triple {α β γ : Type} {a a' : α} {b b' : β} {c c' : γ} :
    (pure (a, b, c) : RouteM (α × β × γ)).HasTrace t (a', b', c') ↔
      t = [] ∧ a' = a ∧ b' = b ∧ c' = c := by
  rw [hasTrace_pure, Prod.mk.injEq, Prod.mk.injEq]

variable {res : Except SetupFailure Unit} {persisted persisted' : RouteState}

/-- **The setup phase**, from any command on. -/
theorem setupPhase_of_hasTrace {total index : Nat} {cmds : List SetupCommand}
    {installed installed' : List RouteId} (hdistinct : cmds.Pairwise (·.toArgv ≠ ·.toArgv))
    (h : (runSetupCommands total index cmds installed persisted).HasTrace t
      (installed', persisted', res)) :
    SetupPhase cmds installed persisted t installed' persisted' res := by
  induction cmds generalizing index installed persisted t with
  | nil =>
    obtain ⟨rfl, rfl, rfl, rfl⟩ := hasTrace_triple.1 h
    exact ⟨by simp, nofun, ⟨rfl, rfl, rfl, nofun⟩, fun _ ↦ rfl⟩
  | cons cmd cmds ih =>
    obtain ⟨hapart, hdistinct⟩ := List.pairwise_cons.1 hdistinct
    obtain ⟨t₁, _, ⟨p₁, recorded⟩, rfl, h₁, hcmd⟩ := hasTrace_bind.1 h
    have hpre := Advance.checkpoint h₁
    rcases recorded with e | ⟨⟩
    · -- the record could not be written: the command does not run
      obtain ⟨rfl, rfl, rfl, rfl⟩ := hasTrace_triple.1 hcmd
      rw [List.append_nil]
      exact .stopped hpre
    · obtain ⟨t₂, _, x, rfl, h₂, hrest⟩ := hasTrace_bind.1 hcmd
      obtain rfl := hasTrace_perform.1 h₂
      rcases x with failure | ⟨⟩
      · have hfail := hpre.append (.refused cmd.toArgv failure p₁)
        rw [← List.append_assoc]
        dsimp only at hrest
        split at hrest
        · rcases failure with e | code
          · obtain ⟨rfl, rfl, rfl, rfl⟩ := hasTrace_triple.1 hrest
            rw [List.append_nil]
            exact .stopped hfail
          · obtain ⟨t₃, _, ⟨p₃, _⟩, rfl, h₃, hend⟩ := hasTrace_bind.1 hrest
            obtain ⟨rfl, rfl, rfl, rfl⟩ := hasTrace_triple.1 hend
            rw [List.append_nil]
            exact .stopped (hfail.append (.checkpoint h₃))
        · obtain ⟨t₃, t₄, ⟨p₃, _⟩, rfl, h₃, hend⟩ := hasTrace_bind.1 hrest
          rw [← List.append_assoc]
          exact .skipped hapart (hfail.append (.checkpoint h₃)) (ih hdistinct hend)
      · obtain ⟨t₃, t₄, ⟨p₃, _⟩, rfl, h₃, hend⟩ := hasTrace_bind.1 hrest
        rw [← List.append_assoc, ← List.append_assoc]
        exact .entered hapart ((hpre.append (.confirmed cmd.toArgv p₁)).append (.checkpoint h₃))
          (ih hdistinct hend)

theorem pairwise_setupCommands (plat : Platform) (tun : String) (ip : IpAddr) (gw : GatewayInfo)
    (v6 : Bool) : (buildSetupCommands plat tun ip gw v6).Pairwise (·.toArgv ≠ ·.toArgv) := by
  refine List.pairwise_append.2 ⟨?_, ?_, fun c hc c' hc' heq ↦ ?_⟩
  · cases plat <;> simp [platformSplitSetup, netshRoute]
  · cases platformBypassSetup plat ip gw <;> simp
  · -- what undoes a split is not what undoes the bypass
    obtain ⟨a, ha, rfl⟩ := List.mem_map.1 hc'
    have hsplit : (⟨undo plat c.toArgv, c.id⟩ : RouteCommand) ∈
        buildSplitRouteTeardownCommands plat tun := by
      rw [← split_teardown_undo plat tun v6]
      exact List.mem_map_of_mem hc
    have hbypass := bypass_teardown_undo plat tun ip gw (Option.mem_toList.1 ha)
    exact split_ne_bypass hsplit hbypass (congrArg (undo plat) heq)

theorem nodup_plannedRoutes (ip : IpAddr) : (plannedRoutes ip).Nodup := by
  unfold plannedRoutes
  split <;> decide

theorem eq_of_setup_id {v6 : Bool} {c c' : SetupCommand}
    (hc : c ∈ buildSetupCommands plat tun ip gw v6)
    (hc' : c' ∈ buildSetupCommands plat tun ip gw v6) (h : c.id = c'.id) : c = c' := by
  have hnodup := nodup_plannedRoutes ip
  rw [← map_id_buildSetupCommands plat tun ip gw v6] at hnodup
  exact List.inj_on_of_nodup_map hnodup hc hc' h

/-- The routes that the setup phase of an install gets in are those whose commands are
confirmed. -/
theorem setupRoutes_of_hasTrace {installed : List RouteId}
    (h : (setupRoutes plat tun ip gw persisted).HasTrace t (installed, persisted', res)) :
    Advance (put t) persisted t persisted' ∧ SetupBegan t ∧
      (∀ id, id ∈ installed ↔ In plat tun ip gw t id) ∧
      (res = .ok () ∧ installed.length = (plannedRoutes ip).length ↔
        ∀ id ∈ plannedRoutes ip, In plat tun ip gw t id) := by
  obtain ⟨t₁, t₂, v6, rfl, h₁, h₂⟩ := hasTrace_bind.1 h
  obtain rfl := hasTrace_perform.1 h₁
  have hphase := setupPhase_of_hasTrace (pairwise_setupCommands plat tun ip gw v6) h₂
  set cmds := buildSetupCommands plat tun ip gw v6 with hcmds
  have hput : put ([⟨.tunIpv6Available tun, v6⟩] ++ t₂) = put t₂ := rfl
  have hadv : Advance [] persisted [⟨.tunIpv6Available tun, v6⟩] persisted := ⟨rfl, rfl, rfl, nofun⟩
  have hin : ∀ id, id ∈ installed ↔ In plat tun ip gw ([⟨.tunIpv6Available tun, v6⟩] ++ t₂) id := by
    intro id
    rw [in_iff v6, hput, hphase.installed_eq, List.nil_append]
    simp only [List.mem_map, List.mem_filter, decide_eq_true_eq, ← hcmds]
    constructor
    · rintro ⟨c, ⟨hc, hmem⟩, hid⟩
      exact ⟨c, hc, hid, hmem⟩
    · rintro ⟨c, hc, hid, hmem⟩
      exact ⟨c, ⟨hc, hmem⟩, hid⟩
  have hplanned : cmds.map (·.id) = plannedRoutes ip := map_id_buildSetupCommands plat tun ip gw v6
  have hlen : installed.length = (plannedRoutes ip).length ↔ ∀ c ∈ cmds, c.toArgv ∈ put t₂ := by
    rw [hphase.installed_eq, ← hplanned, List.nil_append, List.length_map, List.length_map,
      List.length_filter_eq_length_iff]
    simp only [decide_eq_true_eq]
  refine ⟨hadv.append hphase.advance, ⟨tun, v6, .head _⟩, hin, ?_, ?_⟩
  · rintro ⟨-, hall⟩ id hid
    rw [← hplanned] at hid
    obtain ⟨c, hc, rfl⟩ := List.mem_map.1 hid
    exact (in_iff v6).2 ⟨c, hc, rfl, hlen.1 hall c hc⟩
  · intro hall
    have hcs : ∀ c ∈ cmds, c.toArgv ∈ put t₂ := by
      intro c hc
      obtain ⟨c', hc', hid, hmem⟩ := (in_iff v6).1 (hall c.id (hplanned ▸ List.mem_map_of_mem hc))
      obtain rfl := eq_of_setup_id hc' hc hid
      exact hmem
    exact ⟨hphase.all hcs, hlen.2 hcs⟩

/-! ### The rollback -/

/-- The deletes of a teardown, and what they leave. -/
structure TornDown (plat : Platform) (i : RouteIdentity) (ids : List RouteId)
    (t : List (Exchange RouteOp.Ans)) (left : List RouteId) : Prop where
  /-- Only listed routes are deleted. -/
  issued_sub : ∀ a ∈ issued t, ∃ c ∈ buildTeardownCommands plat i, c.toArgv = a ∧ c.id ∈ ids
  /-- A route is left unless its delete was confirmed. -/
  mem_left : ∀ id, id ∈ left ↔ id ∈ ids ∧ ¬i.DeletedBy plat (confirmed t) id

theorem tornDown_of_hasTrace {i : RouteIdentity} {ids left : List RouteId}
    {f : List RouteId → RouteState}
    (h : (teardownRoutes plat i ids fun ids ↦ tryWrite (f ids)).HasTrace t left) :
    TornDown plat i ids t left := by
  let L (rest : List RouteCommand) (still : List RouteId) (u : List (Exchange RouteOp.Ans)) :
      Prop :=
    (∀ c ∈ rest, c ∈ buildTeardownCommands plat i ∧ c.id ∈ ids) ∧ TornDown plat i ids u still
  have hend : L [] left ([] ++ t) := by
    refine h.foldlM [] ⟨fun c hc ↦ ?_, ⟨nofun, fun id ↦ ?_⟩⟩ ?_
    · obtain ⟨hc, hid⟩ := List.mem_filter.1 hc
      exact ⟨hc, of_decide_eq_true hid⟩
    · exact (and_iff_left not_deletedBy_nil).symm
    · rintro cmd rest still u u' still' ⟨hmem, hdown⟩ hround
      obtain ⟨t₁, _, gone, rfl, h₁, hrest⟩ := hasTrace_bind.1 hround
      obtain ⟨t₂, _, _, rfl, h₂, hend⟩ := hasTrace_bind.1 hrest
      obtain ⟨rfl, rfl⟩ := hasTrace_pure.1 hend
      obtain ⟨hi₁, hc₁, -⟩ := hasTrace_runTeardownCommand h₁
      obtain ⟨hi₂, hc₂, -⟩ := hasTrace_tryWrite h₂
      obtain ⟨hcmd, hid⟩ := hmem cmd (.head _)
      refine ⟨fun c hc ↦ hmem c (.tail _ hc), fun a ha ↦ ?_, fun id ↦ ?_⟩
      · rw [issued_append, issued_append, hi₁, issued_append, hi₂] at ha
        rcases List.mem_append.1 ha with ha | ha
        · exact hdown.issued_sub a ha
        · exact ⟨cmd, hcmd, (List.mem_singleton.1 (by simpa [issued] using ha)).symm, hid⟩
      · have hconf : confirmed (u ++ (t₁ ++ (t₂ ++ []))) =
            confirmed u ++ if gone then [cmd.toArgv] else [] := by simp [hc₁, hc₂]
        rw [hconf, deletedBy_append, not_or, ← and_assoc, ← hdown.mem_left]
        cases gone with
        | false => exact (and_iff_left not_deletedBy_nil).symm
        | true =>
          have hone : i.DeletedBy plat [cmd.toArgv] id ↔ id = cmd.id := by
            constructor
            · rintro ⟨c, hc, rfl, hargv⟩
              rw [eq_of_argv_eq hc hcmd (List.mem_singleton.1 hargv)]
            · rintro rfl
              exact ⟨cmd, hcmd, rfl, List.mem_singleton_self _⟩
          simp only [if_true, hone, List.mem_filter, decide_eq_true_eq, ne_eq]
  rw [List.nil_append] at hend
  exact hend.2

/-- A call that is not of the setup phase. -/
def RouteOp.NoSetup : RouteOp → Prop
  | .setup _ => False
  | .tunIpv6Available _ => False
  | _ => True

theorem put_of_only {α : Type} {p : RouteM α} {a : α} (h : p.HasTrace t a)
    (hp : p.Only RouteOp.NoSetup) : put t = [] := by
  refine List.filterMap_eq_nil_iff.2 fun e he ↦ ?_
  obtain ⟨o, x⟩ := e
  have hno := h.forall_of_only hp _ he
  cases o with
  | setup a => exact hno.elim
  | teardown a phase => rfl
  | read => rfl
  | write st => rfl
  | remove => rfl
  | tunIpv6Available tun => exact hno.elim

theorem only_tryWrite (st : RouteState) : (tryWrite st).Only RouteOp.NoSetup :=
  .bind (only_perform trivial) fun _ ↦ only_pure ()

theorem only_runTeardownCommand (cmd : RouteCommand) (phase : BestEffortPhase) :
    (runTeardownCommand cmd phase).Only RouteOp.NoSetup :=
  .bind (only_perform trivial) fun x ↦ by
    rcases x with e | ⟨⟩ <;> exact only_pure _

theorem only_teardownRoutes (i : RouteIdentity) (ids : List RouteId)
    (f : List RouteId → RouteState) :
    (teardownRoutes plat i ids fun ids ↦ tryWrite (f ids)).Only RouteOp.NoSetup :=
  only_foldlM (fun _ cmd ↦ (only_runTeardownCommand cmd _).bind fun _ ↦
    (only_tryWrite _).bind fun _ ↦ only_pure _) _ _

/-- The rollback: what it deletes, and what it leaves on disk if its last store lands. -/
structure RolledBack (plat : Platform) (ids : List RouteId) (persisted : RouteState)
    (extra : List RouteId) (t : List (Exchange RouteOp.Ans)) (left : List RouteId) : Prop where
  torn : TornDown plat persisted.toRouteIdentity ids t left
  put_eq : put t = []
  disk : LastLands t → ∀ d,
    (recordAfter d t = none ∧ unionIds left extra = [] ∧ persisted.stale = []) ∨
      recordAfter d t = some { persisted with installed := unionIds left extra }

theorem recordAfter_concat (d : Option RouteState) (e : Exchange RouteOp.Ans) :
    recordAfter d (t ++ [e]) = recordStep (recordAfter d t) e := by
  rw [recordAfter_append]
  rfl

theorem rolledBack_of_hasTrace {ids extra : List RouteId} {persisted : RouteState} {u : Unit}
    (h : (rollbackAndRecord plat ids persisted extra).HasTrace t u) :
    ∃ left, RolledBack plat ids persisted extra t left := by
  obtain ⟨t₁, _, _, rfl, h₁, hrest⟩ := hasTrace_bind.1 h
  obtain ⟨t₂, t₃, left, rfl, h₂, h₃⟩ := hasTrace_bind.1 hrest
  obtain ⟨hi₁, hc₁, -⟩ := hasTrace_tryWrite h₁
  have htorn := tornDown_of_hasTrace h₂
  -- the last call stores what is left
  have hlast : ∃ e, t₃ = [e] ∧ issued [e] = [] ∧ confirmed [e] = [] ∧ put [e] = [] ∧
      (LastLands [e] → ∀ d,
        (recordStep d e = none ∧ unionIds left extra = [] ∧ persisted.stale = []) ∨
          recordStep d e = some { persisted with installed := unionIds left extra }) := by
    dsimp only at h₃
    split at h₃
    · next hnil =>
      obtain ⟨hleft, hstale⟩ := Bool.and_eq_true_iff.1 hnil
      obtain ⟨t₄, t₅, x, rfl, h₄, h₅⟩ := hasTrace_bind.1 h₃
      obtain rfl := hasTrace_perform.1 h₄
      obtain ⟨rfl, -⟩ := hasTrace_pure.1 h₅
      refine ⟨_, rfl, rfl, rfl, rfl, fun hl d ↦ .inl ⟨?_, List.isEmpty_iff.1 hleft,
        List.isEmpty_iff.1 hstale⟩⟩
      rcases hl with ⟨st, hl⟩ | hl
      · cases hl
      · cases hl
        rfl
    · obtain ⟨t₄, t₅, x, rfl, h₄, h₅⟩ := hasTrace_bind.1 h₃
      obtain rfl := hasTrace_perform.1 h₄
      obtain ⟨rfl, -⟩ := hasTrace_pure.1 h₅
      refine ⟨_, rfl, rfl, rfl, rfl, fun hl d ↦ .inr ?_⟩
      rcases hl with ⟨st, hl⟩ | hl
      · cases hl
        rfl
      · cases hl
  obtain ⟨e, rfl, hi₃, hc₃, hp₃, hdisk⟩ := hlast
  have hissued : issued (t₁ ++ (t₂ ++ [e])) = issued t₂ := by simp [hi₁, hi₃]
  have hconf : confirmed (t₁ ++ (t₂ ++ [e])) = confirmed t₂ := by simp [hc₁, hc₃]
  refine ⟨left, ⟨?_, ?_⟩, ?_, fun hl d ↦ ?_⟩
  · rw [hissued]
    exact htorn.issued_sub
  · rw [hconf]
    exact htorn.mem_left
  · rw [put_append, put_append, put_of_only h₁ (only_tryWrite _),
      put_of_only h₂ (only_teardownRoutes _ _ _), hp₃]
    rfl
  · rw [← List.append_assoc] at hl ⊢
    rw [recordAfter_concat]
    refine hdisk ?_ _
    rwa [LastLands, List.getLast?_concat] at hl

/-! ### The sweep -/

theorem lists_readGroups {st : RouteState} {i : RouteIdentity} :
    Lists (if st.installed.isEmpty then st.stale else st.groups) i id ↔ Lists st.groups i id := by
  split
  · next hnil =>
    have hprimary : ¬(st.primary.toRouteIdentity = i ∧ id ∈ st.primary.installed) := by
      rw [RouteState.primary, List.isEmpty_iff.1 hnil]
      exact fun h ↦ List.not_mem_nil h.2
    rw [RouteState.groups, lists_append, lists_cons, or_iff_left lists_nil, or_iff_left hprimary]
  · rfl

/-- What a sweep carries forward: what was recorded and could be deleted, and was not confirmed
gone. -/
structure Swept (plat : Platform) (template : RouteState) (t : List (Exchange RouteOp.Ans))
    (p : RouteState) : Prop where
  identity_eq : p.toRouteIdentity = template.toRouteIdentity
  installed_eq : p.installed = []
  put_eq : put t = []
  stale_iff : ∀ i id, Lists p.stale i id ↔
    Lists (readGroups t) i id ∧ id ∈ plannedRoutes i.serverIp ∧ ¬i.DeletedBy plat (confirmed t) id

theorem only_recoverGroups {f : List StaleRecord → RouteState} (groups : List StaleRecord) :
    (recoverGroups plat groups fun gs ↦ tryWrite (f gs)).Only RouteOp.NoSetup := by
  have hpass (commandsOf : RouteIdentity → List RouteCommand) (phase : BestEffortPhase)
      (gs : List StaleRecord) :
      (recoverPass commandsOf phase (fun gs ↦ tryWrite (f gs)) gs).Only RouteOp.NoSetup :=
    (only_foldlM (fun _ _ ↦ only_foldlM (fun _ cmd ↦
      (only_runTeardownCommand cmd _).bind fun _ ↦ (only_tryWrite _).bind fun _ ↦
        only_pure _) _ _) _ _).bind fun _ ↦ only_pure _
  exact (hpass _ _ _).bind fun _ ↦ hpass _ _ _

theorem swept_of_hasTrace {template p : RouteState} (hinst : template.installed = [])
    (hstale : template.stale = [])
    (h : (sweepLeftoverBeforeInstall plat template).HasTrace t (.ok p)) :
    Swept plat template t p := by
  obtain ⟨t₁, t₂, found, rfl, h₁, h₂⟩ := hasTrace_bind.1 h
  obtain rfl := hasTrace_perform.1 h₁
  rcases found with leftover | - | cause
  · set groups := coalesce (if leftover.installed.isEmpty then leftover.stale else leftover.groups)
      with hgroups
    have hlists : ∀ i id, Lists groups i id ↔
        Lists leftover.groups i id ∧ id ∈ plannedRoutes i.serverIp := fun i id ↦ by
      rw [hgroups, lists_coalesce, lists_readGroups]
    dsimp only at h₂
    rw [← hgroups] at h₂
    split at h₂
    · next hnil =>
      obtain ⟨rfl, heq⟩ := hasTrace_pure.1 h₂
      cases heq
      refine ⟨rfl, hinst, rfl, fun i id ↦ iff_of_false (by rw [hstale]; exact lists_nil) ?_⟩
      rintro ⟨hl, hplan, -⟩
      have hmem := (hlists i id).2 ⟨hl, hplan⟩
      rw [List.isEmpty_iff.1 hnil] at hmem
      exact lists_nil hmem
    · obtain ⟨t₃, _, _, rfl, h₃, hrest⟩ := hasTrace_bind.1 h₂
      obtain ⟨t₄, _, swept, rfl, h₄, hrest⟩ := hasTrace_bind.1 hrest
      obtain ⟨t₅, t₆, _, rfl, h₅, h₆⟩ := hasTrace_bind.1 hrest
      obtain ⟨rfl, heq⟩ := hasTrace_pure.1 h₆
      cases heq
      have hconf : confirmed ([⟨.read, .records leftover⟩] ++ (t₃ ++ (t₄ ++ (t₅ ++ [])))) =
          confirmed t₄ := by
        simp only [confirmed_append, (hasTrace_tryWrite h₃).2.1, (hasTrace_tryWrite h₅).2.1]
        exact List.append_nil _
      have hput : put ([⟨.read, .records leftover⟩] ++ (t₃ ++ (t₄ ++ (t₅ ++ [])))) = [] := by
        simp only [put_append, put_of_only h₃ (only_tryWrite _), put_of_only h₅ (only_tryWrite _),
          put_of_only h₄ (only_recoverGroups _)]
        rfl
      refine ⟨rfl, hinst, hput, fun i id ↦ ?_⟩
      rw [hconf]
      show Lists (swept.filter _) i id ↔ Lists leftover.groups i id ∧ _
      rw [lists_filter_nonempty, recoverGroups_out h₄, lists_map_less, hlists, and_assoc]
  · obtain ⟨rfl, heq⟩ := hasTrace_pure.1 h₂
    cases heq
    exact ⟨rfl, hinst, rfl, fun i id ↦ iff_of_false (by rw [hstale]; exact lists_nil)
      fun hl ↦ lists_nil hl.1⟩
  · obtain ⟨rfl, heq⟩ := hasTrace_pure.1 h₂
    cases heq

theorem only_sweep (template : RouteState) :
    (sweepLeftoverBeforeInstall plat template).Only RouteOp.NoSetup := by
  refine .bind (only_perform trivial) fun found ↦ ?_
  rcases found with leftover | - | cause
  · dsimp only
    generalize coalesce (if leftover.installed.isEmpty then leftover.stale else leftover.groups) =
      groups
    split
    · exact only_pure _
    · exact (only_tryWrite _).bind fun _ ↦ (only_recoverGroups _).bind fun _ ↦
        (only_tryWrite _).bind fun _ ↦ only_pure _
  · exact only_pure _
  · exact only_pure _

/-! ### Install -/

/-- The record that an install starts from. -/
def installTemplate (tun : String) (ip : IpAddr) (gw : GatewayInfo) : RouteState :=
  ⟨identityOf tun ip gw, [], []⟩

/-- What an install that fails leaves: `t₁`, `t₂` and `t₃` are the traces of its sweep, its setup
phase and its rollback. -/
structure LeavesRecord (plat : Platform) (tun : String) (ip : IpAddr) (gw : GatewayInfo)
    (t₁ t₂ t₃ : List (Exchange RouteOp.Ans)) : Prop where
  /-- The sweep and the setup phase delete nothing of this install. -/
  setup : issued t₂ = []
  /-- The rollback deletes only routes that are in. -/
  rollback : ∀ a ∈ issued t₃, ∃ c ∈ buildTeardownCommands plat (identityOf tun ip gw),
    c.toArgv = a ∧ In plat tun ip gw t₂ c.id
  /-- The record on disk, if the last store lands. -/
  record : LastLands t₃ → ∀ d, recordAfter d (t₁ ++ (t₂ ++ t₃)) = none ∨
    ∃ st, recordAfter d (t₁ ++ (t₂ ++ t₃)) = some st ∧
      st.toRouteIdentity = identityOf tun ip gw ∧
      (∀ i id, Lists st.stale i id ↔ Lists (readGroups t₁) i id ∧
        id ∈ plannedRoutes i.serverIp ∧ ¬i.DeletedBy plat (confirmed t₁) id) ∧
      ∀ id, id ∈ st.installed ↔
        (In plat tun ip gw t₂ id ∧ ¬(identityOf tun ip gw).DeletedBy plat (confirmed t₃) id) ∨
          (id ∈ lastCheckpoint t₂ ∧ ¬In plat tun ip gw t₂ id)

theorem leavesRecord_of_hasTrace {t₁ t₂ t₃ : List (Exchange RouteOp.Ans)} {p p' : RouteState}
    {installed : List RouteId} {u : Unit} (h₁ : Swept plat (installTemplate tun ip gw) t₁ p)
    (h₂ : (setupRoutes plat tun ip gw p).HasTrace t₂ (installed, p', res))
    (h₃ : (rollbackAndRecord plat installed p' (p'.installed.filter (· ∉ installed))).HasTrace
      t₃ u) :
    LeavesRecord plat tun ip gw t₁ t₂ t₃ := by
  obtain ⟨hadv, -, hin, -⟩ := setupRoutes_of_hasTrace h₂
  obtain ⟨left, hroll⟩ := rolledBack_of_hasTrace h₃
  have hid : p'.toRouteIdentity = identityOf tun ip gw := hadv.sameSession.1.trans h₁.identity_eq
  have hcheck : lastCheckpoint t₂ = p'.installed := by
    rw [lastCheckpoint, hadv.last]
    rcases (landed t₂).getLast? with - | st
    · exact h₁.installed_eq.symm
    · rfl
  have htorn := hroll.torn
  rw [hid] at htorn
  refine ⟨hadv.issued_eq, fun a ha ↦ ?_, fun hl d ↦ ?_⟩
  · obtain ⟨c, hc, hca, hcid⟩ := htorn.issued_sub a ha
    exact ⟨c, hc, hca, (hin c.id).1 hcid⟩
  · rw [recordAfter_append, recordAfter_append]
    rcases hroll.disk hl (recordAfter (recordAfter d t₁) t₂) with ⟨hnone, -⟩ | hst
    · exact .inl hnone
    · refine .inr ⟨_, hst, hid, fun i id ↦ ?_, fun id ↦ ?_⟩
      · show Lists p'.stale i id ↔ _
        rw [hadv.sameSession.2]
        exact h₁.stale_iff i id
      · show id ∈ unionIds left _ ↔ _
        rw [mem_unionIds, htorn.mem_left, List.mem_filter, decide_eq_true_eq, hin, hcheck]

theorem exists_planned (ip : IpAddr) : RouteId.splitV4Low ∈ plannedRoutes ip :=
  splitRoutes_subset_plannedRoutes ip (by decide)

theorem not_in_of_put_nil (h : put t = []) : ¬In plat tun ip gw t id := by
  rintro ⟨c, -, -, hput⟩
  rw [h] at hput
  cases hput

/-- **What an install leaves.** It succeeds exactly if every planned route is in. One that fails
after its setup phase began deletes in its rollback only routes that are in; and, if its last store
lands, there is no record, or one that names what was carried forward, the routes that are in and
were not confirmed gone, and those that the last checkpoint names and that are not in. -/
theorem installWith_spec {res : Except RoutingError SystemRoutes}
    (h : (installWith plat tun ip gw).HasTrace t res) :
    (res.isOk = true ↔ ∀ id ∈ plannedRoutes ip, In plat tun ip gw t id) ∧
      (res.isOk = false → SetupBegan t → ∃ t₁ t₂ t₃ p setup rollback, t = t₁ ++ (t₂ ++ t₃) ∧
        (sweepLeftoverBeforeInstall plat (installTemplate tun ip gw)).HasTrace t₁ (.ok p) ∧
        (setupRoutes plat tun ip gw p).HasTrace t₂ setup ∧
        (rollbackAndRecord plat setup.1 setup.2.1
          (setup.2.1.installed.filter (· ∉ setup.1))).HasTrace t₃ rollback ∧
        LeavesRecord plat tun ip gw t₁ t₂ t₃) := by
  obtain ⟨t₁, _, swept, rfl, h₁, hrest⟩ := hasTrace_bind.1 h
  have hput₁ := put_of_only h₁ (only_sweep _)
  rcases swept with e | p
  · obtain ⟨rfl, rfl⟩ := hasTrace_pure.1 hrest
    rw [List.append_nil]
    refine ⟨iff_of_false nofun fun hall ↦ ?_, ?_⟩
    · exact not_in_of_put_nil hput₁ (hall _ (exists_planned ip))
    · rintro - ⟨tun', x, hmem⟩
      exact (h₁.forall_of_only (only_sweep _) _ hmem).elim
  · obtain ⟨t₂, t₃, ⟨installed, p', result⟩, rfl, h₂, hend⟩ := hasTrace_bind.1 hrest
    obtain ⟨-, -, hin, hok⟩ := setupRoutes_of_hasTrace h₂
    have hswept := swept_of_hasTrace rfl rfl h₁
    -- only the setup phase puts routes in
    have hall (hput₃ : put t₃ = []) : (∀ id ∈ plannedRoutes ip,
        In plat tun ip gw (t₁ ++ (t₂ ++ t₃)) id) ↔
          result = .ok () ∧ installed.length = (plannedRoutes ip).length := by
      rw [hok]
      have hput : put (t₁ ++ (t₂ ++ t₃)) = put t₂ := by simp [hput₁, hput₃]
      simp only [In, hput]
    have hroll {u : Unit} (h₃ : (rollbackAndRecord plat installed p'
        (p'.installed.filter (· ∉ installed))).HasTrace t₃ u) :
        put t₃ = [] ∧ ∃ t₁' t₂' t₃' p setup rollback, t₁ ++ (t₂ ++ t₃) = t₁' ++ (t₂' ++ t₃') ∧
          (sweepLeftoverBeforeInstall plat (installTemplate tun ip gw)).HasTrace t₁' (.ok p) ∧
          (setupRoutes plat tun ip gw p).HasTrace t₂' setup ∧
          (rollbackAndRecord plat setup.1 setup.2.1
            (setup.2.1.installed.filter (· ∉ setup.1))).HasTrace t₃' rollback ∧
          LeavesRecord plat tun ip gw t₁' t₂' t₃' := by
      obtain ⟨left, hrolled⟩ := rolledBack_of_hasTrace h₃
      exact ⟨hrolled.put_eq, t₁, t₂, t₃, p, _, u, rfl, h₁, h₂, h₃,
        leavesRecord_of_hasTrace hswept h₂ h₃⟩
    rcases result with e | ⟨⟩
    · obtain ⟨t₃, t₄, u, rfl, h₃, h₄⟩ := hasTrace_bind.1 hend
      obtain ⟨rfl, rfl⟩ := hasTrace_pure.1 h₄
      rw [List.append_nil] at hall hroll ⊢
      obtain ⟨hput₃, hleaves⟩ := hroll h₃
      exact ⟨by rw [hall hput₃]; exact iff_of_false nofun nofun, fun _ _ ↦ hleaves⟩
    · dsimp only at hend
      split at hend
      · next hlen =>
        obtain ⟨t₃, t₄, u, rfl, h₃, h₄⟩ := hasTrace_bind.1 hend
        obtain ⟨rfl, rfl⟩ := hasTrace_pure.1 h₄
        rw [List.append_nil] at hall hroll ⊢
        obtain ⟨hput₃, hleaves⟩ := hroll h₃
        exact ⟨by rw [hall hput₃]; exact iff_of_false nofun fun h ↦ hlen h.2, fun _ _ ↦ hleaves⟩
      · next hlen =>
        obtain ⟨rfl, rfl⟩ := hasTrace_pure.1 hend
        exact ⟨iff_of_true rfl ((hall rfl).2 ⟨rfl, Decidable.not_not.1 hlen⟩), nofun⟩

/-- An install on macOS whose first command exits with an error, and whose next checkpoint does not
land. -/
def refusedAnswers (n : Nat) : (o : RouteOp) → o.Ans
  | .setup _ => Except.error (CommandFailure.exit 1)
  | .teardown _ _ => Except.ok ()
  | .read => Found.nothing
  | .write _ => if n = 4 then Except.error (StoreError.io "") else Except.ok ()
  | .remove => Except.ok Cleared.gone
  | .tunIpv6Available _ => true

/-- The trace of that install, and what it returns. -/
def refusedInstall : List (Exchange RouteOp.Ans) × Except RoutingError SystemRoutes :=
  Prog.answered refusedAnswers 0
    (installWith .macos "utun3" (IpAddr.ofOctets 203 0 113 7) sampleGateway)

theorem hasTrace_refusedInstall :
    (installWith .macos "utun3" (IpAddr.ofOctets 203 0 113 7) sampleGateway).HasTrace
      refusedInstall.1 refusedInstall.2 :=
  Prog.hasTrace_answered refusedAnswers 0 _

theorem leavesRecord_refusedInstall :
    ∃ t₁ t₂ t₃, refusedInstall.1 = t₁ ++ (t₂ ++ t₃) ∧
      LeavesRecord .macos "utun3" (IpAddr.ofOctets 203 0 113 7) sampleGateway t₁ t₂ t₃ := by
  have hbegan : SetupBegan refusedInstall.1 :=
    ⟨"utun3", true, .tail _ (.head _)⟩
  obtain ⟨t₁, t₂, t₃, -, -, -, heq, -, -, -, h⟩ :=
    (installWith_spec hasTrace_refusedInstall).2 rfl hbegan
  exact ⟨t₁, t₂, t₃, heq, h⟩

/-- A setup command that is not confirmed, with how it failed. -/
def failure? : Exchange RouteOp.Ans → Option (Argv × CommandFailure)
  | ⟨.setup a, .error e⟩ => some (a, e)
  | _ => none

/-- The fate of the route is unknown: its setup command could not be spawned. -/
def FateUnknown (plat : Platform) (tun : String) (ip : IpAddr) (gw : GatewayInfo)
    (t : List (Exchange RouteOp.Ans)) (id : RouteId) : Prop :=
  ∃ c ∈ buildSetupCommands plat tun ip gw true, c.id = id ∧
    ∃ e, (c.toArgv, CommandFailure.spawn e) ∈ t.filterMap failure?

/-- **A route that was refused stays recorded** if its narrowing checkpoint does not land: it is not
in, its fate is known, and the last store of the rollback, which lands, names it. -/
theorem refused_stays_recorded :
    (installWith .macos "utun3" (IpAddr.ofOctets 203 0 113 7) sampleGateway).HasTrace
        refusedInstall.1 refusedInstall.2 ∧
      LastLands refusedInstall.1 ∧
      (recordAfter none refusedInstall.1).map (·.installed) = some [.splitV4Low] ∧
      ¬In .macos "utun3" (IpAddr.ofOctets 203 0 113 7) sampleGateway refusedInstall.1 .splitV4Low ∧
      ¬FateUnknown .macos "utun3" (IpAddr.ofOctets 203 0 113 7) sampleGateway refusedInstall.1
        .splitV4Low := by
  refine ⟨hasTrace_refusedInstall, .inl ⟨_, rfl⟩, by decide, ?_, ?_⟩
  · exact not_in_of_put_nil rfl
  · rintro ⟨c, -, -, e, hmem⟩
    have hfailures : refusedInstall.1.filterMap failure? =
        [(⟨.route, ["-n", "add", "-net", "0.0.0.0/1", "-interface", "utun3"]⟩, .exit 1)] := by
      decide
    rw [hfailures, List.mem_singleton] at hmem
    have hexit := (Prod.mk.inj hmem).2
    cases hexit

end Hole.Routing
