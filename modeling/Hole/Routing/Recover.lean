import Hole.Effect.Trace
import Hole.Routing.Record

/-!
# One pass of recovery

What `recover_groups` does with a list of groups, for every outcome of every delete. A delete is
named by its argv, and the groups that name one delete are narrowed together, so what a pass leaves
of the groups is a function of the deletes that were confirmed: each group without the routes whose
own delete is among them (`StaleRecord.less`). The two loops keep that as an invariant of the trace
so far (`Pass`), and `recoverGroups_spec` reads the whole of it off.
-/

namespace Hole.Routing

open Effect

/-! ### Reading a trace -/

/-- The delete that a call issues. -/
def issued? (e : Exchange RouteOp.Ans) : Option Argv :=
  match e.1 with
  | .teardown a _ => some a
  | _ => none

/-- The delete that a call issues and that is confirmed. -/
def confirmed? : Exchange RouteOp.Ans → Option Argv
  | ⟨.teardown a _, .ok ()⟩ => some a
  | _ => none

/-- The record that a call writes. -/
def written? (e : Exchange RouteOp.Ans) : Option RouteState :=
  match e.1 with
  | .write st => some st
  | _ => none

/-- The deletes of a trace, in order. -/
def issued (t : List (Exchange RouteOp.Ans)) : List Argv := t.filterMap issued?

/-- The confirmed deletes of a trace, in order. -/
def confirmed (t : List (Exchange RouteOp.Ans)) : List Argv := t.filterMap confirmed?

/-- The records a trace writes, landed or not, in order. -/
def written (t : List (Exchange RouteOp.Ans)) : List RouteState := t.filterMap written?

variable {t t' : List (Exchange RouteOp.Ans)}

@[simp] theorem issued_append : issued (t ++ t') = issued t ++ issued t' := List.filterMap_append

@[simp] theorem confirmed_append : confirmed (t ++ t') = confirmed t ++ confirmed t' :=
  List.filterMap_append

@[simp] theorem written_append : written (t ++ t') = written t ++ written t' :=
  List.filterMap_append

/-- What is confirmed was issued. -/
theorem confirmed_subset_issued (t : List (Exchange RouteOp.Ans)) : confirmed t ⊆ issued t := by
  intro a ha
  obtain ⟨⟨o, x⟩, he, ha⟩ := List.mem_filterMap.1 ha
  refine List.mem_filterMap.2 ⟨⟨o, x⟩, he, ?_⟩
  cases o with
  | teardown b phase =>
    cases x with
    | ok => exact ha
    | error e => cases ha
  | _ => cases ha

theorem hasTrace_tryWrite {st : RouteState} {u : Unit} (h : (tryWrite st).HasTrace t u) :
    issued t = [] ∧ confirmed t = [] ∧ written t = [st] := by
  obtain ⟨t₁, t₂, x, rfl, h₁, h₂⟩ := Prog.hasTrace_bind.1 h
  obtain rfl := Prog.hasTrace_perform.1 h₁
  obtain ⟨rfl, -⟩ := Prog.hasTrace_pure.1 h₂
  exact ⟨rfl, rfl, rfl⟩

/-- A delete is issued once, and confirmed as it is reported. -/
theorem hasTrace_runTeardownCommand {cmd : RouteCommand} {phase : BestEffortPhase} {gone : Bool}
    (h : (runTeardownCommand cmd phase).HasTrace t gone) :
    issued t = [cmd.toArgv] ∧ confirmed t = (if gone then [cmd.toArgv] else []) ∧
      written t = [] := by
  obtain ⟨t₁, t₂, x, rfl, h₁, h₂⟩ := Prog.hasTrace_bind.1 h
  obtain rfl := Prog.hasTrace_perform.1 h₁
  rcases x with e | ⟨⟩
  · obtain ⟨rfl, rfl⟩ := Prog.hasTrace_pure.1 h₂
    exact ⟨rfl, rfl, rfl⟩
  · obtain ⟨rfl, rfl⟩ := Prog.hasTrace_pure.1 h₂
    exact ⟨rfl, rfl, rfl⟩

/-! ### What is left of a group -/

/-- The group's own delete for a route is one of `C`. -/
def RouteIdentity.DeletedBy (plat : Platform) (C : List Argv) (i : RouteIdentity) (id : RouteId) :
    Prop :=
  ∃ c ∈ buildTeardownCommands plat i, c.id = id ∧ c.toArgv ∈ C

instance (plat : Platform) (C : List Argv) (i : RouteIdentity) (id : RouteId) :
    Decidable (i.DeletedBy plat C id) :=
  inferInstanceAs (Decidable (∃ c ∈ _, _))

/-- The group without the routes that the deletes `C` take out. -/
def StaleRecord.less (plat : Platform) (C : List Argv) (g : StaleRecord) : StaleRecord :=
  { g with installed := g.installed.filter fun id ↦ ¬g.toRouteIdentity.DeletedBy plat C id }

variable {plat : Platform} {C C' : List Argv} {g : StaleRecord} {id : RouteId}

@[simp] theorem StaleRecord.less_identity :
    (g.less plat C).toRouteIdentity = g.toRouteIdentity := rfl

theorem StaleRecord.mem_less :
    id ∈ (g.less plat C).installed ↔
      id ∈ g.installed ∧ ¬g.toRouteIdentity.DeletedBy plat C id := by
  rw [less, List.mem_filter, decide_eq_true_eq]

variable {i : RouteIdentity}

theorem deletedBy_append :
    i.DeletedBy plat (C ++ C') id ↔ i.DeletedBy plat C id ∨ i.DeletedBy plat C' id := by
  simp only [RouteIdentity.DeletedBy, List.mem_append]
  constructor
  · rintro ⟨c, hc, hid, h | h⟩
    · exact .inl ⟨c, hc, hid, h⟩
    · exact .inr ⟨c, hc, hid, h⟩
  · rintro (⟨c, hc, hid, h⟩ | ⟨c, hc, hid, h⟩)
    · exact ⟨c, hc, hid, .inl h⟩
    · exact ⟨c, hc, hid, .inr h⟩

theorem not_deletedBy_nil : ¬i.DeletedBy plat [] id := by
  rintro ⟨c, -, -, h⟩
  exact List.not_mem_nil h

/-- Deletes that are taken out one after the other are taken out together. -/
theorem StaleRecord.less_less : (g.less plat C).less plat C' = g.less plat (C ++ C') := by
  have hfilter : ((g.installed.filter fun id ↦ ¬g.toRouteIdentity.DeletedBy plat C id).filter
      fun id ↦ ¬g.toRouteIdentity.DeletedBy plat C' id) =
      g.installed.filter fun id ↦ ¬g.toRouteIdentity.DeletedBy plat (C ++ C') id := by
    rw [List.filter_filter]
    refine List.filter_congr fun id _ ↦ ?_
    rw [← Bool.decide_and, decide_eq_decide, deletedBy_append, not_or, and_comm]
  exact congrArg (StaleRecord.mk g.toRouteIdentity) hfilter

theorem StaleRecord.less_nil : g.less plat [] = g := by
  have hfilter : g.installed.filter (fun id ↦ ¬g.toRouteIdentity.DeletedBy plat [] id) =
      g.installed := List.filter_eq_self.2 fun id _ ↦ decide_eq_true not_deletedBy_nil
  rw [less, hfilter]

theorem map_less_nil (gs : List StaleRecord) : gs.map (·.less plat []) = gs := by
  simp only [StaleRecord.less_nil, List.map_id']

theorem map_less_less (gs : List StaleRecord) :
    (gs.map (·.less plat C)).map (·.less plat C') = gs.map (·.less plat (C ++ C')) := by
  simp only [List.map_map, Function.comp_def, StaleRecord.less_less]

section Passes

variable {commandsOf : RouteIdentity → List RouteCommand} {cmd : RouteCommand}

/-- A confirmed delete of the family narrows every group by what it takes out. -/
theorem StaleRecord.narrow_less (hfam : Family plat commandsOf) {i : RouteIdentity}
    (hcmd : cmd ∈ commandsOf i) :
    (g.less plat C).narrow commandsOf cmd = g.less plat (C ++ [cmd.toArgv]) := by
  have hone : ∀ id, g.toRouteIdentity.DeletedBy plat [cmd.toArgv] id ↔
      cmd ∈ commandsOf g.toRouteIdentity ∧ id = cmd.id := by
    intro id
    constructor
    · rintro ⟨c, hc, rfl, hargv⟩
      obtain rfl := eq_of_argv_eq hc (hfam.mem_build hcmd) (List.mem_singleton.1 hargv)
      exact ⟨hfam.mem_of_build hc hcmd, rfl⟩
    · rintro ⟨hmem, rfl⟩
      exact ⟨cmd, hfam.mem_build hmem, rfl, List.mem_singleton_self _⟩
  rw [← less_less]
  unfold narrow
  split
  · next h =>
    refine congrArg (StaleRecord.mk g.toRouteIdentity) (List.filter_congr fun id _ ↦ ?_)
    have hmem : cmd ∈ commandsOf g.toRouteIdentity := h.2
    rw [decide_eq_decide, less_identity, hone, and_iff_right hmem]
  · next h =>
    have hall : ((g.less plat C).installed.filter fun id ↦
        ¬(g.less plat C).toRouteIdentity.DeletedBy plat [cmd.toArgv] id) =
        (g.less plat C).installed := by
      refine List.filter_eq_self.2 fun id hid ↦ decide_eq_true fun hdel ↦ ?_
      obtain ⟨hmem, rfl⟩ := (hone id).1 hdel
      exact h ⟨hid, hmem⟩
    exact (congrArg (StaleRecord.mk g.toRouteIdentity) hall).symm

/-- What holds along a pass over `gs`, after the trace `t`. -/
structure Pass (plat : Platform) (commandsOf : RouteIdentity → List RouteCommand)
    (f : List StaleRecord → RouteState) (gs : List StaleRecord)
    (acc : List StaleRecord × List Argv) (t : List (Exchange RouteOp.Ans)) : Prop where
  groups_eq : acc.1 = gs.map (·.less plat (confirmed t))
  issued_eq : acc.2 = issued t
  once : (issued t).Nodup
  /-- A delete is issued for a route that a group lists. -/
  named : ∀ a ∈ issued t, ∃ g ∈ gs, ∃ c ∈ commandsOf g.toRouteIdentity,
    c.id ∈ g.installed ∧ c.toArgv = a
  /-- What is written is what was left of the groups at some time. -/
  checkpointed : ∀ st ∈ written t, ∃ C ⊆ confirmed t, st = f (gs.map (·.less plat C))

variable {f : List StaleRecord → RouteState} {gs : List StaleRecord}
  {acc acc' : List StaleRecord × List Argv} {phase : BestEffortPhase}

/-- One delete of a pass. -/
theorem Pass.round (hfam : Family plat commandsOf) (h : Pass plat commandsOf f gs acc t)
    (hmem : ∃ g ∈ gs, cmd ∈ commandsOf g.toRouteIdentity ∧ cmd.id ∈ g.installed)
    (hnew : cmd.toArgv ∉ issued t)
    (hround : (recoverRound commandsOf phase (fun gs ↦ tryWrite (f gs)) acc cmd).HasTrace t' acc') :
    Pass plat commandsOf f gs acc' (t ++ t') ∧ issued t' = [cmd.toArgv] := by
  obtain ⟨t₁, t₂, gone, rfl, h₁, h₂⟩ := Prog.hasTrace_bind.1 hround
  obtain ⟨t₃, t₄, u, rfl, h₃, h₄⟩ := Prog.hasTrace_bind.1 h₂
  obtain ⟨rfl, rfl⟩ := Prog.hasTrace_pure.1 h₄
  obtain ⟨hi₁, hc₁, hw₁⟩ := hasTrace_runTeardownCommand h₁
  obtain ⟨hi₃, hc₃, hw₃⟩ := hasTrace_tryWrite h₃
  obtain ⟨g, hg, hcmd, hid⟩ := hmem
  have hissued : issued (t₁ ++ (t₃ ++ [])) = [cmd.toArgv] := by simp [hi₁, hi₃]
  have hconf : confirmed (t ++ (t₁ ++ (t₃ ++ []))) =
      confirmed t ++ if gone then [cmd.toArgv] else [] := by simp [hc₁, hc₃]
  have hgroups : (if gone then acc.1.map (·.narrow commandsOf cmd) else acc.1) =
      gs.map (·.less plat (confirmed (t ++ (t₁ ++ (t₃ ++ []))))) := by
    rw [hconf, h.groups_eq]
    cases gone with
    | true =>
      simp only [if_true, List.map_map, Function.comp_def, StaleRecord.narrow_less hfam hcmd]
    | false => simp only [Bool.false_eq_true, if_false, List.append_nil]
  refine ⟨⟨hgroups, ?_, ?_, ?_, ?_⟩, hissued⟩
  · rw [issued_append, hissued, ← h.issued_eq]
  · rw [issued_append, hissued]
    exact List.nodup_append.2 ⟨h.once, List.nodup_singleton _, fun a ha b hb hab ↦
      hnew (List.mem_singleton.1 hb ▸ hab ▸ ha)⟩
  · intro a ha
    rw [issued_append, hissued] at ha
    rcases List.mem_append.1 ha with ha | ha
    · exact h.named a ha
    · exact ⟨g, hg, cmd, hcmd, hid, (List.mem_singleton.1 ha).symm⟩
  · intro st hst
    have hsub : confirmed t ⊆ confirmed (t ++ (t₁ ++ (t₃ ++ []))) := by
      rw [hconf]
      exact List.subset_append_left _ _
    rw [written_append, written_append, hw₁, written_append, hw₃] at hst
    rcases List.mem_append.1 hst with hst | hst
    · obtain ⟨C, hC, hst⟩ := h.checkpointed st hst
      exact ⟨C, List.Subset.trans hC hsub, hst⟩
    · rw [List.nil_append, written, List.filterMap_nil, List.append_nil] at hst
      exact ⟨_, List.Subset.refl _, (List.mem_singleton.1 hst).trans (congrArg f hgroups)⟩

/-- The deletes of a group that it lists the routes of. -/
def Covered (commandsOf : RouteIdentity → List RouteCommand) (g : StaleRecord)
    (t : List (Exchange RouteOp.Ans)) : Prop :=
  ∀ c ∈ commandsOf g.toRouteIdentity, c.id ∈ g.installed → c.toArgv ∈ issued t

theorem Covered.append (h : Covered commandsOf g t) : Covered commandsOf g (t ++ t') := by
  intro c hc hid
  rw [issued_append]
  exact List.mem_append_left _ (h c hc hid)

/-- What a group still has to issue: what it lists, unless it was issued before. -/
theorem Pass.mem_pending (hfam : Family plat commandsOf) (h : Pass plat commandsOf f gs acc t)
    {i : Nat} (hg : gs[i]? = some g) {c : RouteCommand} :
    c ∈ pendingCommands commandsOf acc i ↔
      c ∈ commandsOf g.toRouteIdentity ∧ c.id ∈ g.installed ∧ c.toArgv ∉ issued t := by
  have hacc : acc.1[i]? = some (g.less plat (confirmed t)) := by
    rw [h.groups_eq, List.getElem?_map, hg]
    rfl
  simp only [pendingCommands, hacc, List.mem_filter, decide_eq_true_eq, StaleRecord.less_identity,
    StaleRecord.mem_less, h.issued_eq]
  constructor
  · rintro ⟨hc, ⟨hid, -⟩, hnew⟩
    exact ⟨hc, hid, hnew⟩
  · rintro ⟨hc, hid, hnew⟩
    refine ⟨hc, ⟨hid, ?_⟩, hnew⟩
    rintro ⟨c', hc', hid', hconf⟩
    obtain rfl := eq_of_id_eq hc' (hfam.mem_build hc) hid'
    exact hnew (confirmed_subset_issued t hconf)

/-- The deletes of one group. -/
theorem Pass.group (hfam : Family plat commandsOf) (h : Pass plat commandsOf f gs acc t) {i : Nat}
    (hg : gs[i]? = some g)
    (hgroup : ((pendingCommands commandsOf acc i).foldlM
      (recoverRound commandsOf phase fun gs ↦ tryWrite (f gs)) acc).HasTrace t' acc') :
    Pass plat commandsOf f gs acc' (t ++ t') ∧ Covered commandsOf g (t ++ t') := by
  have hpending := @Pass.mem_pending _ _ _ _ _ _ _ hfam h i hg
  have hdistinct : (pendingCommands commandsOf acc i).Pairwise (·.toArgv ≠ ·.toArgv) := by
    unfold pendingCommands
    split
    · exact (hfam.distinct _).filter _
    · exact .nil
  -- the deletes left are those of the group that were not issued yet
  let L (rest : List RouteCommand) (acc : List StaleRecord × List Argv)
      (u : List (Exchange RouteOp.Ans)) : Prop :=
    Pass plat commandsOf f gs acc u ∧ rest.Pairwise (·.toArgv ≠ ·.toArgv) ∧
      (∀ c ∈ rest, c ∈ commandsOf g.toRouteIdentity ∧ c.id ∈ g.installed ∧ c.toArgv ∉ issued u) ∧
      ∀ c ∈ commandsOf g.toRouteIdentity, c.id ∈ g.installed → c ∈ rest ∨ c.toArgv ∈ issued u
  have hstart : L (pendingCommands commandsOf acc i) acc t := by
    refine ⟨h, hdistinct, fun c hc ↦ hpending.1 hc, fun c hc hid ↦ ?_⟩
    by_cases hnew : c.toArgv ∈ issued t
    · exact .inr hnew
    · exact .inl (hpending.2 ⟨hc, hid, hnew⟩)
  have hend : L [] acc' (t ++ t') := by
    refine hgroup.foldlM t hstart ?_
    rintro cmd rest acc u u' acc' ⟨hpass, hdist, hleft, hall⟩ hround
    obtain ⟨hcmd, hid, hnew⟩ := hleft cmd (.head _)
    obtain ⟨hpass', hissued⟩ := hpass.round hfam ⟨g, List.mem_of_getElem? hg, hcmd, hid⟩ hnew hround
    refine ⟨hpass', hdist.of_cons, fun c hc ↦ ?_, fun c hc hcid ↦ ?_⟩
    · obtain ⟨hc', hcid, hcnew⟩ := hleft c (.tail _ hc)
      refine ⟨hc', hcid, ?_⟩
      rw [issued_append, hissued, List.mem_append, not_or, List.mem_singleton]
      exact ⟨hcnew, ((List.pairwise_cons.1 hdist).1 c hc).symm⟩
    · rw [issued_append, hissued, List.mem_append, List.mem_singleton]
      rcases hall c hc hcid with hmem | hmem
      · rcases List.mem_cons.1 hmem with rfl | hmem
        · exact .inr (.inr rfl)
        · exact .inl hmem
      · exact .inr (.inl hmem)
  refine ⟨hend.1, fun c hc hid ↦ ?_⟩
  rcases hend.2.2.2 c hc hid with hmem | hmem
  · exact absurd hmem List.not_mem_nil
  · exact hmem

/-- **One pass over the groups.** -/
theorem pass_of_hasTrace (hfam : Family plat commandsOf) {out : List StaleRecord}
    (hpass : (recoverPass commandsOf phase (fun gs ↦ tryWrite (f gs)) gs).HasTrace t out) :
    ∃ acc, Pass plat commandsOf f gs acc t ∧ acc.1 = out ∧ ∀ g ∈ gs, Covered commandsOf g t := by
  obtain ⟨t₁, t₂, ⟨left, issuedArgv⟩, rfl, h₁, h₂⟩ := Prog.hasTrace_bind.1 hpass
  obtain ⟨rfl, rfl⟩ := Prog.hasTrace_pure.1 h₂
  let L (rest : List Nat) (acc : List StaleRecord × List Argv)
      (u : List (Exchange RouteOp.Ans)) : Prop :=
    Pass plat commandsOf f gs acc u ∧ ∀ j, j ∉ rest → ∀ g, gs[j]? = some g → Covered commandsOf g u
  have hstart : L (List.range gs.length) (gs, []) [] := by
    refine ⟨⟨(map_less_nil gs).symm, rfl, List.nodup_nil, nofun, nofun⟩, fun j hj g hg ↦ ?_⟩
    obtain ⟨hlt, -⟩ := List.getElem?_eq_some_iff.1 hg
    exact absurd (List.mem_range.2 hlt) hj
  have hend : L [] (out, issuedArgv) ([] ++ t₁) := by
    refine h₁.foldlM [] hstart ?_
    rintro i rest acc u u' acc' ⟨hacc, hcovered⟩ hgroup
    rcases hi : gs[i]? with - | g
    · have hnone : acc.1[i]? = none := by
        rw [hacc.groups_eq, List.getElem?_map, hi]
        rfl
      have hnil : pendingCommands commandsOf acc i = [] := by
        rw [pendingCommands, hnone]
      rw [hnil] at hgroup
      obtain ⟨rfl, rfl⟩ := Prog.hasTrace_pure.1 hgroup
      rw [List.append_nil]
      refine ⟨hacc, fun j hj g hg ↦ hcovered j (fun hmem ↦ ?_) g hg⟩
      rcases List.mem_cons.1 hmem with rfl | hmem
      · rw [hi] at hg
        cases hg
      · exact hj hmem
    · obtain ⟨hacc', hcov⟩ := hacc.group hfam hi hgroup
      refine ⟨hacc', fun j hj g' hg' ↦ ?_⟩
      by_cases hji : j = i
      · subst hji
        obtain rfl := Option.mem_unique hi hg'
        exact hcov
      · exact (hcovered j (fun hmem ↦ hj ((List.mem_cons.1 hmem).resolve_left hji)) g' hg').append
  rw [List.nil_append] at hend
  rw [List.append_nil]
  refine ⟨_, hend.1, rfl, fun g hg ↦ ?_⟩
  obtain ⟨j, hj⟩ := List.getElem?_of_mem hg
  exact hend.2 j List.not_mem_nil g hj

end Passes

/-! ### The two passes -/

/-- The delete of a split route. -/
def IsSplitDelete (plat : Platform) (a : Argv) : Prop :=
  ∃ tunName, ∃ c ∈ buildSplitRouteTeardownCommands plat tunName, c.toArgv = a

/-- The delete of a server bypass. -/
def IsBypassDelete (plat : Platform) (a : Argv) : Prop :=
  ∃ i, ∃ c, platformBypassTeardownCommand plat i = some c ∧ c.toArgv = a

/-- What one call of `recover_groups` does with `groups`, writing `f` of a list that it hands to the
checkpoint: `t` is its trace and `out` what it returns. -/
structure Recovered (plat : Platform) (f : List StaleRecord → RouteState)
    (groups : List StaleRecord) (t : List (Exchange RouteOp.Ans)) (out : List StaleRecord) :
    Prop where
  once : (issued t).Nodup
  /-- No delete is issued that no group names. -/
  named : ∀ a ∈ issued t, Names plat groups a
  /-- The delete of every route that a group lists is issued. -/
  every : ∀ g ∈ groups, ∀ id ∈ g.installed,
    ∃ c ∈ buildTeardownCommands plat g.toRouteIdentity, c.id = id ∧ c.toArgv ∈ issued t
  /-- The split deletes come before the bypass deletes. -/
  split_first : ∃ t₁ t₂, t = t₁ ++ t₂ ∧ (∀ a ∈ issued t₁, IsSplitDelete plat a) ∧
    ∀ a ∈ issued t₂, IsBypassDelete plat a
  /-- A group keeps the routes whose own delete was not confirmed. -/
  returned : List.Forall₂ (fun g g' ↦ g'.toRouteIdentity = g.toRouteIdentity ∧
    ∀ id, id ∈ g'.installed ↔
      id ∈ g.installed ∧ ¬g.toRouteIdentity.DeletedBy plat (confirmed t) id) groups out
  /-- What is handed to the checkpoint is, group by group, no less than what is returned. -/
  checkpointed : ∀ st ∈ written t, ∃ gs, st = f gs ∧
    List.Forall₂ (fun g g' ↦ g.toRouteIdentity = g'.toRouteIdentity ∧
      g'.installed ⊆ g.installed) gs out

/-- A route that is planned for the server has a delete. -/
theorem exists_command (h : id ∈ plannedRoutes i.serverIp) :
    ∃ c ∈ buildTeardownCommands plat i, c.id = id := by
  have hsplit {id : RouteId} (h : id ∈ splitRoutes) :
      ∃ c ∈ buildTeardownCommands plat i, c.id = id := by
    rw [← map_id_split plat i.tunName] at h
    obtain ⟨c, hc, hid⟩ := List.mem_map.1 h
    exact ⟨c, List.mem_append_left _ hc, hid⟩
  unfold plannedRoutes at h
  split at h
  · exact hsplit h
  · next hloop =>
    rcases List.mem_append.1 h with h | h
    · exact hsplit h
    · obtain rfl := List.mem_singleton.1 h
      obtain ⟨c, hc⟩ : ∃ c, platformBypassTeardownCommand plat i = some c := by
        unfold platformBypassTeardownCommand
        rw [if_neg hloop]
        exact ⟨_, rfl⟩
      exact ⟨c, List.mem_append_right _ (Option.mem_toList.2 hc), (id_of_mem_bypass hc).1⟩

/-- What is left is left in any order of taking out. -/
theorem forall₂_less {gs : List StaleRecord} (hsub : C ⊆ C') :
    List.Forall₂ (fun g g' ↦ g.toRouteIdentity = g'.toRouteIdentity ∧
      g'.installed ⊆ g.installed) (gs.map (·.less plat C)) (gs.map (·.less plat C')) := by
  rw [List.forall₂_map_left_iff, List.forall₂_map_right_iff]
  refine List.forall₂_same.2 fun g _ ↦ ⟨rfl, fun id hid ↦ ?_⟩
  obtain ⟨hid, hleft⟩ := StaleRecord.mem_less.1 hid
  refine StaleRecord.mem_less.2 ⟨hid, ?_⟩
  rintro ⟨c, hc, hcid, hmem⟩
  exact hleft ⟨c, hc, hcid, hsub hmem⟩

theorem recoverGroups_out {plat : Platform} {t : List (Exchange RouteOp.Ans)}
    {f : List StaleRecord → RouteState} {groups out : List StaleRecord}
    (h : (recoverGroups plat groups fun gs ↦ tryWrite (f gs)).HasTrace t out) :
    out = groups.map (·.less plat (confirmed t)) := by
  obtain ⟨t₁, t₂, mid, rfl, h₁, h₂⟩ := Prog.hasTrace_bind.1 h
  obtain ⟨acc₁, hsplit, rfl, -⟩ := pass_of_hasTrace family_split h₁
  obtain ⟨acc₂, hbypass, rfl, -⟩ := pass_of_hasTrace family_bypass h₂
  rw [hbypass.groups_eq, hsplit.groups_eq, map_less_less, confirmed_append]

theorem lists_map_less {plat : Platform} {gs : List StaleRecord} {C : List Argv} {id : RouteId} :
    Lists (gs.map (·.less plat C)) i id ↔ Lists gs i id ∧ ¬i.DeletedBy plat C id := by
  constructor
  · rintro ⟨_, hmem, rfl, hid⟩
    obtain ⟨g, hg, rfl⟩ := List.mem_map.1 hmem
    obtain ⟨hid, hleft⟩ := StaleRecord.mem_less.1 hid
    exact ⟨⟨g, hg, rfl, hid⟩, hleft⟩
  · rintro ⟨⟨g, hg, rfl, hid⟩, hleft⟩
    exact ⟨_, List.mem_map_of_mem hg, rfl, StaleRecord.mem_less.2 ⟨hid, hleft⟩⟩

/-- **One pass of `recover_groups`**, for every outcome of every delete and every checkpoint. -/
theorem recoverGroups_spec {f : List StaleRecord → RouteState} {groups out : List StaleRecord}
    (hgroups : Canonical groups)
    (h : (recoverGroups plat groups fun gs ↦ tryWrite (f gs)).HasTrace t out) :
    Recovered plat f groups t out := by
  obtain ⟨t₁, t₂, mid, rfl, h₁, h₂⟩ := Prog.hasTrace_bind.1 h
  obtain ⟨acc₁, hsplit, rfl, hcov₁⟩ := pass_of_hasTrace family_split h₁
  obtain ⟨acc₂, hbypass, rfl, hcov₂⟩ := pass_of_hasTrace family_bypass h₂
  have hisSplit : ∀ a ∈ issued t₁, IsSplitDelete plat a := by
    intro a ha
    obtain ⟨g, -, c, hc, -, hca⟩ := hsplit.named a ha
    exact ⟨g.tunName, c, hc, hca⟩
  have hisBypass : ∀ a ∈ issued t₂, IsBypassDelete plat a := by
    intro a ha
    obtain ⟨g, -, c, hc, -, hca⟩ := hbypass.named a ha
    exact ⟨g.toRouteIdentity, c, Option.mem_toList.1 hc, hca⟩
  have hapart {a b : Argv} (ha : IsSplitDelete plat a) (hb : IsBypassDelete plat b) : a ≠ b := by
    obtain ⟨tun, c, hc, rfl⟩ := ha
    obtain ⟨i, c', hc', rfl⟩ := hb
    exact split_ne_bypass hc hc'
  have hout : acc₂.1 = groups.map (·.less plat (confirmed (t₁ ++ t₂))) := by
    rw [hbypass.groups_eq, hsplit.groups_eq, map_less_less, confirmed_append]
  refine ⟨?_, ?_, ?_, ⟨t₁, t₂, rfl, hisSplit, hisBypass⟩, ?_, ?_⟩
  · rw [issued_append]
    exact List.nodup_append.2 ⟨hsplit.once, hbypass.once, fun a ha b hb ↦
      hapart (hisSplit a ha) (hisBypass b hb)⟩
  · intro a ha
    rw [issued_append] at ha
    rcases List.mem_append.1 ha with ha | ha
    · obtain ⟨g, hg, c, hc, hid, hca⟩ := hsplit.named a ha
      exact ⟨g, hg, StaleRecord.mem_deletes.2 ⟨c, family_split.mem_build hc, hid, hca⟩⟩
    · obtain ⟨g', hg', c, hc, hid, hca⟩ := hbypass.named a ha
      rw [hsplit.groups_eq] at hg'
      obtain ⟨g, hg, rfl⟩ := List.mem_map.1 hg'
      exact ⟨g, hg, StaleRecord.mem_deletes.2
        ⟨c, family_bypass.mem_build hc, (StaleRecord.mem_less.1 hid).1, hca⟩⟩
  · intro g hg id hid
    obtain ⟨c, hc, rfl⟩ := @exists_command plat _ _ (hgroups.planned g hg id hid)
    refine ⟨c, hc, rfl, ?_⟩
    rw [issued_append]
    rcases List.mem_append.1 hc with hc' | hc'
    · exact List.mem_append_left _ (hcov₁ g hg c hc' hid)
    · -- no split delete took the bypass out of the group
      refine List.mem_append_right _ (hcov₂ (g.less plat (confirmed t₁)) ?_ c hc' ?_)
      · rw [hsplit.groups_eq]
        exact List.mem_map_of_mem hg
      · refine StaleRecord.mem_less.2 ⟨hid, ?_⟩
        rintro ⟨c', hc'', hcid, hconf⟩
        obtain rfl := eq_of_id_eq hc'' hc hcid
        exact hapart (hisSplit _ (confirmed_subset_issued t₁ hconf))
          ⟨g.toRouteIdentity, c', Option.mem_toList.1 hc', rfl⟩ rfl
  · rw [hout, List.forall₂_map_right_iff]
    exact List.forall₂_same.2 fun g _ ↦ ⟨rfl, fun id ↦ StaleRecord.mem_less⟩
  · intro st hst
    rw [written_append] at hst
    rw [hout, confirmed_append]
    rcases List.mem_append.1 hst with hst | hst
    · obtain ⟨C, hC, rfl⟩ := hsplit.checkpointed st hst
      exact ⟨_, rfl, forall₂_less (List.subset_append_of_subset_left _ hC)⟩
    · obtain ⟨C, hC, rfl⟩ := hbypass.checkpointed st hst
      refine ⟨_, rfl, ?_⟩
      rw [hsplit.groups_eq, map_less_less]
      exact forall₂_less (List.append_subset.2
        ⟨List.subset_append_left _ _, List.subset_append_of_subset_right _ hC⟩)

/-- A session to a server, on macOS. -/
def sampleIdentity (tunName : String) : RouteIdentity :=
  ⟨tunName, IpAddr.ofOctets 203 0 113 7, "en0", some (IpAddr.ofOctets 192 168 1 1), RouteForm.via⟩

/-- Two sessions to one server that crashed. -/
def crashedTwice : List StaleRecord :=
  [⟨sampleIdentity "utun3", [RouteId.splitV4Low, RouteId.serverBypass]⟩,
    ⟨sampleIdentity "utun4", [RouteId.serverBypass, RouteId.splitV4High]⟩]

/-- Every delete is confirmed but the first, and nothing is written. -/
def firstFails (n : Nat) : (o : RouteOp) → o.Ans
  | .setup _ => Except.error (.exit 1)
  | .teardown _ _ => if n = 0 then Except.error (.exit 1) else Except.ok ()
  | .read => Found.nothing
  | .write _ => Except.error (.io "")
  | .remove => Except.error (.io "")
  | .tunIpv6Available _ => false

/-- The trace of a pass over the two, and what it leaves of them. -/
def crashedPass : List (Exchange RouteOp.Ans) × List StaleRecord :=
  Prog.answered firstFails 0 (recoverGroups .macos crashedTwice fun gs ↦
    tryWrite (.ofGroups (sampleIdentity "utun4") gs))

/-- The bypass that both sessions name is deleted once, and both are narrowed by it. -/
theorem recovered_crashedTwice :
    Recovered .macos (.ofGroups (sampleIdentity "utun4")) crashedTwice crashedPass.1 crashedPass.2 ∧
      crashedPass.2.map (·.installed) = [[.splitV4Low], []] :=
  ⟨recoverGroups_spec ⟨by decide, by decide, by decide⟩ (Prog.hasTrace_answered _ _ _), by decide⟩

end Hole.Routing
