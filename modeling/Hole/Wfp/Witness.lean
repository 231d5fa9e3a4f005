import Hole.Wfp.System

/-!
# The boot-time record is sound

A twin that was armed and that no sweep watched going is `outstanding`. The record is written at
the commit that arms the twins and cleared only by a sweep that watched every one of them go, so
**while a twin is outstanding the record says armed** (`Recorded`), across reboots, guard drops
and failed sweeps. A sweep reads the record before it deletes anything, and reports every key it
did not see removed (`reported_of_outstanding`).
-/

namespace Hole.Wfp

open Effect FailClosed
open Prog (only_perform only_pure)

variable {appId : String → Blob} {act : WfpAct} {w w' w'' : World} {α β : Type}

/-- The keys of the twins. -/
def twinGuids : List Guid := lockdownBoottimeTwins.map (·.guid)

/-- What holds in every state: a twin is outstanding only while the record says so, or is about to
be written. -/
structure Recorded (w : World) : Prop where
  /-- The record says armed, unless it was lost. -/
  armed : w.recordLost = false → ∀ g ∈ w.outstanding, w.record = some true ∨ w.unrecorded = true
  /-- Only twins are outstanding. -/
  twins : ∀ g ∈ w.outstanding, g ∈ twinGuids

/-- The record is as it was, and nothing new is outstanding. -/
structure Quiet (w w' : World) : Prop where
  record : w'.record = w.record
  unrecorded : w'.unrecorded = w.unrecorded
  lost : w'.recordLost = w.recordLost
  outstanding : ∀ g ∈ w'.outstanding, g ∈ w.outstanding

theorem Quiet.refl (w : World) : Quiet w w := ⟨rfl, rfl, rfl, fun _ h ↦ h⟩

theorem Quiet.trans (h : Quiet w w') (h' : Quiet w' w'') : Quiet w w'' where
  record := h'.record.trans h.record
  unrecorded := h'.unrecorded.trans h.unrecorded
  lost := h'.lost.trans h.lost
  outstanding g hg := h.outstanding g (h'.outstanding g hg)

theorem Recorded.quiet (h : Recorded w) (hq : Quiet w w') : Recorded w' where
  armed hlost g hg := by
    rw [hq.record, hq.unrecorded]
    exact h.armed (hq.lost ▸ hlost) g (hq.outstanding g hg)
  twins g hg := h.twins g (hq.outstanding g hg)

/-- The calls that neither arm a twin nor write the record. -/
def WfpOp.isQuiet (act : WfpAct) : WfpOp → Prop
  | .transactionCommit => act.arms = false
  | .saveWitness _ => False
  | _ => True

theorem World.setView_quiet (w : World) (s : Store) : Quiet w (w.setView s) := by
  rcases w with ⟨store, - | t, record, outstanding, unrecorded, lost, standing, stale, commits⟩
  · exact ⟨rfl, rfl, rfl, fun _ h ↦ h⟩
  · exact ⟨rfl, rfl, rfl, fun _ h ↦ h⟩

theorem World.afterDelete_quiet (w : World) (act : WfpAct) (g : Guid) (code : Code) :
    Quiet w (w.afterDelete act g code) := by
  unfold World.afterDelete
  split
  · have hset := World.setView_quiet { w with standing := w.standing && !act.releases }
      (({ w with standing := w.standing && !act.releases } : World).view.set g none)
    refine ⟨hset.record, hset.unrecorded, hset.lost, ?_⟩
    intro k hk
    revert hk
    show k ∈ (if act.sweeps = true then w.outstanding.filter (· ≠ g) else w.outstanding) → _
    split
    · exact fun hk ↦ (List.mem_filter.1 hk).1
    · exact fun hk ↦ hk
  · split
    · exact ⟨rfl, rfl, rfl, fun _ h ↦ h⟩
    · exact ⟨rfl, rfl, rfl, fun _ h ↦ h⟩

/-- **One quiet call.** -/
theorem quiet_next {o : WfpOp} (ho : o.isQuiet act) (w : World) (c : WfpChoice) :
    Quiet w (wfpNext act w o c) := by
  cases o with
  | saveWitness armed => exact absurd ho not_false
  | transactionCommit =>
    show Quiet w (if c.toCode = errorSuccess then w.commit act else w)
    have harms : act.arms = false := ho
    split
    · refine ⟨rfl, ?_, rfl, fun g hg ↦ ?_⟩
      · simp [World.commit, harms]
      · simpa [World.commit, harms] using hg
    · exact Quiet.refl w
  | transactionBegin =>
    show Quiet w
      (if c.toCode = errorSuccess then { w with txn := some w.store, stale := [] } else w)
    split
    · exact ⟨rfl, rfl, rfl, fun _ h ↦ h⟩
    · exact Quiet.refl w
  | filterDeleteByKey g => exact World.afterDelete_quiet w act g _
  | filterAdd f =>
    show Quiet w (if _ then w.setView _ else w)
    split
    · exact World.setView_quiet w _
    · exact Quiet.refl w
  | transactionAbort => exact ⟨rfl, rfl, rfl, fun _ h ↦ h⟩
  | _ => exact Quiet.refl w

/-- A program of quiet calls. -/
theorem safe_quiet {p : WfpM α} (hp : p.Only (WfpOp.isQuiet act)) (h : Recorded w) :
    p.Safe (wfpHost appId act) Recorded (fun _ w' ↦ Quiet w w') w :=
  hp.safe h Quiet.refl Quiet.trans fun _ s c ho hs ↦
    ⟨hs.quiet (quiet_next ho s c), quiet_next ho s c⟩

/-! ### Which programs are quiet -/

theorem isQuiet_of_isIdle {o : WfpOp} (h : o.isIdle) : o.isQuiet act := by
  cases o <;> trivial

theorem quiet_perform (o : WfpOp) (h : o.isQuiet act) :
    (Prog.perform o : WfpM o.Ans).Only (WfpOp.isQuiet act) :=
  only_perform h

theorem quiet_addFilter (policy : StaleKeyPolicy) (f : FilterSpec) :
    (addFilter policy f).Only (WfpOp.isQuiet act) := by
  refine only_andThen (only_filterConditions f.condition fun _ ↦ trivial) fun conditions ↦ ?_
  exact (only_perform trivial).bind fun code ↦ only_pure _

theorem quiet_addFilters (policy : StaleKeyPolicy) (fs : List FilterSpec) :
    (addFilters policy fs).Only (WfpOp.isQuiet act) := by
  induction fs with
  | nil => exact only_pure _
  | cons f fs ih => exact only_andThen (quiet_addFilter policy f) fun _ ↦ ih

theorem quiet_stageCover (spec : CoverSpec) : (stageCover spec).Only (WfpOp.isQuiet act) := by
  have hdelete : (deleteKeys spec.preDelete).Only (WfpOp.isQuiet act) :=
    only_deleteKeys fun _ _ ↦ trivial
  refine only_andThen ((only_perform trivial).bind fun _ ↦ only_pure _) fun _ ↦ ?_
  refine only_andThen (hdelete.bind fun _ ↦ only_pure _) fun _ ↦ ?_
  refine only_andThen ((only_perform trivial).bind fun _ ↦ only_pure _) fun _ ↦ ?_
  refine only_andThen ((only_perform trivial).bind fun _ ↦ only_pure _) fun _ ↦ ?_
  exact quiet_addFilters _ _

theorem quiet_installCover {spec : CoverSpec} {commit : WfpM (Except RoutingError Unit)}
    (hc : commit.Only (WfpOp.isQuiet act)) :
    (installCover spec commit).Only (WfpOp.isQuiet act) := by
  refine (only_perform trivial).bind fun (rc : Code) ↦ ?_
  rcases wfpCheck rc "FwpmEngineOpen0" with e | u
  · exact only_pure _
  refine (only_andThen (quiet_stageCover spec) fun _ ↦ hc).bind fun r ↦ ?_
  rcases r with e | u
  · refine (only_perform trivial).bind fun _ ↦ ?_
    exact (only_perform trivial).bind fun _ ↦ only_pure _
  · exact only_pure _

/-! ### The engage that arms the twins -/

/-- What holds between acts. -/
structure Settled (w : World) : Prop extends Recorded w where
  recorded : w.unrecorded = false

theorem Settled.quiet (h : Settled w) (hq : Quiet w w') : Settled w' :=
  ⟨h.toRecorded.quiet hq, hq.unrecorded.trans h.recorded⟩

theorem Recorded.commit (h : Recorded w) (harms : act.arms = true) : Recorded (w.commit act) where
  armed _ _ _ := .inr (by simp [World.commit, harms])
  twins g hg := by
    simp only [World.commit, harms, if_true] at hg
    rcases List.mem_append.1 hg with hg | hg
    · exact h.twins g hg
    · exact (List.mem_filter.1 hg).1

/-- The write at the commit settles the record, or loses it. -/
theorem Recorded.save (h : Recorded w) (c : WfpChoice) :
    Settled (wfpNext act w (.saveWitness true) c) := by
  cases c with
  | fail => exact ⟨⟨nofun, h.twins⟩, rfl⟩
  | _ => exact ⟨⟨fun _ _ _ ↦ .inl rfl, h.twins⟩, rfl⟩

/-- **A commit is recorded before anything else is done.** -/
theorem safe_commitAndRecord (harms : act.arms = true) (h : Settled w) :
    commitAndRecord.Safe (wfpHost appId act) Recorded (fun _ w' ↦ Settled w') w := by
  have hcommit := h.toRecorded.commit harms
  refine safe_andThen (safe_commitTransaction h.toRecorded hcommit) ?_ ?_
  · rintro e w₁ - rfl
    exact h
  · rintro ⟨⟩ w₁ - rfl
    have hsave (c : WfpChoice) : Settled (wfpNext act (w.commit act) (.saveWitness true) c) :=
      hcommit.save c
    exact ⟨hcommit, fun c ↦ ⟨(hsave c).toRecorded, hsave c⟩⟩

theorem safe_engageLockdown {serverIp : IpAddr} {tunLuid : BitVec 64} {appIds : List String}
    (harms : act.arms = true) (h : Settled w) :
    (engageLockdown serverIp tunLuid appIds).Safe (wfpHost appId act) Recorded
      (fun _ w' ↦ Settled w') w := by
  have hquiet {α : Type} {p : WfpM α} (hp : p.Only (WfpOp.isQuiet act)) {w : World}
      (h : Settled w) : p.Safe (wfpHost appId act) Recorded (fun _ w' ↦ Settled w') w :=
    (safe_quiet hp h.toRecorded).mono fun _ _ _ hq ↦ h.quiet hq
  refine (hquiet (quiet_perform .engineOpen trivial) h).bind fun (rc : Code) w₁ hI₁ h₁ ↦ ?_
  rcases wfpCheck rc "FwpmEngineOpen0" with e | u
  · exact ⟨hI₁, h₁⟩
  refine Prog.Safe.bind (R := fun _ w' ↦ Settled w') ?_ ?_
  · refine safe_andThen (hquiet (quiet_stageCover _) h₁) (fun _ _ _ h ↦ h) fun _ w₂ _ h₂ ↦ ?_
    refine safe_andThen (safe_commitAndRecord harms h₂) (fun _ _ _ h ↦ h) fun _ w₃ _ h₃ ↦ ?_
    exact hquiet (only_verifyBoottimeTwins fun _ ↦ isQuiet_of_isIdle) h₃
  · rintro (e | u) w₂ hI₂ h₂
    · refine (hquiet (quiet_perform .transactionAbort trivial) h₂).bind fun _ w₃ _ h₃ ↦ ?_
      refine (hquiet (quiet_perform .engineClose trivial) h₃).bind fun _ w₄ hI₄ h₄ ↦ ?_
      exact ⟨hI₄, h₄⟩
    · exact ⟨hI₂, h₂⟩

/-! ### Sweeps -/

/-- What a sweep's deletes observe: a key that is still outstanding was not seen removed. -/
theorem safe_sweepKeys {gs : List Guid} (hsweeps : act.sweeps = true) (h : Recorded w) :
    (deleteKeys gs).Safe (wfpHost appId act) Recorded
      (fun codes w' ↦ Quiet w w' ∧ codes.length = gs.length ∧
        ∀ p ∈ gs.zip codes, p.1 ∈ w'.outstanding → classifyDeleteCode p.2 ≠ .removed) w := by
  induction gs generalizing w with
  | nil => exact ⟨h, Quiet.refl w, rfl, nofun⟩
  | cons g gs ih =>
    refine ⟨h, fun c ↦ ?_⟩
    have hq : Quiet w (wfpNext act w (.filterDeleteByKey g) c) := World.afterDelete_quiet w act g _
    have hhead : g ∈ (wfpNext act w (.filterDeleteByKey g) c).outstanding →
        classifyDeleteCode (deleteCode w g c) ≠ .removed := by
      intro hg hremoved
      have hcode : deleteCode w g c = errorSuccess := classifyDeleteCode_eq_removed.1 hremoved
      have hgone : (wfpNext act w (.filterDeleteByKey g) c).outstanding =
          w.outstanding.filter (· ≠ g) := by
        show (w.afterDelete act g (deleteCode w g c)).outstanding = _
        simp [World.afterDelete, hcode, hsweeps]
      rw [hgone] at hg
      simpa using (List.mem_filter.1 hg).2
    refine (ih (h.quiet hq)).bind fun codes w' hI' ⟨hq', hlen, hrest⟩ ↦ ?_
    refine ⟨hI', hq.trans hq', congrArg (· + 1) hlen, ?_⟩
    intro p hp hout
    rcases List.mem_cons.1 hp with rfl | hp
    · exact hhead (hq'.outstanding g hout)
    · exact hrest p hp hout

theorem exists_mem_zip {κ : Type} {k : κ} {keys : List κ} {codes : List Code} (hk : k ∈ keys)
    (hlen : codes.length = keys.length) : ∃ code, (k, code) ∈ keys.zip codes := by
  induction keys generalizing codes with
  | nil => cases hk
  | cons k' keys ih =>
    rcases codes with - | ⟨code, codes⟩
    · cases hlen
    rcases List.mem_cons.1 hk with rfl | hk
    · exact ⟨code, .head _⟩
    · obtain ⟨code', hmem⟩ := ih hk (Nat.succ.inj hlen)
      exact ⟨code', .tail _ hmem⟩

/-- Observations that cover every twin: one that is still outstanding was not seen removed. -/
def CoversTwins (l : List KeyObservation) (w : World) : Prop :=
  ∀ t ∈ lockdownBoottimeTwins, ∃ o ∈ l, o.key = t.label ∧ o.lifetime = .bootTime ∧
    (t.guid ∈ w.outstanding → o.outcome ≠ .removed)

theorem coversTwins_of_codes {keys : List SweptKey} {codes : List Code}
    (hkeys : ∀ t ∈ lockdownBoottimeTwins, ⟨t.guid, t.label, .bootTime, .plain⟩ ∈ keys)
    (hlen : codes.length = keys.length)
    (hout : ∀ p ∈ (keys.map (·.guid)).zip codes, p.1 ∈ w.outstanding →
      classifyDeleteCode p.2 ≠ .removed) :
    CoversTwins (observations (keys.zip codes)) w := by
  intro t ht
  obtain ⟨code, hmem⟩ := exists_mem_zip (hkeys t ht) hlen
  refine ⟨_, List.mem_map_of_mem hmem, rfl, rfl, fun hg ↦ ?_⟩
  refine hout (t.guid, code) ?_ hg
  rw [List.zip_map_left]
  exact List.mem_map_of_mem (f := Prod.map (fun k : SweptKey ↦ k.guid) id) hmem

/-- What a sweep returns: the fold of observations that cover the twins, or a failure. -/
def Observed (o : SweepOutcome) (witness : ArmingWitness) (w : World) : Prop :=
  (∃ l, o.clearance = .fromObservations l witness ∧ CoversTwins l w) ∨
    (o.clearance = .fromObservations [] witness ∧ o.failure.isSome = true)

variable {witness : ArmingWitness}

theorem safe_disengageLockdown (hsweeps : act.sweeps = true) (h : Recorded w) :
    (disengageLockdown witness).Safe (wfpHost appId act) Recorded
      (fun o w' ↦ Quiet w w' ∧ Observed o witness w') w := by
  refine (safe_quiet (quiet_perform .engineOpen trivial) h).bind fun (rc : Code) w₁ h₁ hq₁ ↦ ?_
  split
  · refine (safe_sweepKeys hsweeps h₁).bind fun codes w₂ h₂ ⟨hq₂, hlen, hout⟩ ↦ ?_
    refine (safe_quiet (quiet_perform .engineClose trivial) h₂).bind fun _ w₃ h₃ hq₃ ↦ ?_
    refine ⟨h₃, (hq₁.trans hq₂).trans hq₃, .inl ⟨_, rfl, ?_⟩⟩
    refine coversTwins_of_codes (by decide) (by simpa [lockdownKeys] using hlen) ?_
    exact fun p hp hg ↦ hout p hp (hq₃.outstanding _ hg)
  · exact ⟨h₁, hq₁, .inr ⟨rfl, rfl⟩⟩

theorem safe_releaseAll (hsweeps : act.sweeps = true) (h : Recorded w) :
    (releaseAll witness).Safe (wfpHost appId act) Recorded
      (fun o w' ↦ Quiet w w' ∧ Observed o witness w') w := by
  have hkeys : (sweptLockdownKeys ++ sweptTransientKeys).map (·.guid) =
      lockdownKeys ++ transientKeys := List.map_append
  refine (safe_quiet (quiet_perform .engineOpen trivial) h).bind fun (rc : Code) w₁ h₁ hq₁ ↦ ?_
  split
  · refine (safe_sweepKeys hsweeps h₁).bind fun codes w₂ h₂ ⟨hq₂, hlen, hout⟩ ↦ ?_
    refine (safe_quiet (quiet_perform .subLayerDelete trivial) h₂).bind fun _ w₃ h₃ hq₃ ↦ ?_
    refine (safe_quiet (quiet_perform .providerDelete trivial) h₃).bind fun _ w₄ h₄ hq₄ ↦ ?_
    refine (safe_quiet (quiet_perform .engineClose trivial) h₄).bind fun _ w₅ h₅ hq₅ ↦ ?_
    have hq := (hq₃.trans hq₄).trans hq₅
    refine ⟨h₅, (hq₁.trans hq₂).trans hq, .inl ⟨_, rfl, ?_⟩⟩
    refine coversTwins_of_codes (by decide) (by rw [hlen, ← hkeys, List.length_map]) ?_
    rw [hkeys]
    exact fun p hp hg ↦ hout p hp (hq.outstanding _ hg)
  · exact ⟨h₁, hq₁, .inr ⟨rfl, rfl⟩⟩

/-- A sweep keeps the record right, and reports every twin it did not see removed. -/
structure Swept (w : World) (o : SweepOutcome) (w' : World) : Prop where
  settled : Settled w'
  /-- What stays outstanding is reported, unless the engine could not be reached at all. -/
  reported : w.recordLost = false → (∀ t ∈ lockdownBoottimeTwins, t.guid ∈ w'.outstanding →
      t.label ∈ o.clearance.leftoverKeys) ∨
    (o.failure.isSome = true ∧ o.clearance.bootTime = .none)

/-- A read of the record while a twin is outstanding. -/
theorem recordPossible_of_outstanding (h : Settled w) (hlost : w.recordLost = false) {g : Guid}
    (hg : g ∈ w.outstanding) (c : WfpChoice) : (w.readWitness c).recordPossible = true := by
  have hrecord : w.record = some true := by
    rcases h.armed hlost g hg with hr | hr
    · exact hr
    · rw [h.recorded] at hr
      cases hr
  rw [World.readWitness, hrecord]
  split
  · rfl
  · rfl

/-- The update a sweep leaves behind: a record is only cleared where nothing is outstanding. -/
theorem safe_applyWitness {o : SweepOutcome} (h : Settled w) (ho : Observed o witness w) :
    (applyWitness witness o.clearance.witnessUpdate).Safe (wfpHost appId act) Recorded
      (fun _ w' ↦ Settled w' ∧ w'.outstanding = w.outstanding) w := by
  unfold applyWitness
  rcases hnext : nextRecord witness o.clearance.witnessUpdate with - | - | -
  · exact ⟨h.toRecorded, h, rfl⟩
  · have hnone : ∀ g ∈ w.outstanding, False := by
      intro g hg
      obtain ⟨t, ht, rfl⟩ := List.mem_map.1 (h.twins g hg)
      rcases ho with ⟨l, hl, hcovers⟩ | ⟨hempty, -⟩
      · obtain ⟨ob, hob, -, hlife, hout⟩ := hcovers t ht
        rw [hl] at hnext
        exact hout hg (removed_of_nextRecord_false hnext hob hlife)
      · rw [hempty, nextRecord_fromObservations_nil] at hnext
        cases hnext
    have hsave (c : WfpChoice) : Settled (wfpNext act w (.saveWitness false) c) := by
      cases c <;> exact ⟨⟨fun _ g hg ↦ (hnone g hg).elim, fun g hg ↦ (hnone g hg).elim⟩, rfl⟩
    refine ⟨h.toRecorded, fun c ↦ ⟨(hsave c).toRecorded, hsave c, ?_⟩⟩
    cases c <;> rfl
  · have hsave (c : WfpChoice) : Settled (wfpNext act w (.saveWitness true) c) :=
      h.toRecorded.save c
    refine ⟨h.toRecorded, fun c ↦ ⟨(hsave c).toRecorded, hsave c, ?_⟩⟩
    cases c <;> rfl

/-- **A sweep reports what it did not see removed.** -/
theorem safe_sweepWithWitness {sweep : ArmingWitness → WfpM SweepOutcome}
    (hsweep : ∀ witness w, Recorded w → (sweep witness).Safe (wfpHost appId act) Recorded
      (fun o w' ↦ Quiet w w' ∧ Observed o witness w') w) (h : Settled w) :
    (sweepWithWitness sweep).Safe (wfpHost appId act) Recorded (fun o w' ↦ Swept w o w') w := by
  refine ⟨h.toRecorded, fun c ↦ ?_⟩
  refine (hsweep _ w h.toRecorded).bind fun o w₁ _ ⟨hq, ho⟩ ↦ ?_
  refine (safe_applyWitness (h.quiet hq) ho).bind fun _ w₂ h₂ ⟨hs, hout⟩ ↦ ?_
  refine ⟨h₂, hs, fun hlost ↦ ?_⟩
  rcases ho with ⟨l, hl, hcovers⟩ | ⟨hempty, hfailed⟩
  · refine .inl fun t ht hg ↦ ?_
    rw [hout] at hg
    obtain ⟨ob, hob, hkey, hlife, hremoved⟩ := hcovers t ht
    have hproves : ob.provesEmpty = false := by
      rw [Bool.eq_false_iff]
      exact fun hp ↦ hremoved hg ((provesEmpty_bootTime hlife).1 hp)
    have hpossible : (w.readWitness c).recordPossible = true :=
      recordPossible_of_outstanding h hlost (hq.outstanding _ hg) c
    rw [hl, ← hkey]
    exact mem_leftoverKeys hpossible hob hproves
  · exact .inr ⟨hfailed, by rw [hempty]; rfl⟩

/-! ### Runs -/

/-- The sweep that an act runs under `sweepWithWitness`. -/
def WfpAct.sweep : WfpAct → Option (ArmingWitness → WfpM SweepOutcome)
  | disengageLockdown => some Wfp.disengageLockdown
  | releaseAll => some Wfp.releaseAll
  | _ => none

theorem safe_sweep (act : WfpAct) {sweep : ArmingWitness → WfpM SweepOutcome}
    (hact : act.sweep = some sweep) (h : Settled w) :
    (sweepWithWitness sweep).Safe (wfpHost appId act) Recorded (fun o w' ↦ Swept w o w') w := by
  refine safe_sweepWithWitness (fun witness w₁ h₁ ↦ ?_) h
  cases act with
  | disengageLockdown =>
    cases hact
    exact safe_disengageLockdown rfl h₁
  | releaseAll =>
    cases hact
    exact safe_releaseAll rfl h₁
  | _ => cases hact

theorem settled_start : Settled World.start := ⟨⟨nofun, nofun⟩, rfl⟩

theorem Recorded.crash (h : Recorded w) : Settled w.crash where
  armed hlost g hg := by
    obtain ⟨hlost, hun⟩ : w.recordLost = false ∧ w.unrecorded = false :=
      Bool.or_eq_false_iff.1 hlost
    rcases h.armed hlost g hg with hr | hr
    · exact .inl hr
    · rw [hun] at hr
      cases hr
  twins := h.twins
  recorded := rfl

/-- **One act** keeps the record right, wherever it is cut. -/
theorem settled_step {e : WfpAct × List WfpChoice} (h : Settled w) :
    Settled ((wfpMachine appId).step w e) := by
  refine Machine.step_of_safe (J := Recorded) h ?_ fun w' h' ↦ h'.crash
  intro p hp
  obtain ⟨act, cs⟩ := e
  have hquiet {p : WfpM Unit} (hp : p.Only (WfpOp.isQuiet act)) :
      p.Safe (wfpHost appId act) Recorded (fun _ w' ↦ Settled w') w :=
    (safe_quiet hp h.toRecorded).mono fun _ _ _ hq ↦ h.quiet hq
  cases act with
  | engage serverIp resolverIp =>
    cases hp
    have hcommit : commitTransaction.Only (WfpOp.isQuiet (.engage serverIp resolverIp)) :=
      ⟨rfl, fun _ ↦ trivial⟩
    exact hquiet ((quiet_installCover hcommit).bind fun _ ↦ only_pure _)
  | engageLockdown serverIp tunLuid appIds =>
    by_cases hlen : appIds.length ≤ maxAppidBinaries
    · obtain rfl := Option.some.inj ((if_pos hlen).symm.trans hp)
      exact (safe_engageLockdown rfl h).bind fun _ w' h' hs ↦ ⟨h', hs⟩
    · cases (if_neg hlen).symm.trans hp
  | dropCover kind =>
    cases hp
    exact hquiet (only_dropCover (fun _ ↦ isQuiet_of_isIdle) fun _ _ ↦ trivial)
  | detach =>
    cases hp
    exact hquiet ((quiet_perform .engineClose trivial).bind fun _ ↦ only_pure _)
  | recoverCover =>
    cases hp
    exact hquiet (only_recoverCover (fun _ ↦ isQuiet_of_isIdle) fun _ _ ↦ trivial)
  | disengageLockdown =>
    cases hp
    exact (safe_sweep .disengageLockdown rfl h).bind fun _ w' h' hs ↦ ⟨h', hs.settled⟩
  | releaseAll =>
    cases hp
    exact (safe_sweep .releaseAll rfl h).bind fun _ w' h' hs ↦ ⟨h', hs.settled⟩
  | reclaimStaleTunPermit tunName =>
    cases hp
    exact hquiet (only_reclaimStaleTunPermit (fun _ ↦ isQuiet_of_isIdle) fun _ _ ↦ trivial)
  | reboot gone =>
    cases hp
    have hcrash := h.toRecorded.crash
    exact ⟨h.toRecorded, ⟨⟨hcrash.armed, hcrash.twins⟩, rfl⟩⟩
  | crash =>
    cases hp
    exact ⟨h.toRecorded, h.toRecorded.crash⟩

/-- **The boot-time witness is sound**: after every run that lost no write of the record, a sweep
that does not see an outstanding twin removed reports its key, or fails without having reached the
engine; a sweep that returns a clearance always reports it. -/
theorem reported_of_outstanding (appId : String → Blob) (es : List (WfpAct × List WfpChoice))
    (hlost : ((wfpMachine appId).exec World.start es).recordLost = false) (act : WfpAct)
    (sweep : ArmingWitness → WfpM SweepOutcome) (hsweep : act.sweep = some sweep)
    (cs rest : List WfpChoice) (o : SweepOutcome) (w' : World)
    (hrun : (sweepWithWitness sweep).run (wfpHost appId act)
      ((wfpMachine appId).exec World.start es) cs = (some o, w', rest))
    (t : BootTimeTwin) (ht : t ∈ lockdownBoottimeTwins) (hout : t.guid ∈ w'.outstanding) :
    (t.label ∈ o.clearance.leftoverKeys ∨
      (o.failure.isSome = true ∧ o.clearance.bootTime = .none)) ∧
    ∀ c, o.intoResult = .ok c → t.label ∈ c.leftoverKeys := by
  have hsettled : Settled ((wfpMachine appId).exec World.start es) :=
    Machine.exec_of_step (fun _ _ h ↦ settled_step h) es settled_start
  have hswept : Swept ((wfpMachine appId).exec World.start es) o w' := by
    have hsound := ((safe_sweep act hsweep hsettled).sound cs).2 o (by rw [hrun])
    rwa [hrun] at hsound
  rcases hswept.reported hlost with hreported | ⟨hfailed, hnone⟩
  · have hlabel := hreported t ht hout
    refine ⟨.inl hlabel, fun c hc ↦ ?_⟩
    rcases o with ⟨clearance, - | e⟩
    · cases hc
      exact hlabel
    · cases hc
  · refine ⟨.inr ⟨hfailed, hnone⟩, fun c hc ↦ ?_⟩
    rcases o with ⟨clearance, - | e⟩
    · cases hfailed
    · cases hc

/-- An engage, and a reboot after which the twins no longer answer. -/
def armedAndRebooted : List (WfpAct × List WfpChoice) :=
  [(.engageLockdown (.v4 0xcb007107#32) 7#64 ["hole.exe"], List.replicate 50 .ok),
    (.reboot twinGuids, [])]

/-- The sweep of the next boot, every call of which works. -/
def sweptNextBoot : Option SweepOutcome × World × List WfpChoice :=
  (sweepWithWitness disengageLockdown).run (wfpHost id .disengageLockdown)
    ((wfpMachine id).exec World.start armedAndRebooted) (List.replicate 25 .ok)

/-- The sweep finds the persistent pair and removes it, and reports both twins. -/
theorem reported_next_boot :
    sweptNextBoot.1.any (·.failure.isNone) = true ∧
      ∀ o ∈ sweptNextBoot.1, ∀ t ∈ lockdownBoottimeTwins, t.label ∈ o.clearance.leftoverKeys := by
  refine ⟨by decide +kernel, fun o ho t ht ↦ ?_⟩
  have hrun : sweptNextBoot = (some o, sweptNextBoot.2.1, sweptNextBoot.2.2) := by rw [← ho]
  have hout : ∀ t ∈ lockdownBoottimeTwins, t.guid ∈ sweptNextBoot.2.1.outstanding := by
    decide +kernel
  have hreached : ∀ o ∈ sweptNextBoot.1, o.clearance.bootTime ≠ .none := by decide +kernel
  have hreport := reported_of_outstanding id armedAndRebooted (by decide)
    .disengageLockdown disengageLockdown rfl _ _ o _ hrun t ht (hout t ht)
  exact hreport.1.resolve_right fun h ↦ hreached o ho h.2

end Hole.Wfp
