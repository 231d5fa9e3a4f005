import Hole.Service.Retire

/-!
# The record over a service that we disabled

The operations of `Hole.Service.Retire` run one at a time, under the start-type lock, against a
service whose every call may fail, and each may be cut after any single call.

`disableRecord_of_run` says what the record is good for. Whatever fails and wherever an operation is
cut, a service that Hole disabled has its record (`Recorded`). A disable with no record, which is an
administrator's, outlives every retirement, cutover and repair that can read the record
(`Administrators`). And an operation in which nothing failed leaves no record behind, and the start
type of `Leaves`.

What is put back is not always what was found. A disable with a record is what an interrupted
operation left, so the next one ends it with an automatic start, and a boot or system start, which a
service of its own process never has, also becomes automatic.
-/

namespace Hole.Service

open Effect

/-! ### The service -/

/-- The service as the SCM and the registry hold it. -/
structure Entry where
  start : StartType
  record : RecordState
  failureActions : FailureActions
  deleted : Bool
  /-- The service is disabled, and the write that disabled it was Hole's. Nothing reads this. -/
  byHole : Bool

/-- The service as the first operation finds it. Whose disable it is, the record says. -/
def Entry.found (start : StartType) (record : RecordState) (actions : FailureActions) :
    Entry :=
  ⟨start, record, actions, false, decide (start = .disabled ∧ record = .present)⟩

/-- A write of the start type. One that disables an already disabled service takes no disable
over. -/
def Entry.setStart (s : Entry) (write : StartWrite) : Entry :=
  { s with
    start := write.startType
    byHole := decide (write = .disabled) && (s.byHole || decide (s.start ≠ .disabled)) }

/-- How one call goes. -/
structure Choice where
  /-- What the call fails with. -/
  error : Option ScmError
  /-- The step at which the stop wait fails, where that is the call. -/
  step : SettleFailure
  /-- Whether the registry key of the record can be read, where that is the call. -/
  readable : Bool

/-- The answer of a call that returns nothing. -/
def Choice.outcome (c : Choice) : Except ScmError Unit :=
  match c.error with
  | some e => .error e
  | none => .ok ()

/-- What the calls answer. -/
def scmAnswer (s : Entry) (o : ScmOp) (c : Choice) : o.Ans :=
  match o with
  | .startType =>
    match c.error with
    | some e => .error e
    | none => .ok s.start
  | .recordState => if c.readable then s.record else .present
  | .settle =>
    match c.error with
    | some e => .error (c.step, e)
    | none => .ok ()
  | .delete => c.outcome
  | .change _ => c.outcome

/-- What a change leaves. -/
def Entry.after (s : Entry) : Change → Entry
  | .setStartType write => s.setStart write
  | .clearRecord => { s with record := .absent }
  | .writeRecord => { s with record := .present }
  | .setFailureActions actions => { s with failureActions := actions }
  | .swapImages => s
  | .startService => s

/-- What the calls leave. A call that fails changes nothing, but a delete that fails because the
service is marked says that someone else deleted it. -/
def scmNext (s : Entry) (o : ScmOp) (c : Choice) : Entry :=
  match o, c.error with
  | .delete, none => { s with deleted := true }
  | .delete, some .marked => { s with deleted := true }
  | .change w, none => s.after w
  | _, _ => s

/-- The SCM and the registry. -/
def scm : Env ScmOp ScmOp.Ans Entry Choice := ⟨scmAnswer, scmNext⟩

/-- The operations that are run. -/
inductive Act
  | retire (disposition : Disposition)
  | cutover
  | repair
  | enable

/-- The program of an operation, less its result. -/
def Act.body : Act → ScmM Unit
  | retire disposition => do
    let _ ← Service.retire disposition
    pure ()
  | cutover => do
    let _ ← Service.cutover
    pure ()
  | repair => do
    let _ ← Service.repair
    pure ()
  | enable => do
    let _ ← Service.enable
    pure ()

/-- The service under its operations. A crash loses nothing that either holds. -/
def scmMachine : Machine ScmOp ScmOp.Ans Entry Choice Act Unit where
  env _ := scm
  body _ a := some a.body
  finish s _ _ := s
  crash s := s

/-! ### The rules of the calls

Every result below is about runs whose choices all meet some condition `C`: any, that the record can
be read, or that nothing fails. So each call has one rule, with what `C` leaves possible as its
premises. -/

section Rules

variable {α : Type} {C : Choice → Prop} {I : Entry → Prop} {Q : α → Entry → Prop} {s : Entry}

/-- Some choice that meets `C` fails with `e`. -/
def Fails (C : Choice → Prop) (e : ScmError) : Prop := ∃ c, C c ∧ c.error = some e

theorem safe_startType {k : Except ScmError StartType → ScmM α} (h : I s)
    (hok : (k (.ok s.start)).Safe (scm.restrict C) I Q s)
    (herr : ∀ e, Fails C e → (k (.error e)).Safe (scm.restrict C) I Q s) :
    (Prog.call ScmOp.startType k).Safe (scm.restrict C) I Q s := by
  refine ⟨h, fun ⟨⟨error, step, readable⟩, hc⟩ ↦ ?_⟩
  cases error with
  | none => exact hok
  | some e => exact herr e ⟨_, hc, rfl⟩

theorem safe_recordState {k : RecordState → ScmM α} (h : I s)
    (hread : (k s.record).Safe (scm.restrict C) I Q s)
    (hunread : (∃ c, C c ∧ c.readable = false) → (k .present).Safe (scm.restrict C) I Q s) :
    (Prog.call ScmOp.recordState k).Safe (scm.restrict C) I Q s := by
  refine ⟨h, fun ⟨⟨error, step, readable⟩, hc⟩ ↦ ?_⟩
  cases readable with
  | false => exact hunread ⟨_, hc, rfl⟩
  | true => exact hread

theorem safe_settle {k : Except (SettleFailure × ScmError) Unit → ScmM α} (h : I s)
    (hok : (k (.ok ())).Safe (scm.restrict C) I Q s)
    (herr : ∀ step e, Fails C e → (k (.error (step, e))).Safe (scm.restrict C) I Q s) :
    (Prog.call ScmOp.settle k).Safe (scm.restrict C) I Q s := by
  refine ⟨h, fun ⟨⟨error, step, readable⟩, hc⟩ ↦ ?_⟩
  cases error with
  | none => exact hok
  | some e => exact herr step e ⟨_, hc, rfl⟩

variable {k : Except ScmError Unit → ScmM α}

theorem safe_change {w : Change} (h : I s)
    (hok : (k (.ok ())).Safe (scm.restrict C) I Q (s.after w))
    (herr : ∀ e, Fails C e → (k (.error e)).Safe (scm.restrict C) I Q s) :
    (Prog.call (ScmOp.change w) k).Safe (scm.restrict C) I Q s := by
  refine ⟨h, fun ⟨⟨error, step, readable⟩, hc⟩ ↦ ?_⟩
  cases error with
  | none => exact hok
  | some e => exact herr e ⟨_, hc, rfl⟩

theorem safe_delete (h : I s)
    (hok : (k (.ok ())).Safe (scm.restrict C) I Q { s with deleted := true })
    (hmarked : Fails C .marked →
      (k (.error .marked)).Safe (scm.restrict C) I Q { s with deleted := true })
    (herr : ∀ e, Fails C e → e ≠ .marked → (k (.error e)).Safe (scm.restrict C) I Q s) :
    (Prog.call ScmOp.delete k).Safe (scm.restrict C) I Q s := by
  refine ⟨h, fun ⟨⟨error, step, readable⟩, hc⟩ ↦ ?_⟩
  cases error with
  | none => exact hok
  | some e =>
    have hfails : Fails C e := ⟨_, hc, rfl⟩
    cases e with
    | marked => exact hmarked hfails
    | _ => exact herr _ hfails nofun

/-- Clearing the record may fail unseen. -/
theorem safe_clearRecord {Q : Entry → Prop} (h : I s)
    (hI : I { s with record := .absent }) (hok : Q { s with record := .absent })
    (herr : (∃ e, Fails C e) → Q s) : clearRecord.Safe (scm.restrict C) I (fun _ ↦ Q) s :=
  safe_change h ⟨hI, hok⟩ fun e he ↦ ⟨h, herr ⟨e, he⟩⟩

end Rules

/-! ### A disable of ours has its record -/

/-- A service that Hole disabled is disabled, and has its record unless it is deleted. -/
def Recorded (s : Entry) : Prop :=
  s.byHole → s.start = .disabled ∧ (s.deleted ∨ s.record = .present)

/-- No record is missed if it is cleared now. -/
def Clearable (s : Entry) : Prop := s.byHole → s.deleted

variable {s : Entry}

theorem Recorded.clear (h : Recorded s) (hs : Clearable s) :
    Recorded { s with record := .absent } :=
  fun hby ↦ ⟨(h hby).1, .inl (hs hby)⟩

theorem Recorded.write (h : Recorded s) : Recorded { s with record := .present } :=
  fun hby ↦ ⟨(h hby).1, .inr rfl⟩

/-- A disable keeps the books where there is a record, or where the service is disabled already. -/
theorem Recorded.disable (h : Recorded s) (hs : s.record = .present ∨ s.start = .disabled) :
    Recorded (s.setStart .disabled) := by
  intro hby
  refine ⟨rfl, ?_⟩
  obtain hrecord | hstart := hs
  · exact .inr hrecord
  · have hby : s.byHole = true := by simpa [Entry.setStart, hstart] using hby
    exact (h hby).2

variable {write : StartWrite}

theorem not_byHole_setStart (hto : write ≠ .disabled) : (s.setStart write).byHole = false := by
  simp [Entry.setStart, hto]

theorem clearable_setStart (hto : write ≠ .disabled) : Clearable (s.setStart write) := by
  simp [Clearable, not_byHole_setStart hto]

theorem recorded_setStart (hto : write ≠ .disabled) : Recorded (s.setStart write) := by
  simp [Recorded, not_byHole_setStart hto]

/-- A record that is absent is missed by no one. -/
theorem Recorded.clearable (h : Recorded s) (hs : s.record = .absent) : Clearable s := by
  intro hby
  simpa [hs] using (h hby).2

/-- Nor is one over a service that is not disabled. -/
theorem Recorded.clearable_of_enabled (h : Recorded s) (hs : s.start ≠ .disabled) : Clearable s :=
  fun hby ↦ absurd (h hby).1 hs

section Books

variable {C : Choice → Prop} {s : Entry}

variable {hardening : Hardening}

/-- What is put back is no disable wherever the record is then cleared. -/
theorem restored_ne_disabled (h : hardening.ours = true) : hardening.restored ≠ .disabled := by
  rcases hardening with ⟨observed, ours⟩
  cases observed <;> simp_all [Hardening.restored]

theorem safe_restoreStart (h : Recorded s) (hs : s.start = .disabled) :
    (restoreStart hardening).Safe (scm.restrict C) Recorded (fun _ _ ↦ True) s := by
  refine safe_change h ?_ fun e _ ↦ ⟨h, trivial⟩
  have hwritten : Recorded (s.setStart hardening.restored) := by
    by_cases hto : hardening.restored = .disabled
    · rw [hto]
      exact h.disable (.inr hs)
    · exact recorded_setStart hto
  show Prog.Safe _ _ (if hardening.ours then clearRecord else pure ()) _ _
  split
  · rename_i hours
    have hclear := clearable_setStart (s := s) (restored_ne_disabled hours)
    exact safe_clearRecord hwritten (hwritten.clear hclear) trivial fun _ ↦ trivial
  · exact ⟨hwritten, trivial⟩

theorem safe_restore (h : Recorded s) (hs : s.start = .disabled) :
    (restore hardening).Safe (scm.restrict C) Recorded (fun _ _ ↦ True) s :=
  safe_change h (safe_restoreStart h hs) fun _ _ ↦ safe_restoreStart h hs

/-- A hardening that says it disabled the service did. -/
def Disables (r : Except RetireError Hardened) (s : Entry) : Prop :=
  ∀ hardening, r = .ok (.disabled hardening) → s.start = .disabled

theorem safe_clearMade {made : Bool} (h : Recorded s) (hs : made = true → Clearable s) :
    (clearMade made).Safe (scm.restrict C) Recorded (fun _ _ ↦ True) s := by
  unfold clearMade
  split
  · rename_i hmade
    exact safe_clearRecord h (h.clear (hs hmade)) trivial fun _ ↦ trivial
  · exact ⟨h, trivial⟩

theorem safe_hardenFailed {write : RecordWrite} {e : ScmError} (h : Recorded s)
    (hs : write.clearsOnFailure = true → Clearable s) :
    (hardenFailed write e).Safe (scm.restrict C) Recorded Disables s := by
  have hr {s' : Entry} :
      Disables (if e.answeredAsMarked then .ok .marked else .error ⟨.harden, e⟩) s' := by
    intro hardening hr
    split at hr <;> cases hr
  exact (safe_clearMade h hs).bind fun _ s' hs' _ ↦ ⟨hs', hr⟩

theorem safe_disable {write : RecordWrite} (h : Recorded s)
    (hs : s.record = .present ∨ s.start = .disabled)
    (hclears : write.clearsOnFailure = true → Clearable s) :
    (disable hardening write).Safe (scm.restrict C) Recorded Disables s := by
  refine safe_change h ?_ fun e _ ↦ safe_hardenFailed h hclears
  have hdisabled : Recorded (s.setStart .disabled) := h.disable hs
  exact safe_change hdisabled ⟨hdisabled, fun _ _ ↦ rfl⟩ fun e _ ↦ ⟨hdisabled, fun _ _ ↦ rfl⟩

/-- What the table of `Hardening.plan` comes to: no record is written only over a service that is
disabled already, and one that is cleared on failure was not there before. -/
theorem plan_writes (observed : StartType) (record : RecordState) :
    (Hardening.plan observed record).2.writes = true ∨ observed = .disabled := by
  cases observed <;> cases record <;> simp [Hardening.plan, RecordWrite.writes]

variable {record : RecordState}

theorem plan_clears {observed : StartType}
    (h : (Hardening.plan observed record).2.clearsOnFailure = true) : record = .absent := by
  cases observed <;> cases record <;> simp_all [Hardening.plan, RecordWrite.clearsOnFailure]

theorem safe_hardenPlanned (h : Recorded s) (hrecord : record = .absent → s.record = .absent) :
    (hardenPlanned (Hardening.plan s.start record).1 (Hardening.plan s.start record).2).Safe
      (scm.restrict C) Recorded Disables s := by
  have hclears (hc : (Hardening.plan s.start record).2.clearsOnFailure = true) : Clearable s :=
    h.clearable (hrecord (plan_clears hc))
  unfold hardenPlanned
  split
  · refine safe_change h ?_ fun e _ ↦ ⟨h, nofun⟩
    exact safe_disable h.write (.inl rfl) hclears
  · rename_i hwrites
    exact safe_disable h (.inr ((plan_writes _ _).resolve_left hwrites)) hclears

theorem safe_harden (h : Recorded s) : harden.Safe (scm.restrict C) Recorded Disables s := by
  refine safe_startType h ?_ fun e _ ↦ ⟨h, fun hardening hr ↦ ?_⟩
  · exact safe_recordState h (safe_hardenPlanned h id) fun _ ↦ safe_hardenPlanned h nofun
  · split at hr <;> cases hr

theorem safe_restoreHardened {hardened : Hardened} (h : Recorded s)
    (hs : Disables (.ok hardened) s) :
    (restoreHardened hardened).Safe (scm.restrict C) Recorded (fun _ _ ↦ True) s :=
  match hardened with
  | .disabled hardening => safe_restore h (hs hardening rfl)
  | .marked => ⟨h, trivial⟩

theorem safe_deleted (h : Recorded s) (hs : s.deleted = true) :
    (deleted hardening).Safe (scm.restrict C) Recorded (fun _ _ ↦ True) s := by
  unfold deleted
  split
  · exact safe_clearRecord h (h.clear fun _ ↦ hs) trivial fun _ ↦ trivial
  · exact ⟨h, trivial⟩

theorem safe_deregister (h : Recorded s) (hs : s.start = .disabled) :
    (deregister hardening).Safe (scm.restrict C) Recorded (fun _ _ ↦ True) s := by
  have hgone : Recorded { s with deleted := true } := fun hby ↦ ⟨(h hby).1, .inl rfl⟩
  have hdone (r : Except RetireError Unit) :
      (do deleted hardening; pure r : ScmM _).Safe (scm.restrict C) Recorded (fun _ _ ↦ True)
        { s with deleted := true } :=
    (safe_deleted hgone rfl).bind fun _ _ hs' _ ↦ ⟨hs', trivial⟩
  refine safe_delete h (hdone _) (fun _ ↦ ?_) fun e _ hne ↦ ?_
  · exact hdone _
  · have hkept : e.serviceGone.any (·.deleteIsDone) = false := by
      cases e <;> first | rfl | exact absurd rfl hne
    show Prog.Safe _ _ (if e.serviceGone.any (·.deleteIsDone) then _ else _) _ _
    rw [hkept]
    exact (safe_restore h hs).bind fun _ _ hs' _ ↦ ⟨hs', trivial⟩

theorem safe_retire {disposition : Disposition} (h : Recorded s) :
    (retire disposition).Safe (scm.restrict C) Recorded (fun _ _ ↦ True) s := by
  refine (safe_harden h).bind fun r s' hs' hdisables ↦ ?_
  rcases r with e | hardening | -
  · exact ⟨hs', trivial⟩
  · have hstart : s'.start = .disabled := hdisables _ rfl
    refine safe_settle hs' ?_ fun step e _ ↦ ?_
    · cases disposition with
      | stopOnly => exact (safe_restore hs' hstart).bind fun _ _ h _ ↦ ⟨h, trivial⟩
      | deregister => exact safe_deregister hs' hstart
    · exact (safe_restore hs' hstart).bind fun _ _ h _ ↦ ⟨h, trivial⟩
  · exact safe_settle hs' ⟨hs', trivial⟩ fun _ _ _ ↦ ⟨hs', trivial⟩

theorem safe_stamp (h : Recorded s) : stamp.Safe (scm.restrict C) Recorded
      (fun made s' ↦ s' = s ∨ (made = true ∧ s' = { s with record := .present })) s :=
  safe_change h ⟨h.write, .inr ⟨rfl, rfl⟩⟩ fun _ _ ↦ ⟨h, .inl rfl⟩

/-- After a reset to an automatic start no record is missed. -/
theorem safe_clearReset {α : Type} {a : α} :
    (do clearRecord; pure a : ScmM α).Safe (scm.restrict C) Recorded (fun _ _ ↦ True)
      (s.setStart .auto) := by
  have hreset : Recorded (s.setStart .auto) := recorded_setStart nofun
  have hclear : Clearable (s.setStart .auto) := clearable_setStart nofun
  exact (safe_clearRecord (Q := fun _ ↦ True) hreset (hreset.clear hclear) trivial
    fun _ ↦ trivial).bind fun _ _ hs' _ ↦ ⟨hs', trivial⟩

theorem safe_takeStep (h : Recorded s) :
    (takeStep (RepairStep.of record s.start)).Safe (scm.restrict C) Recorded
      (fun _ _ ↦ True) s := by
  rcases hstep : RepairStep.of record s.start with - | - | - | -
  · exact ⟨h, trivial⟩
  · have hstart : s.start ≠ .disabled := by
      intro hstart
      cases record <;> simp [RepairStep.of, hstart] at hstep
    exact (safe_clearRecord (Q := fun _ ↦ True) h (h.clear (h.clearable_of_enabled hstart)) trivial
      fun _ ↦ trivial).bind fun _ _ hs' _ ↦ ⟨hs', trivial⟩
  · refine (safe_stamp h).bind fun made s' hs' _ ↦ ?_
    exact safe_change hs' safe_clearReset fun e _ ↦ ⟨hs', trivial⟩
  · exact ⟨h, trivial⟩

theorem safe_repair (h : Recorded s) :
    repair.Safe (scm.restrict C) Recorded (fun _ _ ↦ True) s := by
  refine safe_startType h ?_ fun e _ ↦ ⟨h, trivial⟩
  exact safe_recordState h (safe_takeStep h) fun _ ↦ safe_takeStep h

/-- A record that a failed `enable` clears is one that it found absent and then made. -/
theorem safe_enableOver (h : Recorded s) (hrecord : record = .absent → s.record = .absent) :
    (enableOver record).Safe (scm.restrict C) Recorded (fun _ _ ↦ True) s := by
  refine (safe_stamp h).bind fun made s' hs' hstamp ↦ ?_
  refine safe_change hs' safe_clearReset fun e _ ↦ ?_
  refine (safe_clearMade hs' fun hmade ↦ ?_).bind fun _ _ h _ ↦ ⟨h, trivial⟩
  have habsent : s.record = .absent := by
    cases record with
    | absent => exact hrecord rfl
    | present => simp [RecordWrite.over, RecordWrite.clearsOnFailure] at hmade
  have hclear : Clearable s := h.clearable habsent
  obtain rfl | ⟨-, rfl⟩ := hstamp
  · exact hclear
  · exact hclear

theorem safe_enable (h : Recorded s) :
    enable.Safe (scm.restrict C) Recorded (fun _ _ ↦ True) s :=
  safe_recordState h (safe_enableOver h id) fun _ ↦ safe_enableOver h nofun

variable {I : Entry → Prop}

theorem safe_stopAndSwap (h : I s) : stopAndSwap.Safe (scm.restrict C) I (fun _ s' ↦ s' = s) s := by
  refine safe_settle h ?_ fun _ _ _ ↦ ⟨h, rfl⟩
  exact safe_change h ⟨h, rfl⟩ fun _ _ ↦ ⟨h, rfl⟩

/-- The start of a cutover keeps what its repair does. -/
theorem safe_cutoverStart (h : repair.Safe (scm.restrict C) I (fun _ _ ↦ True) s) :
    cutoverStart.Safe (scm.restrict C) I (fun _ _ ↦ True) s := by
  refine h.bind fun r s' hs' _ ↦ ?_
  rcases r with e | step
  · exact ⟨hs', trivial⟩
  · show Prog.Safe _ _ (if step.startsService then _ else _) _ _
    split
    · exact safe_change hs' ⟨hs', trivial⟩ fun _ _ ↦ ⟨hs', trivial⟩
    · exact ⟨hs', trivial⟩

theorem safe_cutover (h : Recorded s) :
    cutover.Safe (scm.restrict C) Recorded (fun _ _ ↦ True) s := by
  refine (safe_harden h).bind fun r s' hs' hdisables ↦ ?_
  rcases r with e | hardened
  · exact ⟨hs', trivial⟩
  · refine (safe_stopAndSwap hs').bind fun swapped s'' hs'' heq ↦ ?_
    subst heq
    refine (safe_restoreHardened hs'' hdisables).bind fun _ _ h _ ↦ ?_
    split
    · exact safe_cutoverStart (safe_repair h)
    · exact ⟨h, trivial⟩

/-- What an operation keeps, it keeps when its result is dropped. -/
theorem safe_forget {α : Type} {p : ScmM α} (h : p.Safe (scm.restrict C) I (fun _ _ ↦ True) s) :
    (do let _ ← p; pure () : ScmM Unit).Safe (scm.restrict C) I (fun _ ↦ I) s :=
  h.bind fun _ _ hs' _ ↦ ⟨hs', hs'⟩

/-- Every operation keeps the books, whatever fails and wherever it is cut. -/
theorem safe_body (a : Act) (h : Recorded s) :
    a.body.Safe (scm.restrict C) Recorded (fun _ ↦ Recorded) s := by
  cases a with
  | retire disposition => exact safe_forget (safe_retire h)
  | cutover => exact safe_forget (safe_cutover h)
  | repair => exact safe_forget (safe_repair h)
  | enable => exact safe_forget (safe_enable h)

end Books

/-! ### An administrator's disable stays -/

section Administrators

variable {s : Entry}

/-- A disable with no record. -/
def Administrators (s : Entry) : Prop := s.start = .disabled ∧ s.record = .absent

/-- The record can be read. -/
def Readable (c : Choice) : Prop := c.readable = true

/-- What a hardening finds over an administrator's disable. -/
def FoundDisabled (r : Except RetireError Hardened) : Prop :=
  ∀ hardening, r = .ok (.disabled hardening) → hardening = ⟨.disabled, false⟩

theorem Administrators.disable (h : Administrators s) : Administrators (s.setStart .disabled) :=
  ⟨rfl, h.2⟩

theorem admin_restore (h : Administrators s) :
    (restore ⟨.disabled, false⟩).Safe (scm.restrict Readable) Administrators
      (fun _ _ ↦ True) s := by
  have hstart {s : Entry} (h : Administrators s) :
      (restoreStart ⟨.disabled, false⟩).Safe (scm.restrict Readable) Administrators
        (fun _ _ ↦ True) s :=
    safe_change h ⟨h.disable, trivial⟩ fun _ _ ↦ ⟨h, trivial⟩
  exact safe_change h (hstart h) fun _ _ ↦ hstart h

theorem admin_harden (h : Administrators s) :
    harden.Safe (scm.restrict Readable) Administrators (fun r _ ↦ FoundDisabled r) s := by
  have hplan : Hardening.plan s.start s.record = (⟨.disabled, false⟩, .none) := by
    rw [h.1, h.2]
    rfl
  have hfailed (e : ScmError) :
      FoundDisabled (if e.answeredAsMarked then .ok .marked else .error ⟨.harden, e⟩) := by
    intro hardening hr
    split at hr <;> cases hr
  refine safe_startType h ?_ fun e _ ↦ ⟨h, hfailed e⟩
  refine safe_recordState h ?_ fun ⟨c, hc, hunread⟩ ↦ ?_
  · show Prog.Safe _ _
      (hardenPlanned (Hardening.plan s.start s.record).1 (Hardening.plan s.start s.record).2) _ _
    rw [hplan]
    refine safe_change h ?_ fun e _ ↦ ⟨h, hfailed e⟩
    refine safe_change h.disable ⟨h.disable, ?_⟩ fun e _ ↦ ⟨h.disable, ?_⟩
    all_goals
      rintro hardening ⟨⟩
      rfl
  · exact absurd hc (by simp [Readable, hunread])

theorem admin_retire {disposition : Disposition} (h : Administrators s) :
    (retire disposition).Safe (scm.restrict Readable) Administrators (fun _ _ ↦ True) s := by
  refine (admin_harden h).bind fun r s' hs' hfound ↦ ?_
  rcases r with e | hardening | -
  · exact ⟨hs', trivial⟩
  · obtain rfl := hfound _ rfl
    have hrestore (r : Except RetireError Unit) :
        (do restore ⟨.disabled, false⟩; pure r : ScmM _).Safe (scm.restrict Readable)
          Administrators (fun _ _ ↦ True) s' :=
      (admin_restore hs').bind fun _ _ h _ ↦ ⟨h, trivial⟩
    refine safe_settle hs' ?_ fun _ _ _ ↦ hrestore _
    cases disposition with
    | stopOnly => exact hrestore _
    | deregister =>
      refine safe_delete hs' ⟨hs', trivial⟩ (fun _ ↦ ⟨hs', trivial⟩) fun e _ _ ↦ ?_
      show Prog.Safe _ _ (if e.serviceGone.any (·.deleteIsDone) then _ else _) _ _
      split
      · exact ⟨hs', trivial⟩
      · exact hrestore _
  · exact safe_settle hs' ⟨hs', trivial⟩ fun _ _ _ ↦ ⟨hs', trivial⟩

theorem admin_repair (h : Administrators s) :
    repair.Safe (scm.restrict Readable) Administrators (fun _ _ ↦ True) s := by
  refine safe_startType h ?_ fun _ _ ↦ ⟨h, trivial⟩
  refine safe_recordState h ?_ fun ⟨c, hc, hunread⟩ ↦ ?_
  · show Prog.Safe _ _ (takeStep (RepairStep.of s.record s.start)) _ _
    rw [h.1, h.2]
    exact ⟨h, trivial⟩
  · exact absurd hc (by simp [Readable, hunread])

theorem admin_cutover (h : Administrators s) :
    cutover.Safe (scm.restrict Readable) Administrators (fun _ _ ↦ True) s := by
  refine (admin_harden h).bind fun r s' hs' hfound ↦ ?_
  rcases r with e | hardened
  · exact ⟨hs', trivial⟩
  · refine (safe_stopAndSwap hs').bind fun swapped s'' hs'' heq ↦ ?_
    subst heq
    have hrestore : (restoreHardened hardened).Safe (scm.restrict Readable) Administrators
        (fun _ _ ↦ True) s'' := by
      cases hardened with
      | disabled hardening =>
        obtain rfl := hfound _ rfl
        exact admin_restore hs''
      | marked => exact ⟨hs'', trivial⟩
    refine hrestore.bind fun _ _ h _ ↦ ?_
    split
    · exact safe_cutoverStart (admin_repair h)
    · exact ⟨h, trivial⟩

/-- Every operation but the administrator's own leaves the disable alone. -/
theorem admin_body {a : Act} (ha : a ≠ .enable) (h : Administrators s) :
    a.body.Safe (scm.restrict Readable) Administrators (fun _ ↦ Administrators) s := by
  cases a with
  | retire disposition => exact safe_forget (admin_retire h)
  | cutover => exact safe_forget (admin_cutover h)
  | repair => exact safe_forget (admin_repair h)
  | enable => exact absurd rfl ha

end Administrators

/-! ### What an operation leaves when nothing fails -/

/-- The start type that a retirement or a cutover puts back: the one found, but a disable of ours
and a boot or system start become automatic. -/
def putBack : StartType → RecordState → StartType
  | .auto, _ => .auto
  | .demand, _ => .demand
  | .disabled, .absent => .disabled
  | .disabled, .present => .auto
  | .other, _ => .auto

/-- The start type that a repair leaves. -/
def repaired : StartType → RecordState → StartType
  | .disabled, .present => .auto
  | start, _ => start

/-- What a finished operation leaves. -/
def Leaves : Act → Entry → Entry → Prop
  | .retire .stopOnly, s, s' => s'.start = putBack s.start s.record ∧ s'.record = .absent
  | .retire .deregister, _, s' => s'.deleted = true ∧ s'.record = .absent
  | .cutover, s, s' => s'.start = putBack s.start s.record ∧ s'.record = .absent
  | .repair, s, s' => s'.start = repaired s.start s.record ∧ s'.record = .absent
  | .enable, _, s' => s'.start = .auto ∧ s'.record = .absent

/-- No call fails, and the record can be read. -/
def Calm (c : Choice) : Prop := c.error = none ∧ c.readable = true

section Calm

variable {α : Type} {Q : α → Entry → Prop} {s : Entry}

/-- Programs under calm choices, in which only the postcondition is of interest. -/
abbrev CalmSafe (p : ScmM α) (Q : α → Entry → Prop) (s : Entry) : Prop :=
  p.Safe (scm.restrict Calm) (fun _ ↦ True) Q s

theorem not_fails_calm {e : ScmError} : ¬ Fails Calm e := by
  rintro ⟨c, hc, he⟩
  cases hc.1.symm.trans he

theorem calm_startType {k : Except ScmError StartType → ScmM α}
    (h : CalmSafe (k (.ok s.start)) Q s) : CalmSafe (Prog.call ScmOp.startType k) Q s :=
  safe_startType trivial h fun _ he ↦ absurd he not_fails_calm

theorem calm_recordState {k : RecordState → ScmM α} (h : CalmSafe (k s.record) Q s) :
    CalmSafe (Prog.call ScmOp.recordState k) Q s :=
  safe_recordState trivial h fun hfails ↦ by
    obtain ⟨_, hc, hunread⟩ := hfails
    cases hunread.symm.trans hc.2

theorem calm_settle {k : Except (SettleFailure × ScmError) Unit → ScmM α}
    (h : CalmSafe (k (.ok ())) Q s) : CalmSafe (Prog.call ScmOp.settle k) Q s :=
  safe_settle trivial h fun _ _ he ↦ absurd he not_fails_calm

variable {k : Except ScmError Unit → ScmM α}

theorem calm_change {w : Change} (h : CalmSafe (k (.ok ())) Q (s.after w)) :
    CalmSafe (Prog.call (ScmOp.change w) k) Q s :=
  safe_change trivial h fun _ he ↦ absurd he not_fails_calm

theorem calm_delete (h : CalmSafe (k (.ok ())) Q { s with deleted := true }) :
    CalmSafe (Prog.call ScmOp.delete k) Q s :=
  safe_delete trivial h (fun he ↦ absurd he not_fails_calm) fun _ he ↦ absurd he not_fails_calm

/-- A hardening writes the record that its disable needs. -/
theorem calm_harden : CalmSafe harden (fun r s' ↦
      r = .ok (.disabled (Hardening.plan s.start s.record).1) ∧ s'.start = .disabled ∧
        s'.record = if s.start = .disabled then s.record else .present) s := by
  refine calm_startType (calm_recordState ?_)
  show CalmSafe
    (hardenPlanned (Hardening.plan s.start s.record).1 (Hardening.plan s.start s.record).2) _ s
  rcases s with ⟨start, record, actions, gone, byHole⟩
  cases start <;> cases record
  all_goals first
    | exact calm_change (calm_change (calm_change ⟨trivial, rfl, rfl, rfl⟩))
    | exact calm_change (calm_change ⟨trivial, rfl, rfl, rfl⟩)

theorem calm_restore {hardening : Hardening} :
    CalmSafe (restore hardening) (fun _ s' ↦ s'.start = hardening.restored.startType ∧
      s'.record = if hardening.ours then .absent else s.record) s := by
  refine calm_change (calm_change ?_)
  show CalmSafe (if hardening.ours then clearRecord else pure ()) _ _
  split
  · exact calm_change ⟨trivial, rfl, rfl⟩
  · exact ⟨trivial, rfl, rfl⟩

/-- What the two tables of a hardening come to together. -/
theorem restored_plan (start : StartType) (record : RecordState) :
    (Hardening.plan start record).1.restored.startType = putBack start record := by
  cases start <;> cases record <;> rfl

theorem record_restored (start : StartType) (record : RecordState) :
    (if (Hardening.plan start record).1.ours then RecordState.absent
      else if start = .disabled then record else .present) = .absent := by
  cases start <;> cases record <;> rfl

/-- Hardened and then restored: the start type of `putBack`, and no record. -/
theorem calm_restored {s' : Entry}
    (hrecord : s'.record = if s.start = .disabled then s.record else .present) :
    CalmSafe (restore (Hardening.plan s.start s.record).1)
      (fun _ t ↦ t.start = putBack s.start s.record ∧ t.record = .absent) s' := by
  refine calm_restore.mono fun _ t _ ⟨hstart, ht⟩ ↦ ⟨?_, ?_⟩
  · rw [hstart, restored_plan]
  · rw [ht, hrecord, record_restored]

theorem calm_retire {disposition : Disposition} :
    CalmSafe (retire disposition) (fun _ s' ↦ Leaves (.retire disposition) s s') s := by
  refine calm_harden.bind fun r s' _ ⟨hr, _, hrecord⟩ ↦ ?_
  subst hr
  refine calm_settle ?_
  cases disposition with
  | stopOnly => exact (calm_restored hrecord).bind fun _ _ _ h ↦ ⟨trivial, h⟩
  | deregister =>
    refine calm_delete ?_
    show CalmSafe (do deleted _; pure _) _ _
    have habsent := record_restored s.start s.record
    unfold deleted
    split
    · exact calm_change ⟨trivial, rfl, rfl⟩
    · rename_i hours
      rw [if_neg hours] at habsent
      exact ⟨trivial, rfl, hrecord.trans habsent⟩

theorem calm_repair :
    CalmSafe repair (fun _ s' ↦ s'.start = repaired s.start s.record ∧ s'.record = .absent) s := by
  refine calm_startType (calm_recordState ?_)
  show CalmSafe (takeStep (RepairStep.of s.record s.start)) _ s
  rcases s with ⟨start, record, actions, gone, byHole⟩
  cases start <;> cases record
  all_goals first
    | exact ⟨trivial, rfl, rfl⟩
    | exact calm_change ⟨trivial, rfl, rfl⟩
    | exact calm_change (calm_change (calm_change ⟨trivial, rfl, rfl⟩))

theorem calm_enable : CalmSafe enable (fun _ s' ↦ Leaves .enable s s') s :=
  calm_recordState (calm_change (calm_change (calm_change ⟨trivial, rfl, rfl⟩)))

theorem calm_cutover : CalmSafe cutover (fun _ s' ↦ Leaves .cutover s s') s := by
  refine calm_harden.bind fun r s' _ ⟨hr, _, hrecord⟩ ↦ ?_
  subst hr
  refine calm_settle (calm_change ?_)
  refine (calm_restored hrecord).bind fun _ t _ ⟨hstart, ht⟩ ↦ ?_
  refine calm_repair.bind fun r t' _ ⟨hstart', ht'⟩ ↦ ?_
  have hleaves : Leaves .cutover s t' := by
    refine ⟨?_, ht'⟩
    -- With no record left the repair changes nothing.
    rw [hstart', ht, ← hstart]
    cases t.start <;> rfl
  rcases r with e | step
  · exact ⟨trivial, hleaves⟩
  · show CalmSafe (if step.startsService then _ else _) _ _
    split
    · exact calm_change ⟨trivial, hleaves⟩
    · exact ⟨trivial, hleaves⟩

theorem calm_body (a : Act) : CalmSafe a.body (fun _ s' ↦ Leaves a s s') s := by
  cases a with
  | retire disposition => exact calm_retire.bind fun _ _ _ h ↦ ⟨trivial, h⟩
  | cutover => exact calm_cutover.bind fun _ _ _ h ↦ ⟨trivial, h⟩
  | repair => exact calm_repair.bind fun _ _ _ h ↦ ⟨trivial, h⟩
  | enable => exact calm_enable.bind fun _ _ _ h ↦ ⟨trivial, h⟩

end Calm

/-! ### Runs -/

theorem recorded_found (start : StartType) (record : RecordState) (actions : FailureActions) :
    Recorded (Entry.found start record actions) := by
  intro hby
  obtain ⟨hstart, hrecord⟩ := of_decide_eq_true hby
  exact ⟨hstart, .inr hrecord⟩

theorem recorded_step (s : Entry) (e : Act × List Choice) (h : Recorded s) :
    Recorded (scmMachine.step s e) := by
  refine Machine.step_of_safe_restrict (K := fun _ ↦ True) (J := Recorded) h (fun _ _ ↦ trivial)
    ?_ fun _ hs' ↦ hs'
  rintro p ⟨⟩
  exact safe_body e.1 h

theorem admin_step (s : Entry) (e : Act × List Choice) (h : Administrators s)
    (he : e.1 ≠ .enable ∧ ∀ c ∈ e.2, Readable c) : Administrators (scmMachine.step s e) := by
  refine Machine.step_of_safe_restrict (J := Administrators) h he.2 ?_ fun _ hs' ↦ hs'
  rintro p ⟨⟩
  exact admin_body he.1 h

/-- **What the record is good for.** From any start type and record, after any operations, each
under any failures and cut at any call:

* a service that Hole disabled has its record, or is deleted;
* a disable that was found with no record is still there, still with none, if no operation was
  the administrator's `enable` and every read of the record could be made;
* an operation that finishes with no failed call leaves what `Leaves` says, so no record, and a
  hardening on its own leaves the service disabled, with a record if it was not disabled before. -/
theorem disableRecord_of_run (start : StartType) (record : RecordState)
    (actions : FailureActions) (es : List (Act × List Choice)) :
    let found := Entry.found start record actions
    let s := scmMachine.exec found es
    (s.byHole → s.deleted ∨ s.record = .present) ∧
    (Administrators found → (∀ e ∈ es, e.1 ≠ .enable ∧ ∀ c ∈ e.2, Readable c) →
      Administrators s) ∧
    (∀ a cs, (∀ c ∈ cs, Calm c) → (a.body.run scm s cs).1 = some () →
      Leaves a s (a.body.run scm s cs).2.1) ∧
    (∀ r cs, (∀ c ∈ cs, Calm c) → (harden.run scm s cs).1 = some r →
      (harden.run scm s cs).2.1.start = .disabled ∧
        (harden.run scm s cs).2.1.record =
          if s.start = .disabled then s.record else .present) := by
  intro found s
  have hrecorded : Recorded s :=
    Machine.exec_of_step recorded_step es (recorded_found start record actions)
  refine ⟨fun hby ↦ (hrecorded hby).2, fun hadmin hes ↦ ?_, fun a cs hcs ha ↦ ?_,
    fun r cs hcs hr ↦ ?_⟩
  · exact Machine.exec_of_along admin_step hadmin (Machine.along_of_forall hes)
  · exact ((calm_body a).sound_restrict hcs).2 () ha
  · exact ((calm_harden.sound_restrict hcs).2 r hr).2

/-- A call that succeeds. -/
def succeeds : Choice := ⟨none, .observe, true⟩

/-- The read of a record that cannot be read. -/
def unreadable : Choice := ⟨none, .observe, false⟩

/-- A disable with a record is not put back, and one whose record cannot be read is taken for one
with a record. -/
theorem not_observed_of_disabled : (let s := Entry.found .disabled .present .restart
      let ended := (retire .stopOnly).run scm s (List.replicate 9 succeeds)
      ended.1 = some (.ok ()) ∧ ended.2.1.record = .absent ∧ ended.2.1.start = .auto) ∧
    (let s := Entry.found .disabled .absent .restart
      let ended := (retire .stopOnly).run scm s
        (succeeds :: unreadable :: List.replicate 7 succeeds)
      ended.1 = some (.ok ()) ∧ ended.2.1.start = .auto) :=
  ⟨⟨rfl, rfl, rfl⟩, rfl, rfl⟩

end Hole.Service
