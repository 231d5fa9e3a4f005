import Hole.Bridge.StopProgress

/-!
# Reports are ordered and none is lost

Every run of `stopThreads` is `OrderedComplete`. What a control's report came to is followed through
the places it can be at (`Stage`): with its control, which still holds the report lock, in the slot,
with the call that took it, and in the log. A step moves it to the next place, and only a task that
is there can take the step.

An `enter` that begins after the report waits for the lock until what the report came to is in the
slot, so it cannot miss it there. `log_stop_control` does not wait, hence the later point in
`LogsAfter`.
-/

namespace Hole.Bridge.ServiceStop

open Effect
open Function (update update_of_ne update_self)

/-! ### How far a call has come -/

/-- The operation that a call makes next, with what it knows. -/
inductive Pc
  | start (call : Call)
  | locking (phase : StopPhase)
  | trying
  | holding (call : Call) (phase : StopPhase)
  | setting (call : Call) (phase : StopPhase)
  | reporting (call : Call) (phase : StopPhase)
  | leaving (phase : StopPhase) (outcome : Option ReportEnd)
  | storing (outcome : StopControl) (locked : Bool)
  | releasing
  | taking (call : Call) (line : Option Bool)
  | logging (call : Call) (outcome : StopControl) (line : Option Bool)
  | lining (phase : StopPhase) (ok : Bool)
  | signalling
  | done (call : Call) (how : Ended)

namespace Pc

/-- The next operation. -/
def op : Pc → Option ProgressOp
  | start call => some (.begin call)
  | locking _ => some .lockLast
  | trying => some .tryLockLast
  | holding _ _ => some .getLast
  | setting _ phase => some (.setLast phase)
  | reporting call phase => some (.report call phase)
  | leaving _ outcome => some (.dropLast (outcome = some .panicked))
  | storing outcome _ => some (.store outcome)
  | releasing => some (.dropLast false)
  | taking _ _ => some .take
  | logging _ outcome _ => some (.logControl outcome)
  | lining phase ok => some (.logReported phase ok)
  | signalling => some .signal
  | done _ _ => none

/-- After the beginning. -/
def first : Call → Pc
  | .control => trying
  | .enter phase => locking phase
  | .logStopControl => taking .logStopControl none

/-- After the report, or without one. -/
def decided (outcome : Option ReportEnd) : Call → Pc
  | .control => storing (.of outcome) true
  | .enter phase => leaving phase outcome
  | .logStopControl => done .logStopControl .returned

/-- After the guard of an `enter` was dropped. -/
def left (phase : StopPhase) : Option ReportEnd → Pc
  | some .panicked => done (.enter phase) .unwound
  | some (.returned ok) => taking (.enter phase) (some ok)
  | none => taking (.enter phase) none

/-- After the line of a control. -/
def logged : Call → Option Bool → Pc
  | .enter phase, some ok => lining phase ok
  | call, _ => done call .returned

/-- After what was in the slot. -/
def took (call : Call) (line : Option Bool) : Option StopControl → Pc
  | some outcome => logging call outcome line
  | none => logged call line

/-- After the attempt for the report lock. -/
def tried : TryLock → Pc
  | .ok => holding .control .stopRequested
  | .poisoned => holding .control .stopRequested
  | .wouldBlock => storing .superseded false

/-- The state after an operation. -/
def after : Pc → (o : ProgressOp) → o.Ans → Pc
  | start call, .begin _, _ => first call
  | locking phase, .lockLast, _ => holding (.enter phase) phase
  | trying, .tryLockLast, lock => tried lock
  | holding call phase, .getLast, last =>
    if last.any (·.reaches phase) then decided none call else setting call phase
  | setting call phase, .setLast _, _ => reporting call phase
  | reporting call _, .report _ _, how => decided (some how) call
  | leaving phase outcome, .dropLast _, _ => left phase outcome
  | storing _ locked, .store _, _ => if locked then releasing else signalling
  | releasing, .dropLast _, _ => signalling
  | taking call line, .take, found => took call line found
  | logging call _ line, .logControl _, _ => logged call line
  | lining phase _, .logReported _ _, _ => done (.enter phase) .returned
  | signalling, .signal, _ => done .control .returned
  | pc, _, _ => pc

end Pc

/-- The calls follow the automaton. -/
def stopProtocol : Protocol ProgressOp ProgressOp.Ans Call Ended Pc where
  enter := .start
  allows pc o := pc.op = some o
  after := Pc.after
  leaves pc how := ∃ call, pc = .done call how

theorem reportIfAdvancing_follows {α : Type} {call : Call} {phase : StopPhase}
    {f : Option ReportEnd → ProgressM α} {Q : α → Pc → Prop}
    (h : ∀ outcome, (f outcome).Follows stopProtocol Q (.decided outcome call)) :
    (reportIfAdvancing call phase >>= f).Follows stopProtocol Q (.holding call phase) := by
  refine Prog.follows_bind.2 ⟨rfl, fun (last : Option StopPhase) ↦ ?_⟩
  show (if last.any (·.reaches phase) then _ else _ : ProgressM (Option ReportEnd)).Follows
    stopProtocol _ (if last.any (·.reaches phase) then _ else _)
  split
  · exact h none
  · exact ⟨rfl, fun _ ↦ ⟨rfl, fun (how : ReportEnd) ↦ h (some how)⟩⟩

theorem logStopControl_follows {α : Type} {call : Call} {line : Option Bool}
    {f : Unit → ProgressM α}
    {Q : α → Pc → Prop} (h : (f ()).Follows stopProtocol Q (.logged call line)) :
    (logStopControl >>= f).Follows stopProtocol Q (.taking call line) := by
  refine Prog.follows_bind.2 ⟨rfl, fun (found : Option StopControl) ↦ ?_⟩
  cases found with
  | none => exact h
  | some outcome => exact ⟨rfl, fun _ ↦ h⟩

theorem reportAndStore_follows : reportAndStore.Follows stopProtocol (fun _ pc ↦ pc = .signalling)
      (.holding .control .stopRequested) :=
  reportIfAdvancing_follows fun _ ↦ ⟨rfl, fun _ ↦ ⟨rfl, fun _ ↦ rfl⟩⟩

theorem stopControl_follows : stopControl.Obeys stopProtocol .trying := by
  have hreport : reportStopControl.Follows stopProtocol (fun _ pc ↦ pc = .signalling) .trying := by
    refine ⟨rfl, fun (lock : TryLock) ↦ ?_⟩
    cases lock with
    | ok => exact reportAndStore_follows
    | poisoned => exact reportAndStore_follows
    | wouldBlock => exact ⟨rfl, fun _ ↦ rfl⟩
  refine hreport.bind fun _ pc hpc ↦ ?_
  subst hpc
  exact ⟨rfl, fun _ ↦ ⟨.control, rfl⟩⟩

theorem enter_follows (phase : StopPhase) : (enter phase).Obeys stopProtocol (.locking phase) := by
  refine ⟨rfl, fun _ ↦ reportIfAdvancing_follows fun outcome ↦ ?_⟩
  rcases outcome with - | ok | -
  · exact ⟨rfl, fun _ ↦ logStopControl_follows ⟨.enter phase, rfl⟩⟩
  · exact ⟨rfl, fun _ ↦ logStopControl_follows ⟨rfl, fun _ ↦ ⟨.enter phase, rfl⟩⟩⟩
  · exact ⟨rfl, fun _ ↦ ⟨.enter phase, rfl⟩⟩

theorem body_follows (call : Call) : call.body.Obeys stopProtocol (.start call) := by
  refine ⟨rfl, fun _ ↦ ?_⟩
  cases call with
  | control => exact stopControl_follows
  | enter phase => exact enter_follows phase
  | logStopControl => exact logStopControl_follows ⟨.logStopControl, rfl⟩

/-! ### Where the report of a control is -/

/-- The report is with its control `i`, in the slot, with the task `j` that took it, or logged. -/
inductive Stage
  | quiet
  | held (i : Nat) (outcome : StopControl)
  | slot (i : Nat) (outcome : StopControl)
  | taken (j : Nat) (outcome : StopControl)
  | logged (outcome : StopControl)

/-- What a report of a control came to. -/
def ProgressEvent.report : ProgressEvent → Option StopControl
  | reports _ .control _ how => some (.of (some how))
  | _ => none

/-- The report that is stored. -/
def ProgressEvent.stored : ProgressEvent → Option StopControl
  | stores _ _ outcome => if outcome.isReport then some outcome else none
  | _ => none

/-- No report of a control moves on. -/
structure ProgressEvent.Neutral (e : ProgressEvent) : Prop where
  report : e.report = none
  stored : e.stored = none
  line : e.line = none

namespace Pc

/-- Before the report lock, or a call that does not wait for it. -/
def beforeLock : Pc → Bool
  | start _ => true
  | locking _ => true
  | _ => false

/-- Before the slot, or on the way out of a panic, or a control. -/
def untaken : Pc → Bool
  | logging _ _ _ => false
  | lining _ _ => false
  | done .control _ => true
  | done _ .returned => false
  | _ => true

/-- The call has a report of a control. -/
def carries : Pc → Bool
  | storing outcome _ => outcome.isReport
  | logging _ outcome _ => outcome.isReport
  | _ => false

end Pc

/-- The calls and where they are. -/
abbrev Calls := Nat → Option (Call × Pc)

/-- The call of task `j`, if it began in `newer`, is at a `P`, and did not return. -/
def Behind (P : Pc → Bool) (φ : Calls) (newer : List ProgressEvent) (j : Nat)
    (call : Call) : Prop :=
  (.begins j call ∈ newer → ∀ pc, φ j = some (call, pc) → P pc) ∧ ¬RunsIn j call newer

/-- The report of control `i` is the only one of a control, and `newer` followed it. -/
def Only (newer older log : List ProgressEvent) (i : Nat) (outcome : StopControl) : Prop :=
  ∃ how, outcome = .of (some how) ∧ Sole (fun e ↦ e.report.isSome) newer
    (.reports i .control .stopRequested how) older log

/-- The report is where the stage says. -/
def Stage.At (s : Progress) (φ : Calls) : Stage → Prop
  | .quiet => ∀ e ∈ s.log, e.report = none ∧ e.stored = none ∧ e.line = none
  | .held i outcome => ∃ newer older, Only newer older s.log i outcome ∧
      (∀ e ∈ s.log, e.stored = none ∧ e.line = none) ∧
      φ i = some (.control, .storing outcome true) ∧ s.holder = some i ∧
      ∀ j phase, Behind Pc.beforeLock φ newer j (.enter phase)
  | .slot i outcome => ∃ newer older newest held mid, Only newer older s.log i outcome ∧
      Sole (fun e ↦ e.stored.isSome) newest (.stores i held outcome) mid newer ∧
      (∀ e ∈ s.log, e.line = none) ∧ s.stopControl = some outcome ∧
      (∀ j phase, Behind Pc.untaken φ newer j (.enter phase)) ∧
      ∀ j, Behind Pc.untaken φ newest j .logStopControl
  | .taken j outcome => (∀ e ∈ s.log, ∀ o, e.report = some o → o = outcome) ∧
      (∀ e ∈ s.log, e.line = none) ∧ outcome.isReport ∧
      ∃ k call line, φ j = some (k, .logging call outcome line)
  | .logged outcome => (∀ e ∈ s.log, ∀ o, e.report = some o → o = outcome) ∧
      controlLines s.log = [outcome]

/-- The checkpoints reported so far. -/
def checkpoints (log : List ProgressEvent) : List Nat := log.filterMap ProgressEvent.checkpoint

/-- Task `i` holds the report lock to report a phase. -/
structure Locked (s : Progress) (i : Nat) (k call : Call) (phase : StopPhase) : Prop where
  kind : k = call
  reports : call ≠ .logStopControl
  first : call = .control → phase = .stopRequested
  holder : s.holder = some i

/-- What a call knows where it is. -/
def Knows (s : Progress) (stage : Stage) (i : Nat) (k : Call) : Pc → Prop
  | .start call => k = call
  | .locking phase => k = .enter phase
  | .trying => k = .control
  | .holding call phase => Locked s i k call phase
  | .setting call phase => Locked s i k call phase ∧
      ∀ last, s.last = some last → last.checkpoint < phase.checkpoint
  | .reporting call phase => Locked s i k call phase ∧ s.last = some phase ∧
      (∀ c ∈ checkpoints s.log, c < phase.checkpoint) ∧ (call = .control → stage = .quiet)
  | .leaving phase _ => k = .enter phase ∧ s.holder = some i
  | .storing outcome locked => k = .control ∧ (locked → s.holder = some i) ∧
      (outcome.isReport → locked ∧ stage = .held i outcome)
  | .releasing => k = .control ∧ s.holder = some i
  | .taking call _ => k = call ∧ call ≠ .control
  | .logging call outcome _ => k = call ∧ call ≠ .control ∧
      (outcome.isReport → stage = .taken i outcome)
  | .lining phase _ => k = .enter phase
  | .signalling => k = .control
  | .done call how => k = call ∧ (call = .control → how = .returned ∧ ∃ j, .signals j ∈ s.log)

/-- What an event needs before it. -/
def Due (older : List ProgressEvent) : ProgressEvent → Prop
  | .ends _ .control how => how = .returned ∧ ∃ j, .signals j ∈ older
  | .stores _ held outcome => ∀ held' ∈ held, ¬(held'.isReport ∧ outcome.isReport)
  | _ => True

/-- What holds in every state of a run. -/
structure ProgressInv (s : Progress) (φ : Calls) (stage : Stage) : Prop where
  calls : ∀ i k pc, φ i = some (k, pc) → Knows s stage i k pc
  located : stage.At s φ
  last : stage ≠ .quiet → s.last.isSome
  reported : ∀ c ∈ checkpoints s.log, ∃ last, s.last = some last ∧ c ≤ last.checkpoint
  ordered : (checkpoints s.log).Pairwise (· > ·)
  signalled : s.shutdownTx = false → ∃ j, .signals j ∈ s.log
  due : Justified Due s.log
  slot : ∀ outcome, s.stopControl = some outcome → outcome.isReport → ∃ i, stage = .slot i outcome

section Frames

variable {s s' : Progress} {φ : Calls} {stage stage' : Stage} {i j : Nat} {k call : Call}
  {pc pc' : Pc} {newer : List ProgressEvent}

/-- What a step of another task may do to what a call knows. -/
structure Others (s s' : Progress) (stage stage' : Stage) (j : Nat) : Prop where
  log : s.log ⊆ s'.log
  locked : s.holder = some j → s'.holder = some j ∧ s'.last = s.last ∧
    checkpoints s'.log = checkpoints s.log ∧ (stage = .quiet → stage' = .quiet)
  held : ∀ outcome, stage = .held j outcome → stage' = .held j outcome
  taken : ∀ outcome, stage = .taken j outcome → stage' = .taken j outcome

theorem Locked.frame {phase : StopPhase} (h : Locked s j k call phase)
    (hstep : Others s s' stage stage' j) : Locked s' j k call phase :=
  ⟨h.kind, h.reports, h.first, (hstep.locked h.holder).1⟩

theorem Knows.frame (h : Knows s stage j k pc) (hstep : Others s s' stage stage' j) :
    Knows s' stage' j k pc := by
  cases pc with
  | holding call phase => exact Locked.frame h hstep
  | setting call phase =>
    obtain ⟨hlocked, hlast⟩ := h
    exact ⟨hlocked.frame hstep, (hstep.locked hlocked.holder).2.1 ▸ hlast⟩
  | reporting call phase =>
    obtain ⟨hlocked, hlast, hreported, hquiet⟩ := h
    obtain ⟨-, hlast', hcheckpoints, hquiet'⟩ := hstep.locked hlocked.holder
    exact ⟨hlocked.frame hstep, hlast' ▸ hlast, hcheckpoints ▸ hreported, hquiet' ∘ hquiet⟩
  | leaving phase outcome => exact ⟨h.1, (hstep.locked h.2).1⟩
  | storing outcome locked =>
    obtain ⟨hkind, hholder, hreport⟩ := h
    exact ⟨hkind, fun hlocked ↦ (hstep.locked (hholder hlocked)).1,
      fun hisReport ↦ (hreport hisReport).imp_right (hstep.held outcome)⟩
  | releasing => exact ⟨h.1, (hstep.locked h.2).1⟩
  | logging call outcome line =>
    exact ⟨h.1, h.2.1, fun hisReport ↦ hstep.taken outcome (h.2.2 hisReport)⟩
  | done call how =>
    exact ⟨h.1, fun hcontrol ↦ (h.2 hcontrol).imp_right fun ⟨j, hj⟩ ↦ ⟨j, hstep.log hj⟩⟩
  | _ => exact h

variable {e : ProgressEvent}

theorem Only.cons {newer older log : List ProgressEvent} {outcome : StopControl}
    (h : Only newer older log i outcome) (he : e.report = none) :
    Only (e :: newer) older (e :: log) i outcome := by
  obtain ⟨how, houtcome, hsole⟩ := h
  exact ⟨how, houtcome, hsole.cons (by simp [he])⟩

variable {x : Option (Call × Pc)}

/-- One more event, with what it does to task `i`. -/
theorem Behind.cons {P : Pc → Bool} (h : Behind P φ newer j call)
    (hown : ∀ pc', x = some (call, pc') → ∃ pc, φ i = some (call, pc) ∧ (P pc → P pc'))
    (hbegin : e = .begins j call → j = i ∧ ∀ pc', x = some (call, pc') → P pc')
    (hends : e = .ends j call .returned → ∃ pc, φ j = some (call, pc) ∧ P pc = false) :
    Behind P (update φ i x) (e :: newer) j call := by
  constructor
  · intro hmem pc' hpc'
    obtain hbegins | hmem := List.mem_cons.1 hmem
    · obtain ⟨rfl, hP⟩ := hbegin hbegins.symm
      exact hP pc' (by simpa using hpc')
    · rcases eq_or_ne j i with rfl | hne
      · obtain ⟨pc, hpc, hP⟩ := hown pc' (by simpa using hpc')
        exact hP (h.1 hmem pc hpc)
      · exact h.1 hmem pc' (by rwa [update_of_ne hne] at hpc')
  · rintro (hruns | ⟨hreturned, hmem⟩)
    · exact h.2 hruns
    · obtain ⟨pc, hpc, hP⟩ := hends hreturned
      rw [h.1 hmem pc hpc] at hP
      cases hP

/-- A step of task `i` from `pc` that moves no report of a control; `x` is where the task is
then. -/
structure Quiet (s s' : Progress) (i : Nat) (k : Call) (pc : Pc) (x : Option (Call × Pc))
    (e : ProgressEvent) : Prop where
  log : s'.log = e :: s.log
  neutral : e.Neutral
  carries : pc.carries = false
  holder : ∀ j, j ≠ i → s.holder = some j → s'.holder = some j
  slot : ∀ outcome, outcome.isReport →
    (s'.stopControl = some outcome ↔ s.stopControl = some outcome)
  kind : ∀ k' pc', x = some (k', pc') → k' = k
  begin : ∀ j c, e = .begins j c → j = i ∧ x = some (c, .first c)
  ends : ∀ j c, e = .ends j c .returned → j = i ∧ c = k ∧ pc = .done c .returned
  lock : ∀ phase pc', x = some (.enter phase, pc') → s.holder.isSome → pc.beforeLock →
    pc'.beforeLock
  untaken : ∀ k' pc', x = some (k', pc') → (∃ o, s.stopControl = some o ∧ o.isReport) →
    pc.untaken → pc'.untaken

theorem untaken_first (call : Call) : (Pc.first call).untaken := by cases call <;> rfl

theorem Stage.At.quiet (h : stage.At s φ) (hi : φ i = some (k, pc)) (hq : Quiet s s' i k pc x e) :
    stage.At s' (update φ i x) := by
  have hne {j : Nat} {k' : Call} {pc₁ : Pc} (hj : φ j = some (k', pc₁)) (hcarries : pc₁.carries) :
      j ≠ i := by
    rintro rfl
    obtain ⟨-, rfl⟩ := Prod.mk.inj (Option.mem_unique hi hj)
    rw [hq.carries] at hcarries
    cases hcarries
  have hlines (hlines : ∀ e ∈ s.log, e.line = none) : ∀ e' ∈ s'.log, e'.line = none := by
    rw [hq.log]
    exact List.forall_mem_cons.2 ⟨hq.neutral.line, hlines⟩
  have hends {P : Pc → Bool} {j : Nat} {call : Call} (hP : P (.done call .returned) = false)
      (he : e = .ends j call .returned) : ∃ pc, φ j = some (call, pc) ∧ P pc = false := by
    obtain ⟨rfl, rfl, rfl⟩ := hq.ends j call he
    exact ⟨_, hi, hP⟩
  -- What holds of a call that began in the meantime.
  have huntaken {newer : List ProgressEvent} {j : Nat} {call : Call} {o : StopControl}
      (hslot : s.stopControl = some o) (ho : o.isReport)
      (hcall : (Pc.done call .returned).untaken = false)
      (hbehind : Behind Pc.untaken φ newer j call) :
      Behind Pc.untaken (update φ i x) (e :: newer) j call := by
    refine hbehind.cons (fun pc' hpc' ↦ ?_) (fun he ↦ ?_) (hends hcall)
    · obtain rfl := hq.kind call pc' hpc'
      exact ⟨pc, hi, hq.untaken call pc' hpc' ⟨o, hslot, ho⟩⟩
    · obtain ⟨hj, hx⟩ := hq.begin j call he
      refine ⟨hj, fun pc' hpc' ↦ ?_⟩
      rw [hx] at hpc'
      cases hpc'
      exact untaken_first call
  cases stage with
  | quiet =>
    show ∀ e' ∈ s'.log, _
    rw [hq.log]
    exact List.forall_mem_cons.2 ⟨⟨hq.neutral.report, hq.neutral.stored, hq.neutral.line⟩, h⟩
  | held i₀ outcome =>
    obtain ⟨newer, older, honly, hnone, hstoring, hholder, hbehind⟩ := h
    have houtcome : outcome.isReport := by
      obtain ⟨how, rfl, -⟩ := honly
      cases how <;> rfl
    have hi₀ := hne hstoring houtcome
    refine ⟨e :: newer, older, hq.log ▸ honly.cons hq.neutral.report, ?_, ?_,
      hq.holder i₀ hi₀ hholder, fun j phase ↦ ?_⟩
    · rw [hq.log]
      exact List.forall_mem_cons.2 ⟨⟨hq.neutral.stored, hq.neutral.line⟩, hnone⟩
    · rwa [update_of_ne hi₀]
    · refine (hbehind j phase).cons (fun pc' hpc' ↦ ?_) (fun he ↦ ?_) (hends rfl)
      · obtain rfl := hq.kind _ pc' hpc'
        exact ⟨pc, hi, hq.lock phase pc' hpc' (by simp [hholder])⟩
      · obtain ⟨hj, hx⟩ := hq.begin j _ he
        refine ⟨hj, fun pc' hpc' ↦ ?_⟩
        rw [hx] at hpc'
        cases hpc'
        rfl
  | slot i₀ outcome =>
    obtain ⟨newer, older, newest, held, mid, honly, hsole, hline, hslot, henter, hlog⟩ := h
    have houtcome : outcome.isReport := by
      obtain ⟨how, rfl, -⟩ := honly
      cases how <;> rfl
    exact ⟨e :: newer, older, e :: newest, held, mid, hq.log ▸ honly.cons hq.neutral.report,
      hsole.cons (by simp [hq.neutral.stored]), hlines hline, (hq.slot outcome houtcome).2 hslot,
      fun j phase ↦ huntaken hslot houtcome rfl (henter j phase),
      fun j ↦ huntaken hslot houtcome rfl (hlog j)⟩
  | taken j outcome =>
    obtain ⟨hreport, hline, houtcome, k', call, line, hlogging⟩ := h
    refine ⟨?_, hlines hline, houtcome, k', call, line, ?_⟩
    · rw [hq.log]
      refine List.forall_mem_cons.2 ⟨fun o ho ↦ ?_, hreport⟩
      rw [hq.neutral.report] at ho
      cases ho
    · rwa [update_of_ne (hne hlogging houtcome)]
  | logged outcome =>
    obtain ⟨hreport, hline⟩ := h
    refine ⟨?_, ?_⟩
    · rw [hq.log]
      refine List.forall_mem_cons.2 ⟨fun o ho ↦ ?_, hreport⟩
      rw [hq.neutral.report] at ho
      cases ho
    · rw [hq.log, controlLines, List.filterMap_cons_none hq.neutral.line]
      exact hline

theorem checkpoints_cons {log : List ProgressEvent} (he : e.checkpoint = none) :
    checkpoints (e :: log) = checkpoints log :=
  List.filterMap_cons_none he

/-- A step that moves no report and reports nothing. -/
theorem ProgressInv.quiet (h : ProgressInv s φ stage) (hi : φ i = some (k, pc))
    (hq : Quiet s s' i k pc x e) (hlast : s'.last = s.last) (hcheckpoint : e.checkpoint = none)
    (hdue : Due s.log e)
    (hsignalled : s'.shutdownTx = false → s.shutdownTx = false ∨ e = .signals i)
    (hknows : ∀ k' pc', x = some (k', pc') → Knows s' stage i k' pc') :
    ProgressInv s' (update φ i x) stage where
  calls j k' pc' hj := by
    rcases eq_or_ne j i with rfl | hne
    · exact hknows k' pc' (by simpa using hj)
    · rw [update_of_ne hne] at hj
      refine (h.calls j k' pc' hj).frame ⟨?_, fun hholder ↦
        ⟨hq.holder j hne hholder, hlast, ?_, id⟩,
        fun _ ↦ id, fun _ ↦ id⟩
      · rw [hq.log]
        exact List.subset_cons_self ..
      · rw [hq.log, checkpoints_cons hcheckpoint]
  located := h.located.quiet hi hq
  last := by
    rw [hlast]
    exact h.last
  reported := by
    rw [hq.log, checkpoints_cons hcheckpoint, hlast]
    exact h.reported
  ordered := by
    rw [hq.log, checkpoints_cons hcheckpoint]
    exact h.ordered
  signalled htx := by
    rw [hq.log]
    obtain htx | rfl := hsignalled htx
    · obtain ⟨j, hj⟩ := h.signalled htx
      exact ⟨j, .tail _ hj⟩
    · exact ⟨i, .head _⟩
  due := by
    rw [hq.log]
    exact ⟨hdue, h.due⟩
  slot outcome hslot houtcome := h.slot outcome ((hq.slot outcome houtcome).1 hslot) houtcome

end Frames

/-! ### One operation -/

section Steps

variable {s s' : Progress} {φ : Calls} {stage : Stage} {i : Nat} {k : Call} {pc pc' : Pc}
  {how : ReportEnd} {e : ProgressEvent}

/-- The event begins or ends no call. -/
def ProgressEvent.inner : ProgressEvent → Bool
  | begins _ _ => false
  | ends _ _ _ => false
  | _ => true

/-- A step within a call. -/
theorem Quiet.within (hlog : s'.log = e :: s.log) (hneutral : e.Neutral) (hinner : e.inner)
    (hcarries : pc.carries = false)
    (hholder : ∀ j, j ≠ i → s.holder = some j → s'.holder = some j)
    (hslot : ∀ outcome, outcome.isReport →
      (s'.stopControl = some outcome ↔ s.stopControl = some outcome))
    (hlock : s.holder.isSome → pc.beforeLock → pc'.beforeLock)
    (huntaken : (∃ o, s.stopControl = some o ∧ o.isReport) → pc.untaken → pc'.untaken) :
    Quiet s s' i k pc (some (k, pc')) e where
  log := hlog
  neutral := hneutral
  carries := hcarries
  holder := hholder
  slot := hslot
  kind _ _ h := (Prod.mk.inj (Option.some.inj h)).1.symm
  begin j c h := by
    rw [h] at hinner
    cases hinner
  ends j c h := by
    rw [h] at hinner
    cases hinner
  lock phase pc₁ h := by
    cases h
    exact hlock
  untaken k₁ pc₁ h := by
    cases h
    exact huntaken

theorem knows_some (h : Knows s stage i k pc) {k' : Call} {pc₁ : Pc}
    (hx : some (k, pc) = some (k', pc₁)) : Knows s stage i k' pc₁ := by
  cases hx
  exact h

/-- A step within a call that reports nothing. -/
theorem ProgressInv.within (h : ProgressInv s φ stage) (hi : φ i = some (k, pc))
    (hq : Quiet s s' i k pc (some (k, pc')) e) (hlast : s'.last = s.last)
    (hcheckpoint : e.checkpoint = none) (hdue : Due s.log e)
    (hsignalled : s'.shutdownTx = false → s.shutdownTx = false ∨ e = .signals i)
    (hknows : Knows s' stage i k pc') :
    ProgressInv s' (update φ i (some (k, pc'))) stage :=
  h.quiet hi hq hlast hcheckpoint hdue hsignalled fun _ _ hx ↦ knows_some hknows hx

variable {call : Call}

theorem ProgressInv.begin (h : ProgressInv s φ stage) (hi : φ i = some (k, .start call)) :
    ProgressInv (s.next i how (.begin call)) (update φ i
    (some (k, .first call))) stage := by
  obtain rfl : k = call := h.calls i k _ hi
  refine h.quiet hi (e := .begins i k) ⟨rfl, ⟨rfl, rfl, rfl⟩, rfl, fun _ _ ↦ id, fun _ _ ↦ Iff.rfl,
    fun _ _ h ↦ (Prod.mk.inj (Option.some.inj h)).1.symm, fun j c he ↦ ?_, nofun,
    fun phase pc' hx hholder hbefore ↦ ?_, fun k' pc' hx _ _ ↦
      ?_⟩ rfl rfl trivial .inl fun _ _ hx ↦ ?_
  · cases he
    exact ⟨rfl, rfl⟩
  · cases hx
    rfl
  · cases hx
    exact untaken_first _
  · refine knows_some ?_ hx
    cases k with
    | control => rfl
    | enter phase => rfl
    | logStopControl => exact ⟨rfl, nofun⟩

variable {phase : StopPhase}

theorem ProgressInv.lock (h : ProgressInv s φ stage) (hi : φ i = some (k, .locking phase))
    (hfree : s.holder = none) :
    ProgressInv (s.next i how .lockLast)
      (update φ i (some (k, .holding (.enter phase) phase))) stage := by
  have hk : k = .enter phase := h.calls i k _ hi
  refine h.within hi (e := .does i .lockLast) (.within rfl ⟨rfl, rfl, rfl⟩ rfl rfl
    (fun j _ hj ↦ ?_) (fun _ _ ↦ Iff.rfl) (fun hsome ↦ ?_) (fun _ _ ↦ rfl)) rfl rfl trivial .inl
    ⟨hk, nofun, nofun, rfl⟩
  · rw [hfree] at hj
    cases hj
  · rw [hfree] at hsome
    cases hsome

theorem ProgressInv.tryLock (h : ProgressInv s φ stage) (hi : φ i = some (k, .trying)) :
    ProgressInv (s.next i how .tryLockLast)
      (update φ i (some (k, .tried (s.answer how .tryLockLast)))) stage := by
  have hk : k = .control := h.calls i k _ hi
  obtain hfree | ⟨j, hj⟩ := Option.eq_none_or_eq_some s.holder
  · have htried : Pc.tried (s.answer how .tryLockLast) = .holding .control .stopRequested := by
      cases hpoisoned : s.poisoned <;> simp [Progress.answer, hfree, hpoisoned, Pc.tried]
    rw [htried]
    refine h.within hi (e := .does i .tryLockLast) (.within rfl ⟨rfl, rfl, rfl⟩ rfl rfl
      (fun j _ hj ↦ ?_) (fun _ _ ↦ ?_) (fun _ ↦ nofun) (fun _ _ ↦ rfl)) ?_ rfl trivial ?_
      ⟨hk, nofun, fun _ ↦ rfl, ?_⟩
    · rw [hfree] at hj
      cases hj
    all_goals simp [Progress.next, Progress.effect, hfree]
  · have htried : Pc.tried (s.answer how .tryLockLast) = .storing .superseded false := by
      simp [Progress.answer, hj, Pc.tried]
    rw [htried]
    refine h.within hi (e := .does i .tryLockLast) (.within rfl ⟨rfl, rfl, rfl⟩ rfl rfl
      (fun _ _ ↦ ?_) (fun _ _ ↦ ?_) (fun _ ↦ nofun) (fun _ _ ↦ rfl)) ?_ rfl trivial ?_
      ⟨hk, nofun, nofun⟩
    all_goals simp [Progress.next, Progress.effect, hj]

/-- Where a call is that does not report. -/
theorem knows_decided (h : Locked s i k call phase) : Knows s stage i k (.decided none call) := by
  obtain ⟨rfl, hreports, -, hholder⟩ := h
  cases k with
  | control => exact ⟨rfl, fun _ ↦ hholder, nofun⟩
  | enter phase => exact ⟨rfl, hholder⟩
  | logStopControl => exact absurd rfl hreports

theorem untaken_decided (hreports : call ≠ .logStopControl) (outcome : Option ReportEnd) :
    (Pc.decided outcome call).untaken := by
  cases call with
  | control => rfl
  | enter phase => rfl
  | logStopControl => exact absurd rfl hreports

theorem ProgressInv.getLast (h : ProgressInv s φ stage) (hi : φ i = some (k, .holding call phase)) :
    ProgressInv (s.next i how .getLast) (update φ i (some (k,
      if s.last.any (·.reaches phase) then .decided none call
      else .setting call phase))) stage := by
  have hlocked : Locked s i k call phase := h.calls i k _ hi
  have hlocked' : Locked (s.next i how .getLast) i k call phase :=
    ⟨hlocked.kind, hlocked.reports, hlocked.first, hlocked.holder⟩
  refine h.within hi (e := .does i .getLast) (.within rfl ⟨rfl, rfl, rfl⟩ rfl rfl
    (fun _ _ ↦ id) (fun _ _ ↦ Iff.rfl) (fun _ ↦ nofun) (fun _ _ ↦ ?_)) rfl rfl trivial .inl ?_
  · split
    · exact untaken_decided hlocked.reports none
    · rfl
  · split
    · exact knows_decided hlocked'
    · next hany =>
      refine ⟨hlocked', fun last hlast ↦ ?_⟩
      have hlast : s.last = some last := hlast
      rw [hlast, Option.any_some, StopPhase.reaches_iff] at hany
      omega

theorem ProgressInv.setLast (h : ProgressInv s φ stage) (hi : φ i = some (k, .setting call phase)) :
    ProgressInv (s.next i how (.setLast phase))
      (update φ i (some (k, .reporting call phase))) stage := by
  obtain ⟨hlocked, hlast⟩ : Locked s i k call phase ∧ _ := h.calls i k _ hi
  have hlog : (s.next i how (.setLast phase)).log = .does i (.setLast phase) :: s.log := rfl
  have hreported : ∀ c ∈ checkpoints s.log, c < phase.checkpoint := by
    intro c hc
    obtain ⟨last, hsome, hle⟩ := h.reported c hc
    exact Nat.lt_of_le_of_lt hle (hlast last hsome)
  constructor
  case calls =>
    intro j k' pc' hj
    rcases eq_or_ne j i with rfl | hne
    · have hpc : some (k, Pc.reporting call phase) = some (k', pc') := by simpa using hj
      cases hpc
      refine ⟨?_, rfl, ?_, fun hcontrol ↦ ?_⟩
      · exact ⟨hlocked.kind, hlocked.reports, hlocked.first, hlocked.holder⟩
      · rw [hlog, checkpoints_cons rfl]
        exact hreported
      · -- Nothing was reported before, so no control reported.
        by_contra hstage
        obtain ⟨last, hsome⟩ := Option.isSome_iff_exists.1 (h.last hstage)
        have hlt := hlast last hsome
        rw [hlocked.first hcontrol] at hlt
        exact absurd (StopPhase.stopRequested_le last) (by omega)
    · rw [update_of_ne hne] at hj
      refine (h.calls j k' pc' hj).frame ⟨List.subset_cons_self .., fun hholder ↦ ?_,
        fun _ ↦ id, fun _ ↦ id⟩
      exact absurd (Option.mem_unique hholder hlocked.holder) hne
  case located =>
    exact h.located.quiet hi (Quiet.within hlog ⟨rfl, rfl, rfl⟩ rfl rfl (fun _ _ ↦ id)
      (fun _ _ ↦ Iff.rfl) (fun _ ↦ nofun) (fun _ _ ↦ rfl))
  case last => exact fun _ ↦ rfl
  case reported =>
    rw [hlog, checkpoints_cons rfl]
    exact fun c hc ↦ ⟨phase, rfl, Nat.le_of_lt (hreported c hc)⟩
  case ordered =>
    rw [hlog, checkpoints_cons rfl]
    exact h.ordered
  case signalled =>
    intro htx
    obtain ⟨j, hj⟩ := h.signalled htx
    exact ⟨j, .tail _ hj⟩
  case due => exact ⟨trivial, h.due⟩
  case slot => exact h.slot

theorem isReport_of (how : ReportEnd) : (StopControl.of (some how)).isReport := by
  cases how <;> rfl

theorem ProgressInv.report (h : ProgressInv s φ stage)
    (hi : φ i = some (k, .reporting call phase)) :
    ∃ stage', ProgressInv (s.next i how (.report call phase))
      (update φ i (some (k, .decided (some how) call))) stage' := by
  obtain ⟨hlocked, hlast, hreported, hquiet⟩ : Locked s i k call phase ∧ s.last = some phase ∧
    (∀ c ∈ checkpoints s.log, c < phase.checkpoint) ∧ (call = .control → stage = .quiet) :=
      h.calls i k _ hi
  -- Nobody else holds the lock, so that only the stage is left to say.
  have hrest {stage' : Stage} (hlocated : stage'.At (s.next i how (.report call phase))
        (update φ i (some (k, .decided (some how) call))))
      (hstage : stage' = stage ∨ stage = .quiet ∧ ∃ outcome, stage' = .held i outcome)
      (hknows : Knows (s.next i how (.report call phase)) stage' i k (.decided (some how) call)) :
      ProgressInv (s.next i how (.report call phase))
        (update φ i (some (k, .decided (some how) call))) stage' := by
    constructor
    case calls =>
      intro j k' pc' hj
      rcases eq_or_ne j i with rfl | hne
      · exact knows_some hknows (by simpa using hj)
      · rw [update_of_ne hne] at hj
        refine (h.calls j k' pc' hj).frame ⟨List.subset_cons_self .., fun hholder ↦ ?_,
          fun outcome hheld ↦ ?_, fun outcome htaken ↦ ?_⟩
        · exact absurd (Option.mem_unique hholder hlocked.holder) hne
        · obtain rfl | ⟨rfl, -⟩ := hstage
          · exact hheld
          · cases hheld
        · obtain rfl | ⟨rfl, -⟩ := hstage
          · exact htaken
          · cases htaken
    case located => exact hlocated
    case last => exact fun _ ↦ Option.isSome_iff_exists.2 ⟨phase, hlast⟩
    case reported =>
      exact List.forall_mem_cons.2 ⟨⟨phase, hlast, Nat.le_refl _⟩, h.reported⟩
    case ordered => exact List.pairwise_cons.2 ⟨hreported, h.ordered⟩
    case signalled =>
      intro htx
      obtain ⟨j, hj⟩ := h.signalled htx
      exact ⟨j, .tail _ hj⟩
    case due => exact ⟨trivial, h.due⟩
    case slot =>
      intro outcome hslot houtcome
      obtain ⟨i₀, rfl⟩ := h.slot outcome hslot houtcome
      obtain rfl | ⟨hquiet', -⟩ := hstage
      · exact ⟨i₀, rfl⟩
      · cases hquiet'
  cases call with
  | control =>
    obtain rfl := hquiet rfl
    obtain rfl : phase = .stopRequested := hlocked.first rfl
    obtain rfl : k = .control := hlocked.kind
    have hlocated : ∀ e ∈ s.log, e.report = none ∧ e.stored = none ∧ e.line = none := h.located
    refine ⟨.held i (.of (some how)), hrest ⟨[], s.log, ⟨how, rfl, sole_nil ?_⟩, ?_, ?_,
      hlocked.holder, fun j phase ↦ ⟨nofun, id⟩⟩ (.inr ⟨rfl, _, rfl⟩)
      ⟨rfl, fun _ ↦ hlocked.holder, fun _ ↦ ⟨rfl, rfl⟩⟩⟩
    · intro e he
      simp [(hlocated e he).1]
    · exact List.forall_mem_cons.2 ⟨⟨rfl, rfl⟩, fun e he ↦ (hlocated e he).2⟩
    · exact update_self ..
  | enter p =>
    have hq : Quiet s (s.next i how (.report (.enter p) phase)) i k (.reporting (.enter p) phase)
        (some (k, .leaving p (some how))) (.reports i (.enter p) phase how) :=
      .within rfl ⟨rfl, rfl, rfl⟩ rfl rfl (fun _ _ ↦ id) (fun _ _ ↦ Iff.rfl) (fun _ ↦ nofun)
        (fun _ _ ↦ rfl)
    exact ⟨stage, hrest (h.located.quiet hi hq) (.inl rfl) ⟨hlocked.kind, hlocked.holder⟩⟩
  | logStopControl => exact absurd rfl hlocked.reports

theorem ProgressInv.leave {outcome : Option ReportEnd} {panicking : Bool}
    (h : ProgressInv s φ stage) (hi : φ i = some (k, .leaving phase outcome)) :
    ProgressInv (s.next i how (.dropLast panicking))
      (update φ i (some (k, .left phase outcome))) stage := by
  obtain ⟨hk, hholder⟩ : k = .enter phase ∧ s.holder = some i := h.calls i k _ hi
  refine h.within hi (e := .does i (.dropLast panicking)) (.within rfl ⟨rfl, rfl, rfl⟩ rfl rfl
    (fun j hne hj ↦ ?_) (fun _ _ ↦ Iff.rfl) (fun _ ↦ nofun) (fun _ _ ↦ ?_)) rfl rfl trivial .inl ?_
  · exact absurd (Option.mem_unique hj hholder) hne
  · rcases outcome with - | ok | - <;> rfl
  · rcases outcome with - | ok | -
    · exact ⟨hk, nofun⟩
    · exact ⟨hk, nofun⟩
    · exact ⟨hk, nofun⟩

theorem ProgressInv.release (h : ProgressInv s φ stage) (hi : φ i = some (k, .releasing)) :
    ProgressInv (s.next i how (.dropLast false)) (update φ i (some (k, .signalling)))
      stage := by
  obtain ⟨hk, hholder⟩ : k = .control ∧ s.holder = some i := h.calls i k _ hi
  refine h.within hi (e := .does i (.dropLast false)) (.within rfl ⟨rfl, rfl, rfl⟩ rfl rfl
    (fun j hne hj ↦ ?_) (fun _ _ ↦ Iff.rfl) (fun _ ↦ nofun) (fun _ _ ↦ rfl)) rfl rfl trivial .inl hk
  exact absurd (Option.mem_unique hj hholder) hne

/-! ### The slot -/

/-- What is stored over a report that was not made. -/
theorem stored_of_not_isReport {held : Option StopControl} (outcome : StopControl)
    (h : ∀ o, held = some o → ¬o.isReport) : Progress.stored held outcome = outcome := by
  rcases held with - | ⟨ok | - | -⟩
  · rfl
  · exact absurd rfl (h _ rfl)
  · exact absurd rfl (h _ rfl)
  · cases outcome <;> rfl

/-- A report that is held stays. -/
theorem stored_superseded {held : Option StopControl} {outcome : StopControl}
    (houtcome : outcome.isReport) :
    some (Progress.stored held .superseded) = some outcome ↔ held = some outcome := by
  rcases held with - | ⟨ok | - | -⟩
  · refine iff_of_false ?_ nofun
    rintro ⟨⟩
    cases houtcome
  · exact Iff.rfl
  · exact Iff.rfl
  · exact Iff.rfl

theorem untaken_of_beforeLock (h : pc.beforeLock) : pc.untaken := by
  cases pc <;> first | rfl | cases h

theorem Behind.imp {P Q : Pc → Bool} {newer : List ProgressEvent} {j : Nat}
    (h : Behind P φ newer j call) (hPQ : ∀ pc, P pc → Q pc) : Behind Q φ newer j call :=
  ⟨fun hmem pc hpc ↦ hPQ pc (h.1 hmem pc hpc), h.2⟩

theorem Only.outcome {newer older log : List ProgressEvent} {outcome o : StopControl}
    (h : Only newer older log i outcome) (he : e ∈ log) (ho : e.report = some o) : o = outcome := by
  obtain ⟨how, rfl, hsole⟩ := h
  rw [hsole.split] at he
  obtain he | he := List.mem_append.1 he
  · exact absurd (by simp [ho]) (hsole.newer e he)
  · obtain rfl | he := List.mem_cons.1 he
    · exact (Option.some.inj ho).symm
    · exact absurd (by simp [ho]) (hsole.older e he)

variable {outcome : StopControl}

theorem ProgressInv.store {locked : Bool} (h : ProgressInv s φ stage)
    (hi : φ i = some (k, .storing outcome locked)) :
    ∃ stage', ProgressInv (s.next i how (.store outcome))
      (update φ i (some (k, if locked then .releasing else .signalling))) stage' := by
  obtain ⟨rfl, hholder, hreport⟩ : k = .control ∧ (locked → s.holder = some i) ∧
    (outcome.isReport → locked ∧ stage = .held i outcome) := h.calls i k _ hi
  by_cases houtcome : outcome.isReport
  · obtain ⟨rfl, rfl⟩ := hreport houtcome
    have hholder := hholder rfl
    have hheld : ∀ o, s.stopControl = some o → ¬o.isReport := by
      intro o ho hisReport
      obtain ⟨j, hj⟩ := h.slot o ho hisReport
      cases hj
    have hstored : (s.next i how (.store outcome)).stopControl = some outcome :=
      congrArg some (stored_of_not_isReport outcome hheld)
    refine ⟨.slot i outcome, ?_⟩
    constructor
    case calls =>
      intro j k' pc' hj
      rcases eq_or_ne j i with rfl | hne
      · have hknows : Knows (s.next j how (.store outcome)) (.slot j outcome) j .control
            .releasing := ⟨rfl, hholder⟩
        exact knows_some hknows (by simpa using hj)
      · rw [update_of_ne hne] at hj
        refine (h.calls j k' pc' hj).frame ⟨List.subset_cons_self .., fun hj ↦ ?_, fun o ho ↦ ?_,
          nofun⟩
        · exact absurd (Option.mem_unique hj hholder) hne
        · exact absurd (Stage.held.inj ho).1.symm hne
    case located =>
      obtain ⟨newer, older, honly, hnone, -, -, hbehind⟩ := h.located
      have hnewer : ∀ e ∈ newer, e ∈ s.log := by
        obtain ⟨how', -, hsole⟩ := honly
        intro e he
        rw [hsole.split]
        exact List.mem_append_left _ he
      refine ⟨.stores i s.stopControl outcome :: newer, older, [], s.stopControl, newer,
        honly.cons rfl, sole_nil fun e he ↦ ?_, ?_, hstored, fun j phase ↦ ?_, fun j ↦ ⟨nofun, id⟩⟩
      · simp [(hnone e (hnewer e he)).1]
      · exact List.forall_mem_cons.2 ⟨rfl, fun e he ↦ (hnone e he).2⟩
      · exact ((hbehind j phase).imp fun _ ↦ untaken_of_beforeLock).cons
          (fun pc' hpc' ↦ nomatch hpc')
          nofun nofun
    case last => exact fun _ ↦ h.last nofun
    case reported => exact h.reported
    case ordered => exact h.ordered
    case signalled =>
      intro htx
      obtain ⟨j, hj⟩ := h.signalled htx
      exact ⟨j, .tail _ hj⟩
    case due => exact ⟨fun o ho hreports ↦ hheld o ho hreports.1, h.due⟩
    case slot =>
      intro o ho _
      obtain rfl := Option.mem_unique hstored ho
      exact ⟨i, rfl⟩
  · obtain rfl : outcome = .superseded := by
      cases outcome with
      | reported ok => exact absurd rfl houtcome
      | reportPanicked => exact absurd rfl houtcome
      | superseded => rfl
    refine ⟨stage, h.within hi (e := .stores i s.stopControl .superseded)
      (.within rfl ⟨rfl, rfl, rfl⟩ rfl rfl (fun _ _ ↦ id) (fun o ho ↦ stored_superseded ho)
        (fun _ ↦ nofun) (fun _ _ ↦ ?_)) rfl rfl (fun _ _ hreports ↦ nomatch hreports.2) .inl ?_⟩
    · cases locked <;> rfl
    · cases locked with
      | false => rfl
      | true => exact ⟨rfl, hholder rfl⟩

variable {line : Option Bool}

/-- Where a call is that found nothing to log of a control, or logged it. -/
theorem knows_logged (hcall : call ≠ .control) : Knows s stage i call (.logged call line) := by
  cases call with
  | control => exact absurd rfl hcall
  | enter phase =>
    cases line with
    | none => exact ⟨rfl, nofun⟩
    | some ok => rfl
  | logStopControl => exact ⟨rfl, nofun⟩

theorem ProgressInv.take (h : ProgressInv s φ stage) (hi : φ i = some (k, .taking call line)) :
    ∃ stage', ProgressInv (s.next i how .take)
      (update φ i (some (k, .took call line s.stopControl))) stage' := by
  obtain ⟨rfl, hcall⟩ : k = call ∧ call ≠ .control := h.calls i k _ hi
  by_cases hreport : ∃ o, s.stopControl = some o ∧ o.isReport
  · obtain ⟨outcome, hslot, houtcome⟩ := hreport
    obtain ⟨i₀, rfl⟩ := h.slot outcome hslot houtcome
    rw [hslot]
    refine ⟨.taken i outcome, ?_⟩
    constructor
    case calls =>
      intro j k' pc' hj
      rcases eq_or_ne j i with rfl | hne
      · have hknows : Knows (s.next j how .take) (.taken j outcome) j k (.logging k outcome line) :=
          ⟨rfl, hcall, fun _ ↦ rfl⟩
        exact knows_some hknows (by simpa [Pc.took] using hj)
      · rw [update_of_ne hne] at hj
        exact (h.calls j k' pc' hj).frame ⟨List.subset_cons_self .., fun hholder ↦
          ⟨hholder, rfl, rfl, nofun⟩, nofun, nofun⟩
    case located =>
      obtain ⟨newer, older, newest, held, mid, honly, -, hline, -⟩ := h.located
      refine ⟨List.forall_mem_cons.2 ⟨nofun, fun e he o ho ↦ honly.outcome he ho⟩,
        List.forall_mem_cons.2 ⟨rfl, hline⟩, houtcome, k, k, line, ?_⟩
      exact update_self ..
    case last => exact fun _ ↦ h.last nofun
    case reported => exact h.reported
    case ordered => exact h.ordered
    case signalled =>
      intro htx
      obtain ⟨j, hj⟩ := h.signalled htx
      exact ⟨j, .tail _ hj⟩
    case due => exact ⟨trivial, h.due⟩
    case slot => nofun
  · refine ⟨stage, h.within hi (e := .takes i s.stopControl) (.within rfl ⟨rfl, rfl, rfl⟩ rfl rfl
      (fun _ _ ↦ id) (fun o ho ↦ iff_of_false nofun fun hslot ↦ hreport ⟨o, hslot, ho⟩)
      (fun _ ↦ nofun) (fun hslot ↦ absurd hslot hreport)) rfl rfl trivial .inl ?_⟩
    cases hslot : s.stopControl with
    | none => exact knows_logged hcall
    | some o => exact ⟨rfl, hcall, fun ho ↦ absurd ⟨o, hslot, ho⟩ hreport⟩

theorem ProgressInv.logControl (h : ProgressInv s φ stage)
    (hi : φ i = some (k, .logging call outcome line)) :
    ∃ stage', ProgressInv (s.next i how (.logControl outcome))
      (update φ i (some (k, .logged call line))) stage' := by
  obtain ⟨rfl, hcall, hreport⟩ : k = call ∧ call ≠ .control ∧
    (outcome.isReport → stage = .taken i outcome) := h.calls i k _ hi
  by_cases houtcome : outcome.isReport
  · obtain rfl := hreport houtcome
    refine ⟨.logged outcome, ?_⟩
    constructor
    case calls =>
      intro j k' pc' hj
      rcases eq_or_ne j i with rfl | hne
      · exact knows_some (knows_logged hcall) (by simpa using hj)
      · rw [update_of_ne hne] at hj
        refine (h.calls j k' pc' hj).frame ⟨List.subset_cons_self .., fun hholder ↦
          ⟨hholder, rfl, rfl, nofun⟩, nofun, fun o ho ↦ ?_⟩
        exact absurd (Stage.taken.inj ho).1.symm hne
    case located =>
      obtain ⟨hreport, hline, -⟩ := h.located
      have hnone : controlLines s.log = [] := List.filterMap_eq_nil_iff.2 hline
      refine ⟨List.forall_mem_cons.2 ⟨nofun, hreport⟩, ?_⟩
      show controlLines (.logsControl i outcome :: s.log) = [outcome]
      have hline : (ProgressEvent.logsControl i outcome).line = some outcome := if_pos houtcome
      rw [controlLines, List.filterMap_cons_some hline]
      exact congrArg (outcome :: ·) hnone
    case last => exact fun _ ↦ h.last nofun
    case reported => exact h.reported
    case ordered => exact h.ordered
    case signalled =>
      intro htx
      obtain ⟨j, hj⟩ := h.signalled htx
      exact ⟨j, .tail _ hj⟩
    case due => exact ⟨trivial, h.due⟩
    case slot =>
      intro o ho hisReport
      obtain ⟨j, hj⟩ := h.slot o ho hisReport
      cases hj
  · have hnot : outcome.isReport = false := by simpa using houtcome
    refine ⟨stage, h.within hi (e := .logsControl i outcome)
      (.within rfl ⟨rfl, rfl, if_neg houtcome⟩
      rfl hnot (fun _ _ ↦ id) (fun _ _ ↦ Iff.rfl) (fun _ ↦ nofun) (fun _ ↦ nofun)) rfl rfl trivial
      .inl (knows_logged hcall)⟩

theorem ProgressInv.logReported {ok : Bool} (h : ProgressInv s φ stage)
    (hi : φ i = some (k, .lining phase ok)) :
    ProgressInv (s.next i how (.logReported phase ok))
      (update φ i (some (k, .done (.enter phase) .returned))) stage := by
  have hk : k = .enter phase := h.calls i k _ hi
  exact h.within hi (e := .does i (.logReported phase ok)) (.within rfl ⟨rfl, rfl, rfl⟩ rfl rfl
    (fun _ _ ↦ id) (fun _ _ ↦ Iff.rfl) (fun _ ↦ nofun) (fun _ ↦ nofun)) rfl rfl trivial .inl
    ⟨hk, nofun⟩

theorem ProgressInv.signal (h : ProgressInv s φ stage) (hi : φ i = some (k, .signalling)) :
    ProgressInv (s.next i how .signal)
      (update φ i (some (k, .done .control .returned))) stage := by
  have hk : k = .control := h.calls i k _ hi
  cases htx : s.shutdownTx with
  | true =>
    have hlog : (s.next i how .signal).log = .signals i :: s.log := by
      simp [Progress.next, Progress.event, htx]
    exact h.within hi (.within hlog ⟨rfl, rfl, rfl⟩ rfl rfl (fun _ _ ↦ id) (fun _ _ ↦ Iff.rfl)
      (fun _ ↦ nofun) (fun _ _ ↦ rfl)) rfl rfl trivial (fun _ ↦ .inr rfl)
      ⟨hk, fun _ ↦ ⟨rfl, i, hlog ▸ (.head _)⟩⟩
  | false =>
    have hlog : (s.next i how .signal).log = .does i .signal :: s.log := by
      simp [Progress.next, Progress.event, htx]
    obtain ⟨j, hj⟩ := h.signalled htx
    exact h.within hi (.within hlog ⟨rfl, rfl, rfl⟩ rfl rfl (fun _ _ ↦ id) (fun _ _ ↦ Iff.rfl)
      (fun _ ↦ nofun) (fun _ _ ↦ rfl)) rfl rfl trivial (fun _ ↦ .inl htx)
      ⟨hk, fun _ ↦ ⟨rfl, j, hlog ▸ .tail _ hj⟩⟩

/-! ### A call ends, a call starts -/

theorem ProgressInv.finish {ended : Ended} (h : ProgressInv s φ stage)
    (hi : φ i = some (k, .done call ended)) :
    ProgressInv { s with log := .ends i k ended :: s.log } (update φ i none) stage := by
  obtain ⟨rfl, hcontrol⟩ : k = call ∧ (call = .control → ended = .returned ∧
    ∃ j, ProgressEvent.signals j ∈ s.log) := h.calls i k _ hi
  have hq : Quiet s { s with log := .ends i k ended :: s.log } i k (.done k ended) none
      (.ends i k ended) := by
    constructor
    case log => rfl
    case neutral => exact ⟨rfl, rfl, rfl⟩
    case carries => rfl
    case holder => exact fun _ _ ↦ id
    case slot => exact fun _ _ ↦ Iff.rfl
    case ends =>
      intro j c he
      cases he
      exact ⟨rfl, rfl, rfl⟩
    all_goals
      intro _ _ hx
      cases hx
  refine h.quiet hi hq rfl rfl ?_ .inl fun _ _ hx ↦ by cases hx
  cases k with
  | control => exact hcontrol rfl
  | enter phase => trivial
  | logStopControl => trivial

theorem Behind.spawn {P : Pc → Bool} {newer : List ProgressEvent} {j : Nat}
    (h : Behind P φ newer j call) (hP : ∀ call, P (.start call)) (i : Nat) (k : Call) :
    Behind P (update φ i (some (k, .start k))) newer j call := by
  refine ⟨fun hmem pc hpc ↦ ?_, h.2⟩
  rcases eq_or_ne j i with rfl | hne
  · obtain ⟨-, rfl⟩ : k = call ∧ Pc.start k = pc := by simpa using hpc
    exact hP k
  · exact h.1 hmem pc (by rwa [update_of_ne hne] at hpc)

theorem ProgressInv.spawn (h : ProgressInv s φ stage) (hi : φ i = none) (k : Call) :
    ProgressInv s (update φ i (some (k, .start k))) stage :=
  { h with
    calls j k' pc hj := by
      rcases eq_or_ne j i with rfl | hne
      · obtain ⟨rfl, rfl⟩ : k = k' ∧ Pc.start k = pc := by simpa using hj
        exact rfl
      · exact h.calls j k' pc (by rwa [update_of_ne hne] at hj)
    located := by
      have hne {j : Nat} {x : Call × Pc} (hj : φ j = some x) : j ≠ i := by
        rintro rfl
        rw [hi] at hj
        cases hj
      have hlocated := h.located
      cases stage with
      | quiet => exact hlocated
      | held i₀ outcome =>
        obtain ⟨newer, older, honly, hnone, hstoring, hholder, hbehind⟩ := hlocated
        refine ⟨newer, older, honly, hnone, ?_, hholder, fun j phase ↦
          (hbehind j phase).spawn (fun _ ↦ rfl) i k⟩
        rwa [update_of_ne (hne hstoring)]
      | slot i₀ outcome =>
        obtain ⟨newer, older, newest, held, mid, honly, hsole, hline, hslot, henter, hlog⟩ :=
          hlocated
        exact ⟨newer, older, newest, held, mid, honly, hsole, hline, hslot,
          fun j phase ↦ (henter j phase).spawn (fun _ ↦ rfl) i k,
          fun j ↦ (hlog j).spawn (fun _ ↦ rfl) i k⟩
      | taken j outcome =>
        obtain ⟨hreport, hline, houtcome, k', call, line, hlogging⟩ := hlocated
        refine ⟨hreport, hline, houtcome, k', call, line, ?_⟩
        rwa [update_of_ne (hne hlogging)]
      | logged outcome => exact hlocated }

/-- One operation of a call. -/
theorem ProgressInv.advance {o : ProgressOp} (h : ProgressInv s φ stage) (hi : φ i = some (k, pc))
    (hop : pc.op = some o) (hfree : o = .lockLast → s.holder = none) :
    ∃ stage', ProgressInv (s.next i how o)
      (update φ i (some (k, pc.after o (s.answer how o)))) stage' := by
  cases pc
  case done call ended => cases hop
  all_goals cases hop
  case start call => exact ⟨stage, h.begin hi⟩
  case locking phase => exact ⟨stage, h.lock hi (hfree rfl)⟩
  case trying => exact ⟨stage, h.tryLock hi⟩
  case holding call phase => exact ⟨stage, h.getLast hi⟩
  case setting call phase => exact ⟨stage, h.setLast hi⟩
  case reporting call phase => exact h.report hi
  case leaving phase outcome => exact ⟨stage, h.leave hi⟩
  case storing outcome locked => exact h.store hi
  case releasing => exact ⟨stage, h.release hi⟩
  case taking call line => exact h.take hi
  case logging call outcome line => exact h.logControl hi
  case lining phase ok => exact ⟨stage, h.logReported hi⟩
  case signalling => exact ⟨stage, h.signal hi⟩

end Steps

/-! ### Every run -/

/-- Every step of a run keeps the invariant. -/
theorem stopThreads_keeps :
    stopThreads.Keeps stopProtocol (fun s φ ↦ ∃ stage, ProgressInv s φ stage) (fun _ _ ↦ True) where
  follows := body_follows
  spawn := by
    rintro p φ k - ⟨stage, h⟩ - - hfresh
    exact ⟨stage, h.spawn hfresh k⟩
  advance := by
    rintro p φ i how k o f pc - ⟨stage, h⟩ - - hi hop henabled - -
    refine h.advance hi hop fun ho ↦ ?_
    subst ho
    exact Option.isNone_iff_eq_none.1 henabled
  finish := by
    rintro p φ i k ended pc - ⟨stage, h⟩ - - hi ⟨call, rfl⟩
    exact ⟨stage, h.finish hi⟩
  drop := by
    rintro p φ i k o f pc - - - - - - ⟨⟩

theorem progressInv_new : ProgressInv .new (fun _ ↦ none) .quiet where
  calls _ _ _ h := by cases h
  located _ he := absurd he List.not_mem_nil
  last h := absurd rfl h
  reported _ hc := absurd hc List.not_mem_nil
  ordered := List.Pairwise.nil
  signalled h := by cases h
  due := trivial
  slot _ h := by cases h

/-- The invariant holds after every run. -/
theorem holds_afterSteps (ls : List (Label ReportEnd Call)) :
    System.Holds stopProtocol (fun s φ ↦ ∃ stage, ProgressInv s φ stage) (afterSteps ls) :=
  System.exec_of_keeps stopThreads_keeps ⟨fun _ ↦ none, tracked_idle _, .quiet, progressInv_new⟩
    (System.along_true _ ls)

section Complete

variable {s : Progress} {φ : Calls} {stage : Stage}

theorem length_controlLines (h : ProgressInv s φ stage) : (controlLines s.log).length ≤ 1 := by
  have hnone (hline : ∀ e ∈ s.log, e.line = none) : (controlLines s.log).length ≤ 1 := by
    rw [controlLines, List.filterMap_eq_nil_iff.2 hline]
    exact Nat.zero_le 1
  have hlocated := h.located
  cases stage with
  | quiet => exact hnone fun e he ↦ (hlocated e he).2.2
  | held i outcome =>
    obtain ⟨-, -, -, hnone', -⟩ := hlocated
    exact hnone fun e he ↦ (hnone' e he).2
  | slot i outcome =>
    obtain ⟨-, -, -, -, -, -, -, hline, -⟩ := hlocated
    exact hnone hline
  | taken j outcome => exact hnone hlocated.2.1
  | logged outcome =>
    rw [hlocated.2]
    exact Nat.le_refl 1

/-- A call that runs after the report has taken it out of the slot, and if no such call runs any
more, it was logged. -/
theorem logged_of_logsAfter (h : ProgressInv s φ stage)
    (hcontrols : ∀ i k pc, φ i = some (k, pc) → k = .control) {newer older : List ProgressEvent}
    {i : Nat} {how : ReportEnd}
    (hlog : s.log = newer ++ ProgressEvent.reports i .control .stopRequested how :: older)
    (hafter : LogsAfter newer i (.of (some how))) : controlLines s.log = [.of (some how)] := by
  have hmem : .reports i .control .stopRequested how ∈ s.log :=
    hlog ▸ List.mem_append_right _ (.head _)
  have hlocated := h.located
  cases stage with
  | quiet => cases (hlocated _ hmem).1
  | held i₀ outcome =>
    obtain ⟨newer₀, older₀, ⟨how₀, -, hsole⟩, hnone, -, -, hbehind⟩ := hlocated
    obtain ⟨rfl, -⟩ := hsole.unique hlog rfl
    obtain ⟨j, phase, hruns⟩ | ⟨newest, mid, held, rfl, -⟩ := hafter
    · exact absurd hruns (hbehind j phase).2
    · have hstored := (hnone (.stores i held (.of (some how))) (by simp [hlog])).1
      exact absurd hstored (by simp [ProgressEvent.stored, isReport_of])
  | slot i₀ outcome =>
    obtain ⟨newer₀, older₀, newest₀, held₀, mid₀, ⟨how₀, -, hsole⟩, hstored, -, -, henter, hlogs⟩ :=
      hlocated
    obtain ⟨rfl, -⟩ := hsole.unique hlog rfl
    obtain ⟨j, phase, hruns⟩ | ⟨newest, mid, held, hsplit, j, hruns⟩ := hafter
    · exact absurd hruns (henter j phase).2
    · obtain ⟨rfl, -⟩ := hstored.unique hsplit (by simp [ProgressEvent.stored, isReport_of])
      exact absurd hruns (hlogs j).2
  | taken j outcome =>
    obtain ⟨-, -, -, k, call, line, hj⟩ := hlocated
    obtain ⟨hkind, hcall, -⟩ : k = call ∧ call ≠ .control ∧ _ := h.calls j k _ hj
    exact absurd (hkind.symm.trans (hcontrols j k _ hj)) hcall
  | logged outcome =>
    rw [hlocated.2, hlocated.1 _ hmem _ rfl]

end Complete

/-- **Reports are ordered and none of a control is lost**, in every run. -/
theorem orderedComplete_afterSteps (ls : List (Label ReportEnd Call)) :
    OrderedComplete (afterSteps ls) := by
  obtain ⟨φ, htracked, stage, h⟩ := holds_afterSteps ls
  constructor
  case ordered => exact h.ordered
  case runs =>
    intro i o f hi
    obtain ⟨pc, hφ, hop, -⟩ := htracked.here hi
    cases pc
    case locking phase => cases (h.calls i _ _ hφ : Call.control = .enter phase)
    case done call how => cases hop
    all_goals
      cases hop
      rfl
  case signals =>
    intro newer older i how hlog
    exact (hlog ▸ h.due).of_split
  case once => exact length_controlLines h
  case logged =>
    intro newer older i how hlog hafter honly
    refine logged_of_logsAfter h (fun j k pc hj ↦ ?_) hlog hafter
    obtain ⟨prog, hprog, -⟩ := htracked.task hj
    exact honly j _ hprog
  case merges =>
    intro i held outcome hmem
    obtain ⟨newer, older, hlog⟩ := List.append_of_mem hmem
    exact (hlog ▸ h.due).of_split held rfl

/-- Operations of one task, whose reports end well. -/
def advances (i n : Nat) : List (Label ReportEnd Call) :=
  List.replicate n (.advance i (.returned true))

/-- A control, and an `enter` whose report panics. -/
def panickingEnter : List (Label ReportEnd Call) :=
  Label.spawn Call.control :: advances 0 8 ++ [Label.finish 0, .spawn (Call.enter .acquireProxy)] ++
    advances 1 4 ++ [Label.advance 1 ReportEnd.panicked, .advance 1 .panicked, .finish 1]

/-- A control, and a `log_stop_control` between its report and the storing of what that came to. -/
def earlyLog : List (Label ReportEnd Call) :=
  Label.spawn Call.control :: advances 0 5 ++ [Label.spawn Call.logStopControl] ++ advances 1 2 ++
    [Label.finish 1] ++ advances 0 3 ++ [Label.finish 0]

theorem onlyControls_of_idle {p : Pool ProgressOp ProgressOp.Ans Progress Call Ended}
    (h : ∀ i, p.tasks i = none) : OnlyControls p := by
  intro i t hi
  rw [h i] at hi
  cases hi

/-- The report of a control is not logged although an `enter` runs after it, whose own report
panics, or a `log_stop_control` that returns, but comes before the hand-over. -/
theorem handOver_missed : (¬∀ ls newer older i how, (afterSteps ls).shared.log =
        newer ++ ProgressEvent.reports i .control .stopRequested how :: older →
        (∃ j phase ended, .begins j (.enter phase) ∈ newer ∧ .ends j (.enter phase) ended ∈ newer) →
          OnlyControls (afterSteps ls) →
            controlLines (afterSteps ls).shared.log = [.of (some how)]) ∧
    ¬∀ ls newer older i how, (afterSteps ls).shared.log =
        newer ++ ProgressEvent.reports i .control .stopRequested how :: older →
        (∃ j, RunsIn j .logStopControl newer) → OnlyControls (afterSteps ls) →
          controlLines (afterSteps ls).shared.log = [.of (some how)] := by
  have hidle {ls : List (Label ReportEnd Call)} (h₀ : (afterSteps ls).tasks 0 = none)
      (h₁ : (afterSteps ls).tasks 1 = none) (hrest : ∀ n, (afterSteps ls).tasks (n + 2) = none) :
      OnlyControls (afterSteps ls) := by
    refine onlyControls_of_idle fun i ↦ ?_
    match i with
    | 0 => exact h₀
    | 1 => exact h₁
    | n + 2 => exact hrest n
  constructor
  · intro h
    have hlogged := h panickingEnter ((afterSteps panickingEnter).shared.log.take 11)
      ((afterSteps panickingEnter).shared.log.drop 12) 0 (.returned true) (by decide)
      ⟨1, .acquireProxy, .unwound, by decide, by decide⟩ (hidle rfl rfl fun _ ↦ rfl)
    exact absurd hlogged (by decide)
  · intro h
    have hlogged := h earlyLog ((afterSteps earlyLog).shared.log.take 7)
      ((afterSteps earlyLog).shared.log.drop 8) 0 (.returned true) (by decide)
      ⟨1, by decide⟩ (hidle rfl rfl fun _ ↦ rfl)
    exact absurd hlogged (by decide)

end Hole.Bridge.ServiceStop
