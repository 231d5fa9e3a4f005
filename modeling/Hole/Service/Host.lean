import Hole.Effect.History
import Hole.Service.Settle

/-!
# The host and the SCM that the stop wait runs against

A host of processes that start and exit, and an SCM that moves the service between its states and
delivers notifications. Between any two calls anything may happen (`Happening`), and any call may
fail with any code. The answers are only as true as the system documents them: an open finds the
live process with an id if there is one, a listing names every live process, an identity is never
used twice, and a notification is delivered for the next entry into a state it was armed for, or at
once if the service is in such a state already.
-/

namespace Hole.Service

open Effect

/-! ### The host -/

/-- A process, alive or not. -/
structure Proc where
  id : ListedProcess
  carries : Bool
  live : Bool
  deriving DecidableEq

/-- The processes that ever ran, and which are alive: one identity names one process for good, and
one id at most one live process. -/
structure Host where
  procs : List Proc
  unique : ∀ p ∈ procs, ∀ q ∈ procs, p.id = q.id → p = q
  livePid : ∀ p ∈ procs, ∀ q ∈ procs, p.live → q.live → p.id.pid = q.id.pid → p = q

namespace Host

/-- A process that ran or runs. -/
def known (h : Host) (x : ListedProcess) : Bool := h.procs.any fun p ↦ p.id == x

/-- A live process. -/
def alive (h : Host) (x : ListedProcess) : Bool := h.procs.any fun p ↦ p.id == x && p.live

/-- A process whose token carries the service's identity. -/
def carries (h : Host) (x : ListedProcess) : Bool := h.procs.any fun p ↦ p.id == x && p.carries

/-- The live process with an id. -/
def liveAt (h : Host) (pid : Nat) : Option Proc := h.procs.find? fun p ↦ p.live && p.id.pid == pid

/-- The live processes of the service. -/
def carriers (h : Host) : List ListedProcess :=
  (h.procs.filter fun p ↦ p.live && p.carries).map (·.id)

/-- A process that ran and has exited. -/
def Gone (h : Host) (x : ListedProcess) : Prop := h.known x = true ∧ h.alive x = false

/-- The record of a process after the exit of `x`. -/
def exited (x : ListedProcess) (p : Proc) : Proc := if p.id = x then { p with live := false } else p

theorem exited_id (x : ListedProcess) (p : Proc) : (exited x p).id = p.id := by
  unfold exited
  split <;> rfl

variable {x : ListedProcess}

theorem exited_eq_of_live {p : Proc} (h : (exited x p).live = true) : exited x p = p := by
  unfold exited at h ⊢
  split
  · rename_i hp
    simp [hp] at h
  · rfl

/-- A process exits. -/
def exit (h : Host) (x : ListedProcess) : Host where
  procs := h.procs.map (exited x)
  unique := by
    intro p' hp' q' hq' hpq
    obtain ⟨p, hp, rfl⟩ := List.mem_map.1 hp'
    obtain ⟨q, hq, rfl⟩ := List.mem_map.1 hq'
    rw [exited_id, exited_id] at hpq
    rw [h.unique p hp q hq hpq]
  livePid := by
    intro p' hp' q' hq' hlive hlive' hpq
    obtain ⟨p, hp, rfl⟩ := List.mem_map.1 hp'
    obtain ⟨q, hq, rfl⟩ := List.mem_map.1 hq'
    have hpe : exited x p = p := exited_eq_of_live hlive
    have hqe : exited x q = q := exited_eq_of_live hlive'
    rw [hpe] at hlive hpq ⊢
    rw [hqe] at hlive' hpq ⊢
    exact h.livePid p hp q hq hlive hlive' hpq

/-- Whether a process may start with this identity: its creation time is new, and no live process
has its id. -/
def Fresh (h : Host) (x : ListedProcess) : Prop :=
  ∀ p ∈ h.procs, p.id ≠ x ∧ (p.live = true → p.id.pid ≠ x.pid)

instance (h : Host) (x : ListedProcess) : Decidable (h.Fresh x) :=
  inferInstanceAs (Decidable (∀ p ∈ h.procs, _))

/-- A process starts. -/
def spawn (h : Host) (x : ListedProcess) (carries : Bool) : Host :=
  if hx : h.Fresh x then
    { procs := ⟨x, carries, true⟩ :: h.procs
      unique := by
        intro p hp q hq hpq
        rcases List.mem_cons.1 hp with rfl | hp <;> rcases List.mem_cons.1 hq with rfl | hq
        · rfl
        · exact absurd hpq.symm (hx q hq).1
        · exact absurd hpq (hx p hp).1
        · exact h.unique p hp q hq hpq
      livePid := by
        intro p hp q hq hlive hlive' hpq
        rcases List.mem_cons.1 hp with rfl | hp <;> rcases List.mem_cons.1 hq with rfl | hq
        · rfl
        · exact absurd hpq.symm ((hx q hq).2 hlive')
        · exact absurd hpq ((hx p hp).2 hlive)
        · exact h.livePid p hp q hq hlive hlive' hpq }
  else h

variable {h : Host}

theorem known_iff : h.known x = true ↔ ∃ p ∈ h.procs, p.id = x := by
  simp [known]

theorem alive_iff : h.alive x = true ↔ ∃ p ∈ h.procs, p.id = x ∧ p.live = true := by
  simp [alive]

theorem carries_iff : h.carries x = true ↔ ∃ p ∈ h.procs, p.id = x ∧ p.carries = true := by
  simp [carries]

theorem mem_carriers (hx : x ∈ h.carriers) : h.alive x = true ∧ h.carries x = true := by
  simp only [carriers, List.mem_map, List.mem_filter, Bool.and_eq_true] at hx
  obtain ⟨p, ⟨hp, hlive, hcarries⟩, hid⟩ := hx
  exact ⟨alive_iff.2 ⟨p, hp, hid, hlive⟩, carries_iff.2 ⟨p, hp, hid, hcarries⟩⟩

/-- What no later host takes back: a process that ran ran, one that is gone is gone, and a token is
what it was. -/
structure Later (h h' : Host) : Prop where
  known : ∀ x, h.known x = true → h'.known x = true
  gone : ∀ x, h.Gone x → h'.Gone x
  carries : ∀ x, h.carries x = true → h'.carries x = true

theorem Later.refl (h : Host) : Later h h := ⟨fun _ hx ↦ hx, fun _ hx ↦ hx, fun _ hx ↦ hx⟩

theorem Later.trans {h₁ h₂ h₃ : Host} (h : Later h₁ h₂) (h' : Later h₂ h₃) : Later h₁ h₃ :=
  ⟨fun x hx ↦ h'.known x (h.known x hx), fun x hx ↦ h'.gone x (h.gone x hx),
    fun x hx ↦ h'.carries x (h.carries x hx)⟩

theorem later_exit (h : Host) (x : ListedProcess) : Later h (h.exit x) := by
  have hknown (y : ListedProcess) (hy : h.known y = true) : (h.exit x).known y = true := by
    obtain ⟨p, hp, rfl⟩ := known_iff.1 hy
    exact known_iff.2 ⟨exited x p, List.mem_map_of_mem hp, exited_id x p⟩
  refine ⟨hknown, fun y hy ↦ ⟨hknown y hy.1, ?_⟩, fun y hy ↦ ?_⟩
  · rw [Bool.eq_false_iff]
    intro halive
    obtain ⟨p', hp', hid, hlive⟩ := alive_iff.1 halive
    obtain ⟨p, hp, rfl⟩ := List.mem_map.1 hp'
    rw [exited_eq_of_live hlive] at hid hlive
    exact absurd (alive_iff.2 ⟨p, hp, hid, hlive⟩) (by simp [hy.2])
  · obtain ⟨p, hp, rfl, hcarries⟩ := carries_iff.1 hy
    refine carries_iff.2 ⟨exited x p, List.mem_map_of_mem hp, exited_id x p, ?_⟩
    unfold exited
    split <;> exact hcarries

theorem later_spawn (h : Host) (x : ListedProcess) (c : Bool) : Later h (h.spawn x c) := by
  unfold spawn
  split
  · rename_i hx
    have hmem {p : Proc} (hp : p ∈ h.procs) : p ∈ (⟨x, c, true⟩ :: h.procs : List Proc) :=
      .tail _ hp
    have hknown (y : ListedProcess) (hy : h.known y = true) : ∃ p ∈ h.procs, p.id = y :=
      known_iff.1 hy
    refine ⟨fun y hy ↦ ?_, fun y hy ↦ ⟨?_, ?_⟩, fun y hy ↦ ?_⟩
    · obtain ⟨p, hp, hid⟩ := hknown y hy
      exact known_iff.2 ⟨p, hmem hp, hid⟩
    · obtain ⟨p, hp, hid⟩ := hknown y hy.1
      exact known_iff.2 ⟨p, hmem hp, hid⟩
    · rw [Bool.eq_false_iff]
      intro halive
      obtain ⟨q, hq, hid, hlive⟩ := alive_iff.1 halive
      rcases List.mem_cons.1 hq with rfl | hq
      · -- The identity is new, and `y` is known.
        obtain ⟨p, hp, hpid⟩ := hknown y hy.1
        exact (hx p hp).1 (hpid.trans hid.symm)
      · exact absurd (alive_iff.2 ⟨q, hq, hid, hlive⟩) (by simp [hy.2])
    · obtain ⟨p, hp, hid, hcarries⟩ := carries_iff.1 hy
      exact carries_iff.2 ⟨p, hmem hp, hid, hcarries⟩
  · exact Later.refl h

/-- The process that an id leads to is the live one that has it. -/
theorem liveAt_of_alive (hx : h.alive x = true) : ∃ p, h.liveAt x.pid = some p ∧ p.id = x := by
  obtain ⟨p, hp, rfl, hlive⟩ := alive_iff.1 hx
  rcases hfind : h.liveAt p.id.pid with - | q
  · have hnone := List.find?_eq_none.1 hfind p hp
    simp [hlive] at hnone
  · have hq := List.find?_some hfind
    simp only [Bool.and_eq_true, beq_iff_eq] at hq
    have hmem : q ∈ h.procs := List.mem_of_find?_eq_some hfind
    exact ⟨q, rfl, congrArg Proc.id (h.livePid q hmem p hp hq.1 hlive hq.2)⟩

theorem liveAt_spec {pid : Nat} {p : Proc} (hp : h.liveAt pid = some p) :
    h.alive p.id = true ∧ p.id.pid = pid := by
  have hq := List.find?_some hp
  simp only [Bool.and_eq_true, beq_iff_eq] at hq
  exact ⟨alive_iff.2 ⟨p, List.mem_of_find?_eq_some hp, rfl, hq.1⟩, hq.2⟩

end Host

/-! ### The world of the stop wait -/

/-- What the stop wait did, as far as its rules are about it. -/
inductive StopEvent
  | read (o : Observed)
  | arm (states : List Observed)
  /-- An arm that failed, which leaves nothing armed. -/
  | armRefused
  | stop (accepted : Bool)
  /-- A sleep on the armed notification; `lost` says that the service had moved into a state it was
  armed for, and that nothing would wake the sleeper. -/
  | wait (lost : Bool)
  | terminate (pid : Nat)

/-- The states for which a notification is armed. -/
def armedFor : List StopEvent → Option (List Observed)
  | [] => none
  | .arm states :: _ => some states
  | .armRefused :: _ => none
  | .wait _ :: _ => none
  | .read _ :: log => armedFor log
  | .stop _ :: log => armedFor log
  | .terminate _ :: log => armedFor log

/-- The host and the SCM, with what the stop wait did so far. -/
structure World where
  host : Host
  scm : Observed
  fired : Bool
  /-- Newest first. -/
  log : List StopEvent
  listed : Option (List ListedProcess)
  /-- The ids whose probe failed since. -/
  unprobed : List Nat

/-- What can happen between two calls. -/
inductive Happening
  | exits (x : ListedProcess)
  | spawns (x : ListedProcess) (carries : Bool)
  | enters (o : Observed)

/-- One thing happens. -/
def World.happen (w : World) : Happening → World
  | .exits x => { w with host := w.host.exit x }
  | .spawns x carries => { w with host := w.host.spawn x carries }
  | .enters o =>
    { w with
      scm := o
      fired := w.fired || (armedFor w.log).any fun states ↦ states.contains o }

/-- How one call goes. -/
structure Turn where
  /-- What happened since the call before. -/
  happenings : List Happening
  failed : Option (Option Nat)
  pid : Nat
  /-- The exited process that an open finds where no live one has the id. -/
  zombie : Option ListedProcess
  listing : List ListedProcess

/-- The world in which a call is made. -/
def World.at (w : World) (t : Turn) : World := t.happenings.foldl World.happen w

/-- A listing names every live process, and none that never ran. -/
def Host.Lists (h : Host) (listing : List ListedProcess) : Prop :=
  (∀ p ∈ h.procs, p.live = true → p.id ∈ listing) ∧ ∀ x ∈ listing, h.known x = true

instance (h : Host) (listing : List ListedProcess) : Decidable (h.Lists listing) :=
  inferInstanceAs (Decidable (_ ∧ _))

/-- The listing of a call. -/
def Turn.listingOf (t : Turn) (h : Host) : List ListedProcess :=
  if h.Lists t.listing then t.listing else h.procs.map (·.id)

/-- A call that answers `a` unless it fails. -/
def Turn.orFailed {α : Type} (t : Turn) (call : ScmCall) (a : α) : Except CallError α :=
  match t.failed with
  | some code => .error ⟨call, code⟩
  | none => .ok a

/-- The answer of an open. That no process has the id is answered only where none has it. -/
def Turn.opened (t : Turn) (h : Host) (pid : Nat) : Except CallError ListedProcess :=
  match h.liveAt pid with
  | some p =>
    if t.failed = some (some errorInvalidParameter) then .ok p.id
    else t.orFailed .openProcess p.id
  | none =>
    match t.zombie with
    | some z =>
      if h.known z = true ∧ z.pid = pid then t.orFailed .openProcess z
      else .error ⟨.openProcess, some errorInvalidParameter⟩
    | none => .error ⟨.openProcess, some errorInvalidParameter⟩

/-- The sleeper would not be woken. -/
def World.lost (w : World) : Bool :=
  match armedFor w.log with
  | none => true
  | some states => !w.fired && states.contains w.scm

/-- What the calls answer, in the world in which they are made. -/
def worldAnswer (w : World) (t : Turn) : (o : StopOp) → o.Ans
  | .read => t.orFailed .queryServiceStatusEx ⟨w.scm, t.pid⟩
  | .openProcess pid => t.opened w.host pid
  | .processTimes h => t.orFailed .getProcessTimes h.created
  | .tokenCarries h => t.orFailed .openProcessToken (w.host.carries h)
  | .hasExited h => t.orFailed .waitForSingleObject (!w.host.alive h)
  | .list => t.orFailed .processList (t.listingOf w.host)
  | .arm _ => t.orFailed .notifyServiceStatusChange ()
  | .controlStop => t.orFailed .controlService ()
  | .awaitCallback =>
    if (armedFor w.log).isNone then .error ⟨.notifyServiceStatusChange, none⟩
    else t.orFailed .notifyServiceStatusChange ()
  | .terminate _ => t.orFailed .terminateProcess ()
  | .waitOnEach _ _ => t.orFailed .waitForSingleObject ()

/-- One more thing that the stop wait did. -/
def World.record (w : World) (e : StopEvent) : World := { w with log := e :: w.log }

/-- A probe that failed. -/
def World.unprobe (w : World) (pid : Nat) : World := { w with unprobed := pid :: w.unprobed }

/-- What the calls leave. -/
def worldNext (w : World) (t : Turn) : StopOp → World
  | .read => if t.failed.isSome then w else w.record (.read w.scm)
  | .openProcess pid =>
    match t.opened w.host pid with
    | .error e => if ProbeFailure.ofError e = .noSuchProcess then w else w.unprobe pid
    | .ok _ => w
  | .processTimes h => if t.failed.isSome then w.unprobe h.pid else w
  | .tokenCarries h => if t.failed.isSome then w.unprobe h.pid else w
  | .hasExited _ => w
  | .list =>
    if t.failed.isSome then w else { w with listed := some w.host.carriers, unprobed := [] }
  | .arm states =>
    if t.failed.isSome then w.record .armRefused
    else { w.record (.arm states) with fired := states.contains w.scm }
  | .controlStop => w.record (.stop t.failed.isNone)
  | .awaitCallback => w.record (.wait w.lost)
  | .terminate pid =>
    if t.failed.isSome then w.record (.terminate pid)
    else
      match w.host.liveAt pid with
      | some p => { w.record (.terminate pid) with host := w.host.exit p.id }
      | none => w.record (.terminate pid)
  | .waitOnEach _ _ => w

/-- The host and the SCM. -/
def world : Env StopOp StopOp.Ans World Turn where
  answer w o t := worldAnswer (w.at t) t o
  next w o t := worldNext (w.at t) t o

end Hole.Service
