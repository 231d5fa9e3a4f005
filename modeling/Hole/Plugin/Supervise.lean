import Mathlib.Data.List.Basic
import Hole.Effect.Trace

/-!
# The end of a plugin

`supervise` of `crates/garter/src/binary.rs` and what it calls: how a plugin whose root runs, exits
or is taken down comes to its end. Every call on its `PluginTree`, and every answer of the two
readers of its output, is up to the surroundings.

A `select!` is decided by one poll that finds something ready, and it is biased, so what is listed
first wins whatever else is ready too. `Polled` is what such a poll found.

Every way a plugin ends by but one is an *ending*: nothing follows its reap but the `disarm`
(`Ending`). The exception is the root that no exit watch can watch, which is reaped first.
-/

namespace Hole.Plugin.Supervise

open Effect
open Prog (hasTrace_call hasTrace_bind only_perform only_pure hasTrace_pure)

/-! ### The containment -/

/-- `Containment`. It is `#[non_exhaustive]`: `other` is a mechanism that is not named. -/
inductive Containment
  | cgroupV2
  | jobObject
  | processGroup
  | session
  | fdMarker
  | treeWalk
  | delegated
  | none
  | other

/-- `exit_edge_proves_the_tree_gone`. -/
def exitEdgeProvesTheTreeGone : Containment → Bool
  | .cgroupV2 | .jobObject => true
  | _ => false

/-- `kill_tree_addresses_a_releasable_id`. -/
def killTreeAddressesAReleasableId : Containment → Bool
  | .cgroupV2 | .jobObject | .delegated | .none => false
  | .processGroup | .session | .fdMarker | .treeWalk | .other => true

/-! ### The surroundings -/

/-- `cosca::error::Error`, by its text. -/
abbrev CoscaError := String

/-- `ExitStatus::code`. A root that a signal killed has none. -/
structure ExitStatus where
  code : Option Int

/-- `Takedown`. -/
inductive Takedown
  | shutdown
  | startFailed

/-- What the poll that decided a biased `select!` found ready: the future listed first, which
answers `α`, and the two futures of `takedown_requested`. A start can fail only where there is a
`FailureHold`. -/
structure Polled (hold : Bool) (α : Type) where
  done : Option α
  shutdown : Bool
  startFailed : Bool
  held : startFailed = true → hold = true
  ready : (done.isSome || shutdown || startFailed) = true

/-- A start that has not failed needs no hold. -/
theorem held_of_not_failed {hold : Bool} : false = true → hold = true :=
  fun h ↦ absurd h Bool.false_ne_true

/-- `takedown_requested`, where it is ready. -/
def Polled.takedownRequested {hold : Bool} {α : Type} (p : Polled hold α) : Takedown :=
  if p.shutdown then .shutdown else .startFailed

/-- The take-down that wins the `select!`. -/
def Polled.takedown? {hold : Bool} {α : Type} (p : Polled hold α) : Option Takedown :=
  if p.done.isSome then none else some p.takedownRequested

/-- The tasks that read the output of a plugin. -/
inductive Reader
  | stdout
  | stderr

/-- The calls of the supervision. -/
inductive Op
  /-- `select!` of `wait_root_exit` and `takedown_requested`. -/
  | waitRootExitOrTakedown (hold : Bool)
  /-- `select!` of `reap` and `takedown_requested`. The `reap` that loses is dropped. -/
  | reapOrTakedown (hold : Bool)
  | waitRootExitWithin (grace : Nat)
  | terminate
  | killRoot
  | killTree
  | waitTreeDrained
  | reap
  | disarm
  | markTakenDown
  /-- Both readers, for at most `READER_EOF_BOUND`. -/
  | joinReaders
  | isFinished (r : Reader)
  | abort (r : Reader)
  | join (r : Reader)

/-- What a call answers. -/
@[reducible] def Op.Ans : Op → Type
  | waitRootExitOrTakedown hold => Polled hold (Except CoscaError Unit)
  | reapOrTakedown hold => Polled hold (Except CoscaError ExitStatus)
  | waitRootExitWithin _ => Except CoscaError Bool
  | terminate | killRoot | killTree | waitTreeDrained => Except CoscaError Unit
  | reap => Except CoscaError ExitStatus
  | disarm | markTakenDown | abort _ | join _ => Unit
  | joinReaders | isFinished _ => Bool

/-- A call of the supervision with its answer. -/
abbrev Event := Exchange Op.Ans

/-- A part of the supervision. -/
abbrev Supervision := Prog Op Op.Ans

/-- Make a call and wait for its answer. -/
abbrev act (o : Op) : Supervision o.Ans := Prog.perform o

/-- `PluginEnd`. -/
inductive PluginEnd
  | exited (status : ExitStatus)
  | shutDown

/-! ### The programs -/

/-- The end of a reader that missed the bound. -/
def endReader (r : Reader) : Supervision Unit := do
  if ← act (.isFinished r) then
    return
  act (.abort r)
  act (.join r)

/-- `wait_for_readers`. -/
def waitForReaders : Supervision Unit := do
  if ← act .joinReaders then
    return
  endReader .stdout
  endReader .stderr

/-- `drain_readers_after_exit`. -/
def drainReadersAfterExit (c : Containment) : Supervision Unit := do
  match ← act .killTree with
  | .ok () =>
    if exitEdgeProvesTheTreeGone c then
      let _ ← act .waitTreeDrained
      waitForReaders
    else waitForReaders
  | .error _ => waitForReaders

/-- What `reap_root` does with the answer of `reap`. -/
def settleReap : Except CoscaError ExitStatus → Supervision (Except CoscaError ExitStatus)
  | .ok status => do
    act .disarm
    return .ok status
  | .error e => return .error e

/-- `reap_root`. -/
def reapRoot : Supervision (Except CoscaError ExitStatus) := do
  settleReap (← act .reap)

/-- `end_plugin`. -/
def endPlugin (c : Containment) : Supervision (Except CoscaError ExitStatus) := do
  drainReadersAfterExit c
  reapRoot

/-- `end_exited_plugin`. -/
def endExitedPlugin (c : Containment) : Supervision (Except CoscaError PluginEnd) :=
  return (← endPlugin c).map .exited

/-- `end_reaped_plugin`. -/
def endReapedPlugin (c : Containment) : Supervision Unit :=
  if killTreeAddressesAReleasableId c then waitForReaders else drainReadersAfterExit c

/-- `end_after_reap`. -/
def endAfterReap (c : Containment) :
    Except CoscaError ExitStatus → Supervision (Except CoscaError PluginEnd)
  | .ok status => do
    endReapedPlugin c
    return .ok (.exited status)
  | .error e => do
    waitForReaders
    return .error e

/-- The zero-grace or bounded watch of `root_has_exited` and `watch_root_exit_within`. -/
def watchRootExitWithin (grace : Nat) : Supervision Bool := do
  match ← act (.waitRootExitWithin grace) with
  | .ok exited => return exited
  | .error _ => return false

/-- `root_has_exited`. -/
def rootHasExited : Supervision Bool := watchRootExitWithin 0

/-- How `finish_plugin` ends a plugin whose root could not be killed. -/
def endRefused (c : Containment) (refusal : CoscaError) :
    Supervision (Except CoscaError ExitStatus) := do
  drainReadersAfterExit c
  if ← rootHasExited then
    let _ ← reapRoot
    return .error refusal
  else return .error refusal

/-- `finish_plugin`. -/
def finishPlugin (c : Containment) (exitedWithinGrace : Bool) :
    Supervision (Except CoscaError ExitStatus) := do
  if exitedWithinGrace then endPlugin c
  else
    match ← act .killRoot with
    | .ok () => endPlugin c
    | .error refusal => endRefused c refusal

/-- `shut_plugin_down`. -/
def shutPluginDown (c : Containment) (grace : Nat) :
    Supervision (Except CoscaError ExitStatus) := do
  match ← act .terminate with
  | .ok () => finishPlugin c (← watchRootExitWithin grace)
  | .error _ => finishPlugin c false

/-- `shut_down_on_request`. -/
def shutDownOnRequest (c : Containment) (grace : Nat) :
    Supervision (Except CoscaError PluginEnd) :=
  return (← shutPluginDown c grace).map fun _ ↦ .shutDown

/-- `end_failed_start`. -/
def endFailedStart (c : Containment) (grace : Nat) : Supervision (Except CoscaError PluginEnd) := do
  let exited ← watchRootExitWithin grace
  return (← finishPlugin c exited).map fun status ↦ if exited then .exited status else .shutDown

/-- `Takedown::carry_out`. -/
def Takedown.carryOut (c : Containment) (hold : Bool) (grace : Nat) :
    Takedown → Supervision (Except CoscaError PluginEnd)
  | .shutdown => do
    if hold then
      act .markTakenDown
      shutDownOnRequest c grace
    else shutDownOnRequest c grace
  | .startFailed => endFailedStart c grace

/-- `supervise`. -/
def supervise (c : Containment) (hold : Bool) (grace : Nat) :
    Supervision (Except CoscaError PluginEnd) := do
  let polled ← act (.waitRootExitOrTakedown hold)
  match polled.done with
  | some (.ok ()) => endExitedPlugin c
  | some (.error _) =>
    let polled ← act (.reapOrTakedown hold)
    match polled.done with
    | some reaped => endAfterReap c (← settleReap reaped)
    | none => polled.takedownRequested.carryOut c hold grace
  | none =>
    if ← rootHasExited then endExitedPlugin c
    else polled.takedownRequested.carryOut c hold grace

/-! ### What a run may do -/

/-- The answer of a `reap` that was not dropped. -/
def reapAnswer? : Event → Option (Except CoscaError ExitStatus)
  | ⟨.reap, answer⟩ => some answer
  | ⟨.reapOrTakedown _, polled⟩ => polled.done
  | _ => none

/-- The root is reaped. -/
def Reaps (e : Event) : Prop := ∃ status, reapAnswer? e = some (.ok status)

/-- A watch says that the root has exited, or the root is killed. -/
inductive Dooms : Event → Prop
  | exited {hold : Bool} {polled : Polled hold (Except CoscaError Unit)}
      (h : polled.done = some (.ok ())) : Dooms ⟨.waitRootExitOrTakedown hold, polled⟩
  | exitedWithin (grace : Nat) : Dooms ⟨.waitRootExitWithin grace, .ok true⟩
  | killed : Dooms ⟨.killRoot, .ok ()⟩

/-- No exit watch works. -/
inductive Unwatchable : Event → Prop
  | mk {hold : Bool} {polled : Polled hold (Except CoscaError Unit)} {e : CoscaError}
      (h : polled.done = some (.error e)) : Unwatchable ⟨.waitRootExitOrTakedown hold, polled⟩

/-- The take-down that a `select!` was decided for. -/
def takedown? : Event → Option Takedown
  | ⟨.waitRootExitOrTakedown _, polled⟩ => polled.takedown?
  | ⟨.reapOrTakedown _, polled⟩ => polled.takedown?
  | _ => none

/-- The reader is known to have ended. -/
inductive EndsReader (r : Reader) : Event → Prop
  | joined : EndsReader r ⟨.joinReaders, true⟩
  | finished : EndsReader r ⟨.isFinished r, true⟩
  | aborted : EndsReader r ⟨.join r, ()⟩

/-- Both readers end in the run. -/
def ReadersEnd (t : List Event) : Prop := ∀ r, ∃ e ∈ t, EndsReader r e

/-- What the supervision of a plugin keeps to. -/
structure Orderly (c : Containment) (t : List Event) : Prop where
  /-- The root is reaped at most once, and disarmed next. -/
  reapsOnce : ∀ a e b, t = a ++ e :: b → Reaps e →
    (∀ e' ∈ a, ¬ Reaps e') ∧ ∃ b', b = ⟨.disarm, ()⟩ :: b' ∧ ∀ e' ∈ b', ¬ Reaps e'
  /-- A released id is not killed. -/
  killsItsOwn : ∀ a e b, t = a ++ e :: b → Reaps e → killTreeAddressesAReleasableId c →
    ∀ e' ∈ b, e'.1 ≠ .killTree
  /-- Only a doomed root is reaped, where its exit can be watched or a take-down is carried out. -/
  reapsTheDoomed : ∀ a e b, t = a ++ e :: b → (reapAnswer? e).isSome →
    (∃ e' ∈ a, Dooms e') ∨ ((∃ e' ∈ a, Unwatchable e') ∧ ∀ e' ∈ t, takedown? e' = none)
  /-- A plugin whose start failed is not asked to exit. -/
  asksNoFailedStart : (∃ e ∈ t, takedown? e = some .startFailed) → ∀ e ∈ t, e.1 ≠ .terminate
  /-- The tree of a reaped root is killed. -/
  killsTheTree : ∀ a e b, t = a ++ e :: b → Reaps e → (∃ e' ∈ a, e'.1 = .killTree) ∨
    (∃ e' ∈ a, Unwatchable e') ∧ ((∃ e' ∈ b, e'.1 = .killTree) ∨ killTreeAddressesAReleasableId c)
  readersEnd : ReadersEnd t

/-! ### The readers -/

/-- A call that is neither a `select!` nor a reap. -/
def Op.isPlain : Op → Bool
  | waitRootExitOrTakedown _ | reapOrTakedown _ | reap => false
  | _ => true

/-- A call on a reader. -/
def Op.isOnReader : Op → Bool
  | joinReaders | isFinished _ | abort _ | join _ => true
  | _ => false

theorem Op.isPlain_of_isOnReader {o : Op} (h : o.isOnReader) : o.isPlain := by
  cases o <;> simp_all [isOnReader, isPlain]

theorem Op.ne_killTree_of_isOnReader {o : Op} (h : o.isOnReader) : o ≠ killTree := by
  rintro rfl
  exact absurd h (by decide)

theorem reapAnswer?_of_isPlain {e : Event} (h : e.1.isPlain) : reapAnswer? e = none := by
  obtain ⟨o, x⟩ := e
  cases o <;> simp_all [Op.isPlain, reapAnswer?]

theorem takedown?_of_isPlain {e : Event} (h : e.1.isPlain) : takedown? e = none := by
  obtain ⟨o, x⟩ := e
  cases o <;> simp_all [Op.isPlain, takedown?]

variable {c : Containment} {hold : Bool} {grace : Nat} {t : List Event} {u : Unit}

theorem ReadersEnd.append_right {t' : List Event} (h : ReadersEnd t) : ReadersEnd (t ++ t') := by
  intro r
  obtain ⟨e, he, hr⟩ := h r
  exact ⟨e, List.mem_append_left _ he, hr⟩

theorem ReadersEnd.cons {e : Event} (h : ReadersEnd t) : ReadersEnd (e :: t) := by
  intro r
  obtain ⟨e', he, hr⟩ := h r
  exact ⟨e', .tail _ he, hr⟩

theorem endsReader_of_endReader {r : Reader} (h : (endReader r).HasTrace t u) :
    ∃ e ∈ t, EndsReader r e := by
  obtain ⟨isFinished, t₁, rfl, h₁⟩ := hasTrace_call.1 h
  cases isFinished with
  | true => exact ⟨_, .head _, .finished⟩
  | false =>
    obtain ⟨_, t₂, rfl, h₂⟩ := hasTrace_call.1 h₁
    obtain rfl := Prog.hasTrace_perform.1 h₂
    exact ⟨_, by simp, .aborted⟩

theorem readersEnd_of_waitForReaders (h : waitForReaders.HasTrace t u) : ReadersEnd t := by
  obtain ⟨joined, t₁, rfl, h₁⟩ := hasTrace_call.1 h
  cases joined with
  | true => exact fun r ↦ ⟨_, .head _, .joined⟩
  | false =>
    have hreaders : (endReader .stdout >>= fun _ ↦ endReader .stderr).HasTrace t₁ u := h₁
    obtain ⟨t₂, t₃, _, rfl, h₂, h₃⟩ := hasTrace_bind.1 hreaders
    refine ReadersEnd.cons fun r ↦ ?_
    cases r with
    | stdout =>
      obtain ⟨e, he, hr⟩ := endsReader_of_endReader h₂
      exact ⟨e, List.mem_append_left _ he, hr⟩
    | stderr =>
      obtain ⟨e, he, hr⟩ := endsReader_of_endReader h₃
      exact ⟨e, List.mem_append_right _ he, hr⟩

section

variable {P : Op → Prop}

theorem only_endReader (hP : ∀ o : Op, o.isOnReader → P o) (r : Reader) : (endReader r).Only P := by
  refine Prog.Only.bind (only_perform (hP _ rfl)) fun isFinished ↦ ?_
  cases isFinished with
  | true => exact only_pure ()
  | false => exact ⟨hP _ rfl, fun _ ↦ only_perform (hP _ rfl)⟩

theorem only_waitForReaders (hP : ∀ o : Op, o.isOnReader → P o) : waitForReaders.Only P := by
  refine Prog.Only.bind (only_perform (hP _ rfl)) fun joined ↦ ?_
  cases joined with
  | true => exact only_pure ()
  | false => exact (only_endReader hP .stdout).bind fun _ ↦ only_endReader hP .stderr

end

theorem isPlain_of_waitForReaders (h : waitForReaders.HasTrace t u) : ∀ e ∈ t, e.1.isPlain :=
  h.forall_of_only (only_waitForReaders fun _ ↦ Op.isPlain_of_isOnReader)

/-- A drain kills the tree and ends the readers. -/
structure Drained (t : List Event) : Prop where
  plain : ∀ e ∈ t, e.1.isPlain
  killsTree : ∃ e ∈ t, e.1 = .killTree
  readersEnd : ReadersEnd t

theorem Drained.of_waitForReaders (answer : Except CoscaError Unit)
    (h : waitForReaders.HasTrace t u) : Drained (⟨.killTree, answer⟩ :: t) where
  plain := List.forall_mem_cons.2 ⟨rfl, isPlain_of_waitForReaders h⟩
  killsTree := ⟨_, .head _, rfl⟩
  readersEnd := (readersEnd_of_waitForReaders h).cons

theorem drained_of_hasTrace (h : (drainReadersAfterExit c).HasTrace t u) : Drained t := by
  obtain ⟨answer, t₁, rfl, h₁⟩ := hasTrace_call.1 h
  cases answer with
  | error e => exact .of_waitForReaders _ h₁
  | ok =>
    change Prog.HasTrace (if _ then _ else _) _ _ at h₁
    split at h₁
    · obtain ⟨drained, t₂, rfl, h₂⟩ := hasTrace_call.1 h₁
      exact
        { plain := by
            rw [List.forall_mem_cons, List.forall_mem_cons]
            exact ⟨rfl, rfl, isPlain_of_waitForReaders h₂⟩
          killsTree := ⟨_, .head _, rfl⟩
          readersEnd := (readersEnd_of_waitForReaders h₂).cons.cons }
    · exact .of_waitForReaders _ h₁

/-! ### Endings -/

/-- The ways the calls of `reap_root` can go. -/
theorem eq_of_reapRoot {r : Except CoscaError ExitStatus} (h : reapRoot.HasTrace t r) :
    (∃ status, t = [⟨.reap, .ok status⟩, ⟨.disarm, ()⟩]) ∨ ∃ e, t = [⟨.reap, .error e⟩] := by
  obtain ⟨answer, t₁, rfl, h₁⟩ := hasTrace_call.1 h
  cases answer with
  | ok status =>
    obtain ⟨_, t₂, rfl, h₂⟩ := hasTrace_call.1 h₁
    obtain ⟨rfl, -⟩ := hasTrace_pure.1 h₂
    exact .inl ⟨status, rfl⟩
  | error e =>
    obtain ⟨rfl, -⟩ := hasTrace_pure.1 h₁
    exact .inr ⟨e, rfl⟩

/-- Computing from the answer of a program makes no calls. -/
theorem hasTrace_of_bind_pure {α β : Type} {p : Supervision α} {f : α → β} {r : β}
    (h : (p >>= fun a ↦ pure (f a)).HasTrace t r) : ∃ a, p.HasTrace t a := by
  obtain ⟨t₁, t₂, a, rfl, h₁, h₂⟩ := hasTrace_bind.1 h
  obtain ⟨rfl, -⟩ := hasTrace_pure.1 h₂
  exact ⟨a, by rwa [List.append_nil]⟩

/-- A run that ends a plugin. If the root is not doomed yet, then the run dooms it before it reaps
it, and nothing but the `disarm` follows the reap. -/
structure Ending (doomed : Prop) (t : List Event) : Prop where
  carriesNoneOut : ∀ e ∈ t, takedown? e = none
  reapsLast : ∀ a e b, t = a ++ e :: b → (reapAnswer? e).isSome →
    (∀ e' ∈ a, reapAnswer? e' = none) ∧ (doomed ∨ ∃ e' ∈ a, Dooms e') ∧
      (∃ e' ∈ a, e'.1 = .killTree) ∧ (Reaps e → b = [⟨.disarm, ()⟩])
  readersEnd : ReadersEnd t

/-- The one place of a run where a reap can be. -/
theorem eq_of_reapAnswer? {t' a b : List Event} {e₀ e : Event}
    (ht : ∀ e ∈ t, reapAnswer? e = none) (ht' : ∀ e ∈ t', reapAnswer? e = none)
    (h : t ++ e₀ :: t' = a ++ e :: b) (he : (reapAnswer? e).isSome) :
    t = a ∧ e₀ = e ∧ t' = b := by
  refine (List.append_cons_inj_of_notMem ?_ ?_).1 h
  · intro hmem
    simp [ht e hmem] at he
  · intro hmem
    simp [ht' e hmem] at he

section

variable {doomed : Prop}

theorem Ending.of_plain (ht : ∀ e ∈ t, e.1.isPlain) (hr : ReadersEnd t) : Ending doomed t where
  carriesNoneOut e he := takedown?_of_isPlain (ht e he)
  reapsLast a e b hab he := by
    have hnone : reapAnswer? e = none := reapAnswer?_of_isPlain (ht e (by simp [hab]))
    simp [hnone] at he
  readersEnd := hr

theorem Ending.cons {e : Event} (he : e.1.isPlain) (h : Ending (doomed ∨ Dooms e) t) :
    Ending doomed (e :: t) where
  carriesNoneOut := List.forall_mem_cons.2 ⟨takedown?_of_isPlain he, h.carriesNoneOut⟩
  reapsLast a e' b hab he' := by
    have hnone : reapAnswer? e = none := reapAnswer?_of_isPlain he
    cases a with
    | nil =>
      obtain ⟨rfl, rfl⟩ := List.cons.inj hab
      simp [hnone] at he'
    | cons x a =>
      obtain ⟨rfl, htab⟩ := List.cons.inj hab
      obtain ⟨hfirst, hdoomed, ⟨k, hk, hkill⟩, hlast⟩ := h.reapsLast a e' b htab he'
      refine ⟨List.forall_mem_cons.2 ⟨hnone, hfirst⟩, ?_, ⟨k, .tail _ hk, hkill⟩,
        hlast⟩
      obtain (hdoomed | hdooms) | ⟨d, hd, hdooms⟩ := hdoomed
      · exact .inl hdoomed
      · exact .inr ⟨e, .head _, hdooms⟩
      · exact .inr ⟨d, .tail _ hd, hdooms⟩
  readersEnd := h.readersEnd.cons

variable {r : Except CoscaError ExitStatus}

/-- A run that drains the plugin and reaps its doomed root. -/
theorem Ending.of_reapRoot {t' : List Event} (ht : Drained t) (hd : doomed ∨ ∃ e ∈ t, Dooms e)
    (h : reapRoot.HasTrace t' r) : Ending doomed (t ++ t') := by
  have hnone : ∀ e ∈ t, reapAnswer? e = none := fun e he ↦ reapAnswer?_of_isPlain (ht.plain e he)
  have hcarries : ∀ e ∈ t, takedown? e = none := fun e he ↦ takedown?_of_isPlain (ht.plain e he)
  obtain ⟨status, rfl⟩ | ⟨err, rfl⟩ := eq_of_reapRoot h
  · refine ⟨?_, fun a e b hab he ↦ ?_, ht.readersEnd.append_right⟩
    · exact List.forall_mem_append.2 ⟨hcarries, by simp [takedown?]⟩
    · obtain ⟨rfl, rfl, rfl⟩ := eq_of_reapAnswer? hnone (by simp [reapAnswer?]) hab he
      exact ⟨hnone, hd, ht.killsTree, fun _ ↦ rfl⟩
  · refine ⟨?_, fun a e b hab he ↦ ?_, ht.readersEnd.append_right⟩
    · exact List.forall_mem_append.2 ⟨hcarries, by simp [takedown?]⟩
    · obtain ⟨rfl, rfl, rfl⟩ := eq_of_reapAnswer? hnone (by simp) hab he
      refine ⟨hnone, hd, ht.killsTree, ?_⟩
      rintro ⟨status, hstatus⟩
      simp [reapAnswer?] at hstatus

theorem ending_endPlugin (hd : doomed) (h : (endPlugin c).HasTrace t r) : Ending doomed t := by
  obtain ⟨t₁, t₂, _, rfl, h₁, h₂⟩ := hasTrace_bind.1 h
  exact .of_reapRoot (drained_of_hasTrace h₁) (.inl hd) h₂

theorem eq_of_watchRootExitWithin {exited : Bool}
    (h : (watchRootExitWithin grace).HasTrace t exited) :
    ∃ answer, t = [⟨.waitRootExitWithin grace, answer⟩] ∧
      (exited = true → Dooms ⟨.waitRootExitWithin grace, answer⟩) := by
  obtain ⟨answer, t₁, rfl, h₁⟩ := hasTrace_call.1 h
  cases answer with
  | ok watched =>
    obtain ⟨rfl, rfl⟩ := hasTrace_pure.1 h₁
    refine ⟨_, rfl, ?_⟩
    rintro rfl
    exact .exitedWithin grace
  | error e =>
    obtain ⟨rfl, rfl⟩ := hasTrace_pure.1 h₁
    exact ⟨_, rfl, nofun⟩

theorem ending_endRefused {refusal : CoscaError} (h : (endRefused c refusal).HasTrace t r) :
    Ending doomed t := by
  obtain ⟨t₁, t₂, _, rfl, h₁, h₂⟩ := hasTrace_bind.1 h
  obtain ⟨t₃, t₄, exited, rfl, h₃, h₄⟩ := hasTrace_bind.1 h₂
  obtain ⟨answer, rfl, hdooms⟩ := eq_of_watchRootExitWithin h₃
  have hdrained := drained_of_hasTrace h₁
  have hwatched : Drained (t₁ ++ [⟨.waitRootExitWithin 0, answer⟩]) :=
    { plain := List.forall_mem_append.2 ⟨hdrained.plain, by simp [Op.isPlain]⟩
      killsTree := by
        obtain ⟨e, he, hkill⟩ := hdrained.killsTree
        exact ⟨e, List.mem_append_left _ he, hkill⟩
      readersEnd := hdrained.readersEnd.append_right }
  rw [← List.append_assoc]
  cases exited with
  | true =>
    obtain ⟨_, h₅⟩ := hasTrace_of_bind_pure h₄
    exact .of_reapRoot hwatched (.inr ⟨_, by simp, hdooms rfl⟩) h₅
  | false =>
    obtain ⟨rfl, -⟩ := hasTrace_pure.1 h₄
    rw [List.append_nil]
    exact .of_plain hwatched.plain hwatched.readersEnd

theorem ending_finishPlugin {exited : Bool} (hd : exited = true → doomed)
    (h : (finishPlugin c exited).HasTrace t r) : Ending doomed t := by
  cases exited with
  | true => exact ending_endPlugin (hd rfl) h
  | false =>
    obtain ⟨answer, t₁, rfl, h₁⟩ := hasTrace_call.1 h
    cases answer with
    | ok => exact .cons rfl (ending_endPlugin (.inr .killed) h₁)
    | error refusal => exact .cons rfl (ending_endRefused h₁)

/-- A root that is watched for its grace, and then finished. -/
theorem ending_watched {α : Type} {f : Bool → Supervision α} {r : α}
    (hf : ∀ {exited t doomed}, (exited = true → doomed) → (f exited).HasTrace t r → Ending doomed t)
    (h : (watchRootExitWithin grace >>= f).HasTrace t r) : Ending doomed t := by
  obtain ⟨t₁, t₂, exited, rfl, h₁, h₂⟩ := hasTrace_bind.1 h
  obtain ⟨answer, rfl, hdooms⟩ := eq_of_watchRootExitWithin h₁
  exact .cons rfl (hf (fun hexited ↦ .inr (hdooms hexited)) h₂)

theorem ending_shutPluginDown (h : (shutPluginDown c grace).HasTrace t r) : Ending doomed t := by
  obtain ⟨answer, t₁, rfl, h₁⟩ := hasTrace_call.1 h
  cases answer with
  | ok => exact .cons rfl (ending_watched ending_finishPlugin h₁)
  | error e =>
    have h₂ : (finishPlugin c false).HasTrace t₁ r := h₁
    exact .cons rfl (ending_finishPlugin (by simp) h₂)

theorem ending_endFailedStart {r : Except CoscaError PluginEnd}
    (h : (endFailedStart c grace).HasTrace t r) : Ending doomed t := by
  refine ending_watched (fun {exited t' doomed'} hd h' ↦ ?_) h
  obtain ⟨_, h₁⟩ := hasTrace_of_bind_pure h'
  exact ending_finishPlugin hd h₁

theorem ending_carryOut {takedown : Takedown} {r : Except CoscaError PluginEnd}
    (h : (takedown.carryOut c hold grace).HasTrace t r) : Ending doomed t := by
  cases takedown with
  | startFailed => exact ending_endFailedStart h
  | shutdown =>
    have hshut : ∀ {t doomed}, (shutDownOnRequest c grace).HasTrace t r → Ending doomed t := by
      intro t' doomed' h'
      obtain ⟨_, h₁⟩ := hasTrace_of_bind_pure h'
      exact ending_shutPluginDown h₁
    cases hold with
    | false => exact hshut h
    | true =>
      obtain ⟨_, t₁, rfl, h₁⟩ := hasTrace_call.1 h
      exact .cons rfl (hshut h₁)

theorem ending_endExitedPlugin {r : Except CoscaError PluginEnd} (hd : doomed)
    (h : (endExitedPlugin c).HasTrace t r) : Ending doomed t := by
  obtain ⟨_, h₁⟩ := hasTrace_of_bind_pure h
  exact ending_endPlugin hd h₁

end

/-! ### Failed starts -/

/-- The program never asks the root to exit. -/
abbrev AsksNothing {α : Type} (p : Supervision α) : Prop := p.Only (· ≠ .terminate)

theorem asksNothing_drain : AsksNothing (drainReadersAfterExit c) := by
  have hwait : AsksNothing waitForReaders := only_waitForReaders fun o ho ↦ by
    rintro rfl
    exact absurd ho (by decide)
  refine Prog.Only.bind (only_perform nofun) fun answer ↦ ?_
  cases answer with
  | error e => exact hwait
  | ok =>
    change Prog.Only _ (if _ then _ else _)
    split
    · exact ⟨nofun, fun _ ↦ hwait⟩
    · exact hwait

theorem asksNothing_reapRoot : AsksNothing reapRoot := by
  refine Prog.Only.bind (only_perform nofun) fun answer ↦ ?_
  cases answer with
  | ok status => exact ⟨nofun, fun _ ↦ only_pure _⟩
  | error e => exact only_pure _

theorem asksNothing_endPlugin : AsksNothing (endPlugin c) :=
  asksNothing_drain.bind fun _ ↦ asksNothing_reapRoot

theorem asksNothing_endExitedPlugin : AsksNothing (endExitedPlugin c) :=
  asksNothing_endPlugin.bind fun _ ↦ only_pure _

theorem asksNothing_watch : AsksNothing (watchRootExitWithin grace) := by
  refine Prog.Only.bind (only_perform nofun) fun answer ↦ ?_
  cases answer with
  | ok exited => exact only_pure _
  | error e => exact only_pure _

theorem asksNothing_endRefused (refusal : CoscaError) : AsksNothing (endRefused c refusal) := by
  refine asksNothing_drain.bind fun _ ↦ asksNothing_watch.bind fun exited ↦ ?_
  cases exited with
  | true => exact asksNothing_reapRoot.bind fun _ ↦ only_pure _
  | false => exact only_pure _

theorem asksNothing_finishPlugin (exited : Bool) : AsksNothing (finishPlugin c exited) := by
  cases exited with
  | true => exact asksNothing_endPlugin
  | false =>
    refine Prog.Only.bind (only_perform nofun) fun answer ↦ ?_
    cases answer with
    | ok => exact asksNothing_endPlugin
    | error refusal => exact asksNothing_endRefused refusal

theorem asksNothing_startFailed : AsksNothing (Takedown.startFailed.carryOut c hold grace) :=
  asksNothing_watch.bind fun exited ↦
    (asksNothing_finishPlugin exited).bind fun _ ↦ only_pure _

/-! ### The supervision -/

theorem Orderly.of_ending {doomed : Prop} {pre : List Event}
    (hpre : ∀ e ∈ pre, reapAnswer? e = none) (hdoomed : doomed → ∃ e ∈ pre, Dooms e)
    (h : Ending doomed t)
    (hask : (∃ e ∈ pre, takedown? e = some .startFailed) → ∀ e ∈ pre ++ t, e.1 ≠ .terminate) :
    Orderly c (pre ++ t) := by
  have hsplit : ∀ a e b, pre ++ t = a ++ e :: b → (reapAnswer? e).isSome →
      ∃ a', a = pre ++ a' ∧ t = a' ++ e :: b := by
    intro a e b hab he
    obtain ⟨a', ha, ht⟩ | ⟨b', hpreb, hb⟩ := List.append_eq_append_iff.1 hab
    · exact ⟨a', ha, ht⟩
    · cases b' with
      | nil => exact ⟨[], by simpa using hpreb.symm, by simpa using hb.symm⟩
      | cons x b' =>
        obtain ⟨rfl, -⟩ := List.cons.inj hb
        have hnone : reapAnswer? e = none := hpre e (by simp [hpreb])
        simp [hnone] at he
  have hreaps : ∀ {e}, Reaps e → (reapAnswer? e).isSome := by
    rintro e ⟨status, hstatus⟩
    simp [hstatus]
  have hnone : ∀ {e}, reapAnswer? e = none → ¬ Reaps e := by
    rintro e he ⟨status, hstatus⟩
    simp [he] at hstatus
  refine
    { reapsOnce := fun a e b hab he ↦ ?_
      killsItsOwn := fun a e b hab he _ e' he' ↦ ?_
      reapsTheDoomed := fun a e b hab he ↦ ?_
      asksNoFailedStart := ?_
      killsTheTree := fun a e b hab he ↦ ?_
      readersEnd := ?_ }
  · obtain ⟨a', rfl, ht⟩ := hsplit a e b hab (hreaps he)
    obtain ⟨hfirst, -, -, hlast⟩ := h.reapsLast a' e b ht (hreaps he)
    refine ⟨fun e' he' ↦ hnone ?_, [], hlast he, nofun⟩
    exact (List.mem_append.1 he').elim (hpre e') (hfirst e')
  · obtain ⟨a', rfl, ht⟩ := hsplit a e b hab (hreaps he)
    obtain ⟨-, -, -, hlast⟩ := h.reapsLast a' e b ht (hreaps he)
    rw [hlast he, List.mem_singleton] at he'
    rw [he']
    exact nofun
  · obtain ⟨a', rfl, ht⟩ := hsplit a e b hab he
    obtain ⟨-, hd, -, -⟩ := h.reapsLast a' e b ht he
    obtain hd | ⟨e', he', hdooms⟩ := hd
    · obtain ⟨e', he', hdooms⟩ := hdoomed hd
      exact .inl ⟨e', List.mem_append_left _ he', hdooms⟩
    · exact .inl ⟨e', List.mem_append_right _ he', hdooms⟩
  · rintro ⟨e, he, hfailed⟩
    obtain he | he := List.mem_append.1 he
    · exact hask ⟨e, he, hfailed⟩
    · simp [h.carriesNoneOut e he] at hfailed
  · obtain ⟨a', rfl, ht⟩ := hsplit a e b hab (hreaps he)
    obtain ⟨-, -, ⟨e', he', hkill⟩, -⟩ := h.reapsLast a' e b ht (hreaps he)
    exact .inl ⟨e', List.mem_append_right _ he', hkill⟩
  · intro r
    obtain ⟨e, he, hr⟩ := h.readersEnd r
    exact ⟨e, List.mem_append_right _ he, hr⟩

/-- What follows the reap of a root that no exit watch can watch. -/
structure AfterReap (c : Containment) (e : Event) (b : List Event) : Prop where
  plain : ∀ e' ∈ b, e'.1.isPlain
  disarms : Reaps e → ∃ b', b = ⟨.disarm, ()⟩ :: b'
  kills : Reaps e → killTreeAddressesAReleasableId c = false → ∃ e' ∈ b, e'.1 = .killTree
  spares : Reaps e → killTreeAddressesAReleasableId c → ∀ e' ∈ b, e'.1 ≠ .killTree
  readersEnd : ReadersEnd b

theorem Orderly.of_afterReap {w e₀ : Event} {b₀ : List Event} (hw : Unwatchable w)
    (he₀ : takedown? e₀ = none) (h : AfterReap c e₀ b₀) : Orderly c ([w] ++ e₀ :: b₀) := by
  have hwatch : reapAnswer? w = none ∧ takedown? w = none := by
    obtain ⟨hdone⟩ := hw
    exact ⟨rfl, by simp [takedown?, Polled.takedown?, hdone]⟩
  have hsplit : ∀ a e b, [w] ++ e₀ :: b₀ = a ++ e :: b → (reapAnswer? e).isSome →
      [w] = a ∧ e₀ = e ∧ b₀ = b := fun a e b hab he ↦
    eq_of_reapAnswer? (by simp [hwatch.1]) (fun e' he' ↦ reapAnswer?_of_isPlain (h.plain e' he'))
      hab he
  have hreaps : ∀ {e}, Reaps e → (reapAnswer? e).isSome := by
    rintro e ⟨status, hstatus⟩
    simp [hstatus]
  have hnone : ∀ e ∈ [w] ++ e₀ :: b₀, takedown? e = none := by
    have hplain : ∀ e ∈ b₀, takedown? e = none := fun e he ↦ takedown?_of_isPlain (h.plain e he)
    simpa [hwatch.2, he₀] using hplain
  have hunwatchable : ∃ e ∈ [w], Unwatchable e := ⟨w, List.mem_singleton_self w, hw⟩
  refine
    { reapsOnce := fun a e b hab he ↦ ?_
      killsItsOwn := fun a e b hab he hid ↦ ?_
      reapsTheDoomed := fun a e b hab he ↦ ?_
      asksNoFailedStart := ?_
      killsTheTree := fun a e b hab he ↦ ?_
      readersEnd := ?_ }
  · obtain ⟨rfl, rfl, rfl⟩ := hsplit a e b hab (hreaps he)
    obtain ⟨b', hb'⟩ := h.disarms he
    refine ⟨?_, b', hb', fun e' he' ↦ ?_⟩
    · simp [Reaps, hwatch.1]
    · have hplain := h.plain e' (by simp [hb', he'])
      simp [Reaps, reapAnswer?_of_isPlain hplain]
  · obtain ⟨rfl, rfl, rfl⟩ := hsplit a e b hab (hreaps he)
    exact h.spares he hid
  · obtain ⟨rfl, rfl, rfl⟩ := hsplit a e b hab he
    exact .inr ⟨hunwatchable, hnone⟩
  · rintro ⟨e, he, hfailed⟩
    simp [hnone e he] at hfailed
  · obtain ⟨rfl, rfl, rfl⟩ := hsplit a e b hab (hreaps he)
    cases hid : killTreeAddressesAReleasableId c with
    | false => exact .inr ⟨hunwatchable, .inl (h.kills he hid)⟩
    | true => exact .inr ⟨hunwatchable, .inr rfl⟩
  · intro r
    obtain ⟨e, he, hr⟩ := h.readersEnd r
    exact ⟨e, by simp [he], hr⟩

theorem afterReap_of_hasTrace {polled : Polled hold (Except CoscaError ExitStatus)}
    {reaped : Except CoscaError ExitStatus} {r : Except CoscaError PluginEnd}
    (hdone : polled.done = some reaped)
    (h : (settleReap reaped >>= endAfterReap c).HasTrace t r) :
    AfterReap c ⟨.reapOrTakedown hold, polled⟩ t := by
  cases reaped with
  | error e =>
    have hreaps : ¬ Reaps ⟨.reapOrTakedown hold, polled⟩ := by simp [Reaps, reapAnswer?, hdone]
    have hwait : (waitForReaders >>= fun _ ↦ pure (.error e)).HasTrace t r := h
    obtain ⟨_, h₁⟩ := hasTrace_of_bind_pure hwait
    exact
      { plain := isPlain_of_waitForReaders h₁
        disarms := fun he ↦ absurd he hreaps
        kills := fun he ↦ absurd he hreaps
        spares := fun he ↦ absurd he hreaps
        readersEnd := readersEnd_of_waitForReaders h₁ }
  | ok status =>
    obtain ⟨_, t₁, rfl, h₁⟩ := hasTrace_call.1 h
    have hend : (endReapedPlugin c >>= fun _ ↦ pure (.ok (.exited status))).HasTrace t₁ r := h₁
    obtain ⟨_, h₂⟩ := hasTrace_of_bind_pure hend
    rw [endReapedPlugin] at h₂
    cases hid : killTreeAddressesAReleasableId c with
    | true =>
      rw [if_pos hid] at h₂
      have hspares : ∀ e ∈ t₁, e.1 ≠ .killTree :=
        h₂.forall_of_only (only_waitForReaders fun _ ↦ Op.ne_killTree_of_isOnReader)
      exact
        { plain := List.forall_mem_cons.2 ⟨rfl, isPlain_of_waitForReaders h₂⟩
          disarms := fun _ ↦ ⟨t₁, rfl⟩
          kills := fun _ hc ↦ absurd (hid.symm.trans hc) (by decide)
          spares := fun _ _ ↦ List.forall_mem_cons.2 ⟨nofun, hspares⟩
          readersEnd := (readersEnd_of_waitForReaders h₂).cons }
    | false =>
      rw [if_neg (by simp [hid])] at h₂
      have hdrained := drained_of_hasTrace h₂
      obtain ⟨e', he', hkill⟩ := hdrained.killsTree
      exact
        { plain := List.forall_mem_cons.2 ⟨rfl, hdrained.plain⟩
          disarms := fun _ ↦ ⟨t₁, rfl⟩
          kills := fun _ _ ↦ ⟨e', .tail _ he', hkill⟩
          spares := fun _ hc ↦ absurd (hid.symm.trans hc) (by decide)
          readersEnd := hdrained.readersEnd.cons }

/-- A take-down that won a `select!`, after calls that neither reap nor ask. -/
theorem Orderly.of_carryOut {pre : List Event} {takedown : Takedown}
    {r : Except CoscaError PluginEnd} (hpre : ∀ e ∈ pre, reapAnswer? e = none)
    (hterm : ∀ e ∈ pre, e.1 ≠ .terminate)
    (hfor : ∀ e ∈ pre, takedown? e = some .startFailed → takedown = .startFailed)
    (h : (takedown.carryOut c hold grace).HasTrace t r) : Orderly c (pre ++ t) := by
  have hend : Ending False t := ending_carryOut h
  refine .of_ending hpre nofun hend ?_
  rintro ⟨e, he, hfailed⟩
  obtain rfl := hfor e he hfailed
  exact List.forall_mem_append.2 ⟨hterm, h.forall_of_only asksNothing_startFailed⟩

/-- The supervision of a plugin is orderly, on every containment and however its calls are
answered. -/
theorem orderly_supervise {r : Except CoscaError PluginEnd}
    (h : (supervise c hold grace).HasTrace t r) : Orderly c t := by
  rw [supervise, Prog.perform_bind, hasTrace_call] at h
  obtain ⟨polled, t₁, rfl, h₁⟩ := h
  cases hdone : polled.done with
  | some watched =>
    rw [hdone] at h₁
    cases watched with
    | ok =>
      have hnone : ∀ e ∈ ([⟨.waitRootExitOrTakedown hold, polled⟩] : List Event),
          reapAnswer? e = none := by simp [reapAnswer?]
      refine .of_ending hnone (fun _ ↦ ⟨_, List.mem_singleton_self _, .exited hdone⟩)
        (ending_endExitedPlugin trivial h₁) ?_
      simp [takedown?, Polled.takedown?, hdone]
    | error e =>
      obtain ⟨polled', t₂, rfl, h₂⟩ := hasTrace_call.1 h₁
      change Prog.HasTrace (match polled'.done with | some reaped => _ | none => _) _ _ at h₂
      cases hdone' : polled'.done with
      | some reaped =>
        rw [hdone'] at h₂
        refine .of_afterReap (.mk hdone) ?_ (afterReap_of_hasTrace hdone' h₂)
        simp [takedown?, Polled.takedown?, hdone']
      | none =>
        rw [hdone'] at h₂
        have hnone : ∀ e ∈ ([⟨.waitRootExitOrTakedown hold, polled⟩,
            ⟨.reapOrTakedown hold, polled'⟩] : List Event), reapAnswer? e = none := by
          simp [reapAnswer?, hdone']
        refine .of_carryOut hnone (by simp) ?_ h₂
        simp [takedown?, Polled.takedown?, hdone, hdone']
  | none =>
    rw [hdone] at h₁
    obtain ⟨t₂, t₃, exited, rfl, h₂, h₃⟩ := hasTrace_bind.1 h₁
    obtain ⟨answer, rfl, hdooms⟩ := eq_of_watchRootExitWithin h₂
    have hnone : ∀ e ∈ ([⟨.waitRootExitOrTakedown hold, polled⟩,
        ⟨.waitRootExitWithin 0, answer⟩] : List Event), reapAnswer? e = none := by
      simp [reapAnswer?]
    cases exited with
    | true =>
      refine .of_ending hnone (fun _ ↦ ⟨_, by simp, hdooms rfl⟩)
        (ending_endExitedPlugin trivial h₃) fun _ ↦ ?_
      exact List.forall_mem_append.2 ⟨by simp, h₃.forall_of_only asksNothing_endExitedPlugin⟩
    | false =>
      refine .of_carryOut hnone (by simp) ?_ h₃
      simp [takedown?, Polled.takedown?, hdone]

/-- A failed start whose root is killed after its grace, and whose standard error is held open. -/
def killedRun : List Event :=
  [⟨.waitRootExitOrTakedown true, ⟨none, false, true, fun _ ↦ rfl, rfl⟩⟩,
    ⟨.waitRootExitWithin 0, .ok false⟩, ⟨.waitRootExitWithin 5000, .error "EPERM"⟩,
    ⟨.killRoot, .ok ()⟩, ⟨.killTree, .ok ()⟩, ⟨.joinReaders, false⟩, ⟨.isFinished .stdout, true⟩,
    ⟨.isFinished .stderr, false⟩, ⟨.abort .stderr, ()⟩, ⟨.join .stderr, ()⟩,
    ⟨.reap, .ok ⟨none⟩⟩, ⟨.disarm, ()⟩]

theorem orderly_killedRun : Orderly .processGroup killedRun := by
  have hrun : (supervise .processGroup true 5000).HasTrace killedRun (.ok .shutDown) :=
    .call _ <| .call _ <| .call _ <| .call _ <| .call _ <| .call _ <| .call _ <| .call _ <|
      .call _ <| .call _ <| .call _ <| .call _ <| .pure _
  exact orderly_supervise hrun

/-- A take-down is requested when the `select!` is decided. -/
def requested : Event → Bool
  | ⟨.waitRootExitOrTakedown _, polled⟩ => polled.shutdown || polled.startFailed
  | ⟨.reapOrTakedown _, polled⟩ => polled.shutdown || polled.startFailed
  | _ => false

/-- A root that no exit watch can watch, and that has exited when the chain shuts down. -/
def exitedAtShutdown : List Event :=
  [⟨.waitRootExitOrTakedown true, ⟨some (.error "EPERM"), true, false, nofun, rfl⟩⟩,
    ⟨.reapOrTakedown true, ⟨some (.ok ⟨some 0⟩), true, false, nofun, rfl⟩⟩,
    ⟨.disarm, ()⟩, ⟨.joinReaders, true⟩]

/-- A `select!` that finds the reap ready takes it, also when a take-down was requested before. -/
theorem reaped_though_requested :
    ¬ ∀ c hold grace t r, (supervise c hold grace).HasTrace t r →
      ∀ a e b, t = a ++ e :: b → Reaps e → (∃ e' ∈ a, Dooms e') ∨
        ((∃ e' ∈ a, Unwatchable e') ∧ ∀ e' ∈ a, requested e' = false) := by
  intro h
  have hrun : (supervise .processGroup true 5000).HasTrace exitedAtShutdown
      (.ok (.exited ⟨some 0⟩)) :=
    .call _ <| .call _ <| .call _ <| .call _ <| .pure _
  obtain ⟨e, he, hdooms⟩ | ⟨-, hrequested⟩ := h _ _ _ _ _ hrun [_] _ _ rfl ⟨⟨some 0⟩, rfl⟩
  · rw [List.mem_singleton] at he
    subst he
    obtain ⟨hdone⟩ := hdooms
    cases hdone
  · exact absurd (hrequested _ (List.mem_singleton_self _)) (by decide)

end Hole.Plugin.Supervise
