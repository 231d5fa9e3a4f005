import Hole.Effect.History
import Hole.Effect.Pool
import Hole.State.VersionedFile

/-!
# Reaping recorded plugins

Every plugin that is spawned appends its identity to `bridge-plugins.json`, and a reap kills what is
recorded there and then removes the file (`bridge/src/plugin_recovery.rs`, `plugin_state.rs`,
`record_plugin_pid` of `proxy/plugin.rs`). Spawns and reaps are tasks of one pool here. A reap is a
load, one restore and kill for each record, and a clear; each is one step, in which anything may
fail.

Removing the file forgets its records, so a removal must be **accounted for**: the same reap loaded
every record that is removed, and killed it or could not restore it on this host. The clear does not
look at the file again, so this holds of a removal if no record was appended since the load.

What a record and an identity are, and how a process is restored and killed, is the `cosca` crate's
business: `R` and `I` are arbitrary and the answers are the environment's.
-/

namespace Hole.Plugin

open Effect Hole.State
open Prog (perform)

variable {R I : Type}

/-! ### The operations -/

/-- `PluginState`. -/
structure PluginState (R : Type) where
  plugins : List R

/-- The schema's version. -/
def schemaVersion : Nat := 2

/-- `RecordErrorKind`. -/
inductive RecordErrorKind
  | unknownVersion
  | foreignPlatform
  | invalidPid
  | foreignBootSession
  | missingBootSession
  | foreignPidNamespace
  | missingPidNamespace
  | scopeUnreadable
  /-- A kind that is added later. -/
  | other

/-- `cosca::error::Error`. -/
inductive CoscaError
  | identityRecord (kind : RecordErrorKind)
  | other

/-- `settles_the_record`. -/
def settlesTheRecord : CoscaError → Bool
  | .identityRecord .unknownVersion => true
  | .identityRecord .foreignPlatform => true
  | .identityRecord .invalidPid => true
  | .identityRecord .foreignBootSession => true
  | .identityRecord .missingBootSession => true
  | .identityRecord .foreignPidNamespace => true
  | .identityRecord .missingPidNamespace => true
  | .identityRecord .scopeUnreadable => false
  | .identityRecord .other => false
  | .other => false

/-- `Resolved`. -/
inductive Resolved (I : Type)
  | found (id : I)
  | gone
  | unknown

/-- The calls of a spawn and of a reap. -/
inductive PluginOp (R I : Type)
  | resolve (pid : Nat)
  | toRecord (id : I)
  | append (record : R)
  | load
  | restore (record : R)
  | kill (id : I)
  | clear

/-- Their answers. -/
@[reducible] def PluginOp.Ans : PluginOp R I → Type
  | resolve _ => Resolved I
  | toRecord _ => Except CoscaError R
  | append _ => Except StoreError Unit
  | load => Loaded (PluginState R)
  | restore _ => Except CoscaError I
  | kill _ => Except CoscaError Unit
  | clear => Except StoreError UpdateOutcome

/-- A program over the calls. -/
abbrev PluginM (R I α : Type) : Type := Prog (PluginOp R I) PluginOp.Ans α

/-- `record_plugin_pid`. -/
def recordPluginPid (pid : Nat) : PluginM R I Unit := do
  let resolved : Resolved I ← perform (PluginOp.resolve pid)
  match resolved with
  | .found id => do
    let record : Except CoscaError R ← perform (PluginOp.toRecord id)
    match record with
    | .ok record => do
      let _ : Except StoreError Unit ← perform (PluginOp.append record)
      pure ()
    | .error _ => pure ()
  | .gone => pure ()
  | .unknown => pure ()

/-- `clear_or_log`. -/
def clearOrLog : PluginM R I Unit := do
  let _ : Except StoreError UpdateOutcome ← perform PluginOp.clear
  pure ()

/-- What a reap does with one record, and whether all are accounted for so far. -/
def reapRecord (allAccounted : Bool) (record : R) : PluginM R I Bool := do
  let restored : Except CoscaError I ← perform (PluginOp.restore record)
  match restored with
  | .error e => pure (if settlesTheRecord e then allAccounted else false)
  | .ok id => do
    let killed : Except CoscaError Unit ← perform (PluginOp.kill id)
    match killed with
    | .ok () => pure allAccounted
    | .error _ => pure false

/-- `reap_loaded`. -/
def reapLoaded : Loaded (PluginState R) → PluginM R I Unit
  | .absent => pure ()
  | .unreadable _ => pure ()
  | .newer _ => pure ()
  | .corrupt => pure ()
  | .obsolete _ => clearOrLog
  | .current state _ => do
    let allAccounted ← state.plugins.foldlM reapRecord true
    if allAccounted then clearOrLog else pure ()

/-- `reap_recorded_plugins`. -/
def reapRecordedPlugins : PluginM R I Unit := do
  let loaded : Loaded (PluginState R) ← perform PluginOp.load
  reapLoaded loaded

/-! ### The host -/

/-- What happens to the file and to its records, by task. -/
inductive Event (R I : Type)
  | appended (record : R)
  | loaded (i : Nat) (found : Loaded (PluginState R))
  | unrestorable (i : Nat) (record : R)
  | restored (i : Nat) (record : R) (id : I)
  | killed (i : Nat) (id : I)
  | removed (i : Nat) (content : Content (PluginState R))

/-- The state file, and what happened so far, newest first. -/
structure Host (R I : Type) where
  disk : Disk (PluginState R)
  log : List (Event R I)

/-- How a call goes. -/
structure Choice (R I : Type) where
  faults : Faults
  resolved : Resolved I
  record : Except CoscaError R
  restored : Except CoscaError I
  killed : Except CoscaError Unit

/-- The state that `append_record` stores. -/
def appendTo (record : R) : Loaded (PluginState R) → PluginState R
  | .current value _ => ⟨value.plugins ++ [record]⟩
  | _ => ⟨[record]⟩

/-- `append_record`. -/
def appendRecord (disk : Disk (PluginState R)) (record : R) (faults : Faults) :
    Except StoreError UpdateOutcome × Disk (PluginState R) :=
  disk.update .osRecord schemaVersion faults fun loaded ↦ .store (appendTo record loaded)

/-- `clear`. -/
def clear (disk : Disk (PluginState R)) (faults : Faults) :
    Except StoreError UpdateOutcome × Disk (PluginState R) :=
  disk.update .osRecord schemaVersion faults fun _ ↦ .remove

/-- What a call of task `i` adds to the log. -/
def Host.event (h : Host R I) (i : Nat) (c : Choice R I) : PluginOp R I → Option (Event R I)
  | .resolve _ => none
  | .toRecord _ => none
  | .append record =>
    match (appendRecord h.disk record c.faults).1 with
    | .ok .stored => some (.appended record)
    | _ => none
  | .load => some (.loaded i (h.disk.observe c.faults))
  | .restore record =>
    match c.restored with
    | .ok id => some (.restored i record id)
    | .error e => if settlesTheRecord e then some (.unrestorable i record) else none
  | .kill id =>
    match c.killed with
    | .ok () => some (.killed i id)
    | .error _ => none
  | .clear =>
    match (clear h.disk c.faults).1 with
    | .ok .removed => h.disk.file.map (.removed i)
    | _ => none

/-- What a call leaves on the disk. -/
def Host.diskAfter (h : Host R I) (c : Choice R I) : PluginOp R I → Disk (PluginState R)
  | .append record => (appendRecord h.disk record c.faults).2
  | .clear => (clear h.disk c.faults).2
  | _ => h.disk

/-- The answer to a call. -/
def Host.answer (h : Host R I) (c : Choice R I) : (o : PluginOp R I) → o.Ans
  | .resolve _ => c.resolved
  | .toRecord _ => c.record
  | .append record => (appendRecord h.disk record c.faults).1.map fun _ ↦ ()
  | .load => h.disk.observe c.faults
  | .restore _ => c.restored
  | .kill _ => c.killed
  | .clear => (clear h.disk c.faults).1

/-- What a task is. -/
inductive Kind
  | spawned (pid : Nat)
  | reap

/-- Spawns and reaps, any number of them. Dropping a task is a crash of the bridge. -/
def plugins (R I : Type) :
    System (PluginOp R I) PluginOp.Ans (Host R I) (Choice R I) Kind Unit where
  body
    | .spawned pid => recordPluginPid pid
    | .reap => reapRecordedPlugins
  arrives _ := true
  enabled _ _ _ _ := true
  answer h _ _ o c := h.answer c o
  next h i _ o c := ⟨h.diskAfter c o, (h.event i c o).toList ++ h.log⟩
  fork _ := none
  droppable _ _ := true
  finish h _ _ _ := h
  cleanup h _ _ := h

/-! ### Accounted removals -/

/-- The reap loaded the record. -/
def LoadedBy (i : Nat) (record : R) (log : List (Event R I)) : Prop :=
  ∃ state found, .loaded i (.current state found) ∈ log ∧ record ∈ state.plugins

/-- The reap killed what the record names, or found it gone, or found that this host cannot restore
it. -/
def AccountedBy (i : Nat) (record : R) (log : List (Event R I)) : Prop :=
  .unrestorable i record ∈ log ∨ ∃ id, .restored i record id ∈ log ∧ .killed i id ∈ log

/-- The event appends no record. -/
def Event.IsQuiet : Event R I → Prop
  | .appended _ => False
  | _ => True

/-- The event is a load of reap `i`. -/
def Event.IsLoadOf (i : Nat) : Event R I → Prop
  | .loaded j _ => j = i
  | _ => False

/-- No record has been appended since the reap loaded the file. -/
def Undisturbed (i : Nat) (log : List (Event R I)) : Prop :=
  Since Event.IsQuiet (Event.IsLoadOf i) log

/-- What a removal needs in the events before it. -/
def Accounted (older : List (Event R I)) : Event R I → Prop
  | .removed i content =>
    content.Readable ∧ (Undisturbed i older → ∀ state found, content = .current state found →
        ∀ record ∈ state.plugins, LoadedBy i record older ∧ AccountedBy i record older)
  | _ => True

/-! ### How far a reap has come -/

/-- How far a task has come. -/
inductive ReapPhase (R I : Type)
  | out
  | first
  /-- The file was loaded, and these records are accounted for. -/
  | reaping (found : Loaded (PluginState R)) (accounted : List R)
  /-- The next of them was restored. -/
  | killing (found : Loaded (PluginState R)) (accounted : List R) (record : R) (id : I)
  | done

/-- The reap may remove what it found. -/
def Clearable (found : Loaded (PluginState R)) (accounted : List R) : Prop :=
  match found with
  | .obsolete _ => True
  | .current state _ => ∀ record ∈ state.plugins, record ∈ accounted
  | _ => False

/-- The phase after a record was restored. -/
def afterRestore (found : Loaded (PluginState R)) (accounted : List R) (record : R) :
    Except CoscaError I → ReapPhase R I
  | .ok id => .killing found accounted record id
  | .error e => .reaping found (if settlesTheRecord e then record :: accounted else accounted)

/-- The phase after a kill. -/
def afterKill (found : Loaded (PluginState R)) (accounted : List R) (record : R) :
    Except CoscaError Unit → ReapPhase R I
  | .ok () => .reaping found (record :: accounted)
  | .error _ => .reaping found accounted

/-- The calls that a phase allows. -/
def ReapPhase.Allows : ReapPhase R I → PluginOp R I → Prop
  | .out, .resolve _ => True
  | .out, .toRecord _ => True
  | .out, .append _ => True
  | .first, .load => True
  | .reaping _ _, .restore _ => True
  | .reaping found accounted, .clear => Clearable found accounted
  | .killing _ _ _ id, .kill id' => id' = id
  | _, _ => False

/-- The phase after a call. -/
def ReapPhase.after : ReapPhase R I → (o : PluginOp R I) → o.Ans → ReapPhase R I
  | .first, .load, found => .reaping found []
  | .reaping found accounted, .restore record, a => afterRestore found accounted record a
  | .killing found accounted record _, .kill _, a => afterKill found accounted record a
  | .reaping _ _, .clear, _ => .done
  | ph, _, _ => ph

/-- A reap loads, then accounts for records, then clears. -/
def reapProtocol : Protocol (PluginOp R I) PluginOp.Ans Kind Unit (ReapPhase R I) where
  enter
    | .spawned _ => .out
    | .reap => .first
  allows := ReapPhase.Allows
  after := ReapPhase.after
  leaves _ _ := True

theorem recordPluginPid_obeys (pid : Nat) :
    (recordPluginPid pid : PluginM R I Unit).Obeys reapProtocol .out := by
  refine ⟨trivial, fun (resolved : Resolved I) ↦ ?_⟩
  cases resolved with
  | found id =>
    refine ⟨trivial, fun (record : Except CoscaError R) ↦ ?_⟩
    cases record with
    | ok record => exact ⟨trivial, fun _ ↦ trivial⟩
    | error e => exact trivial
  | gone => exact trivial
  | unknown => exact trivial

/-- The loop's accumulator: if it is still set, then the records so far are accounted for. -/
def Handled (state : PluginState R) (version : Nat) (rest : List R) (allAccounted : Bool) :
    ReapPhase R I → Prop
  | .reaping found accounted =>
    found = .current state version ∧
      (allAccounted = true → ∀ record ∈ state.plugins, record ∈ rest ∨ record ∈ accounted)
  | _ => False

theorem reapRecord_follows {state : PluginState R} {version : Nat} {record : R} {rest : List R}
    {allAccounted : Bool} {ph : ReapPhase R I}
    (h : Handled state version (record :: rest) allAccounted ph) :
    (reapRecord allAccounted record : PluginM R I Bool).Follows reapProtocol
      (Handled state version rest) ph := by
  cases ph with
  | reaping found accounted =>
    obtain ⟨rfl, hall⟩ := h
    -- The record is accounted for now, if the accumulator is still set.
    have hnow (hset : allAccounted = true) :
        ∀ r ∈ state.plugins, r ∈ rest ∨ r ∈ record :: accounted := by
      intro r hr
      obtain hrest | haccounted := hall hset r hr
      · obtain rfl | hrest := List.mem_cons.1 hrest
        · exact .inr (.head _)
        · exact .inl hrest
      · exact .inr (.tail _ haccounted)
    refine ⟨trivial, fun (restored : Except CoscaError I) ↦ ?_⟩
    cases restored with
    | ok id =>
      refine ⟨rfl, fun (killed : Except CoscaError Unit) ↦ ?_⟩
      cases killed with
      | ok u => exact ⟨rfl, hnow⟩
      | error e => exact ⟨rfl, nofun⟩
    | error e =>
      show Handled state version rest (if settlesTheRecord e then allAccounted else false)
        (.reaping _ (if settlesTheRecord e then record :: accounted else accounted))
      split
      · exact ⟨rfl, hnow⟩
      · exact ⟨rfl, nofun⟩
  | _ => exact h.elim

theorem reapRecordedPlugins_obeys :
    (reapRecordedPlugins : PluginM R I Unit).Obeys reapProtocol .first := by
  refine ⟨trivial, fun (found : Loaded (PluginState R)) ↦ ?_⟩
  have hclear {found : Loaded (PluginState R)} {accounted : List R}
      (h : Clearable found accounted) :
      (clearOrLog : PluginM R I Unit).Obeys reapProtocol (.reaping found accounted) :=
    ⟨h, fun _ ↦ trivial⟩
  cases found with
  | obsolete version => exact hclear trivial
  | current state version =>
    have hstart : Handled state version state.plugins true
        (.reaping (.current state version) [] : ReapPhase R I) :=
      ⟨rfl, fun _ _ hr ↦ .inl hr⟩
    refine (Prog.follows_foldlM state.plugins hstart fun _ _ _ _ h ↦ reapRecord_follows h).bind
      fun allAccounted ph h ↦ ?_
    cases ph with
    | reaping found accounted =>
      obtain ⟨rfl, hall⟩ := h
      cases allAccounted with
      | true =>
        refine hclear fun r hr ↦ ?_
        exact (hall rfl r hr).resolve_left List.not_mem_nil
      | false => exact trivial
    | _ => exact h.elim
  | _ => exact trivial

/-! ### The invariant -/

/-- What was loaded is what is there, if anything is, unless the read failed. -/
def Fits (file : Option (Content (PluginState R))) (found : Loaded (PluginState R)) : Prop :=
  file = none ∨ (∃ content, file = some content ∧ content.loaded = found) ∨
    ∃ kind, found = .unreadable kind

/-- What is known while reap `i` goes through what it loaded. -/
structure Reaping (h : Host R I) (i : Nat) (found : Loaded (PluginState R)) (accounted : List R) :
    Prop where
  loaded : .loaded i found ∈ h.log
  accounted : ∀ record ∈ accounted, AccountedBy i record h.log
  kept : Undisturbed i h.log → Fits h.disk.file found

/-- What is known of a task. -/
def Known (h : Host R I) (i : Nat) : ReapPhase R I → Prop
  | .reaping found accounted => Reaping h i found accounted
  | .killing found accounted record id =>
    Reaping h i found accounted ∧ .restored i record id ∈ h.log
  | _ => True

/-- The invariant of the pool. -/
structure RecoveryInv (h : Host R I) (φ : Nat → Option (Kind × ReapPhase R I)) : Prop where
  accounted : Justified Accounted h.log
  known : ∀ {i k ph}, φ i = some (k, ph) → Known h i ph

section Steps

variable {h h' : Host R I} {i j : Nat} {c : Choice R I} {o : PluginOp R I} {record : R}
  {found : Loaded (PluginState R)} {accounted : List R} {ph : ReapPhase R I}
  {ev : Option (Event R I)} {log : List (Event R I)}

theorem AccountedBy.later (hr : AccountedBy i record log) (newer : List (Event R I)) :
    AccountedBy i record (newer ++ log) := by
  obtain hr | ⟨id, hrestored, hkilled⟩ := hr
  · exact .inl (List.mem_append_right _ hr)
  · exact .inr ⟨id, List.mem_append_right _ hrestored, List.mem_append_right _ hkilled⟩

/-- A call leaves the file, removes it, or appends. -/
theorem file_diskAfter (h : Host R I) (i : Nat) (c : Choice R I) (o : PluginOp R I) :
    (h.diskAfter c o).file = h.disk.file ∨ (h.diskAfter c o).file = none ∨
      ∃ record, h.event i c o = some (.appended record) := by
  cases o with
  | append record =>
    obtain hstored | ⟨hsame, -⟩ := update_store h.disk schemaVersion c.faults (appendTo record)
    · refine .inr (.inr ⟨record, ?_⟩)
      show (match (appendRecord h.disk record c.faults).1 with
        | .ok .stored => some (Event.appended record) | _ => none) = _
      rw [appendRecord, hstored]
    · exact .inl (congrArg Disk.file hsame)
  | clear =>
    obtain ⟨hremoved, -⟩ | ⟨hsame, -⟩ := update_remove h.disk schemaVersion c.faults
    · exact .inr (.inl (congrArg (·.2.file) hremoved))
    · exact .inl (congrArg Disk.file hsame)
  | _ => exact .inl rfl

/-- Only a load is a load of a reap. -/
theorem not_isLoadOf_event {e : Event R I} (ho : o ≠ .load) (he : h.event j c o = some e) :
    ¬e.IsLoadOf i := by
  cases o with
  | load => exact absurd rfl ho
  | resolve pid => cases he
  | toRecord id => cases he
  | clear =>
    simp only [Host.event] at he
    split at he
    · obtain ⟨content, -, rfl⟩ := Option.map_eq_some_iff.1 he
      exact id
    · cases he
  | _ =>
    simp only [Host.event] at he
    split at he <;> grind [Event.IsLoadOf]

theorem Undisturbed.of_cons {e : Event R I} (hload : ¬e.IsLoadOf i)
    (hlog : Undisturbed i (e :: log)) : e.IsQuiet ∧ Undisturbed i log :=
  hlog.resolve_left hload

/-- A call that is not the reap's own load leaves what is known of it. -/
theorem Reaping.later (hreap : Reaping h i found accounted) (hload : j = i → o ≠ .load) :
    Reaping ⟨h.diskAfter c o, (h.event j c o).toList ++ h.log⟩ i found accounted := by
  refine ⟨List.mem_append_right _ hreap.loaded,
    fun r hr ↦ (hreap.accounted r hr).later _, fun hundisturbed ↦ ?_⟩
  have hbefore : Undisturbed i h.log ∧ ∀ e, h.event j c o = some e → e.IsQuiet := by
    cases he : h.event j c o with
    | none =>
      rw [he] at hundisturbed
      exact ⟨hundisturbed, nofun⟩
    | some e =>
      rw [he] at hundisturbed
      have hother : ¬e.IsLoadOf i := by
        by_cases ho : o = .load
        · subst ho
          cases he
          exact fun hij ↦ hload hij rfl
        · exact not_isLoadOf_event ho he
      obtain ⟨hquiet, hlog⟩ := Undisturbed.of_cons hother hundisturbed
      exact ⟨hlog, fun e' he' ↦ Option.some.inj he' ▸ hquiet⟩
  obtain hfile | hfile | ⟨record, hrecord⟩ := file_diskAfter h j c o
  · show Fits (h.diskAfter c o).file found
    rw [hfile]
    exact hreap.kept hbefore.1
  · exact .inl hfile
  · exact (hbefore.2 _ hrecord).elim

theorem Known.later (hknown : Known h i ph) (hload : j = i → o ≠ .load) :
    Known ⟨h.diskAfter c o, (h.event j c o).toList ++ h.log⟩ i ph := by
  cases ph with
  | reaping found accounted => exact Reaping.later hknown hload
  | killing found accounted record id =>
    exact ⟨hknown.1.later hload, List.mem_append_right _ hknown.2⟩
  | _ => exact trivial

theorem Reaping.account (hreap : Reaping h i found accounted)
    (hrecord : AccountedBy i record h.log) : Reaping h i found (record :: accounted) :=
  ⟨hreap.loaded, List.forall_mem_cons.2 ⟨hrecord, hreap.accounted⟩, hreap.kept⟩

/-- The reap's own load. -/
theorem reaping_load (h : Host R I) (i : Nat) (c : Choice R I) :
    Reaping (⟨h.disk, .loaded i (h.disk.observe c.faults) :: h.log⟩ : Host R I) i
      (h.disk.observe c.faults) [] := by
  refine ⟨.head _, fun _ hr ↦ absurd hr List.not_mem_nil, fun _ ↦ ?_⟩
  unfold Disk.observe Disk.load
  split
  · exact .inr (.inr ⟨_, rfl⟩)
  · cases hfile : h.disk.file with
    | none => exact .inl rfl
    | some content => exact .inr (.inl ⟨content, rfl, rfl⟩)

/-- What a call of the reap leaves known of it. -/
theorem known_after (hknown : Known h i ph) (hallows : ph.Allows o) :
    Known ⟨h.diskAfter c o, (h.event i c o).toList ++ h.log⟩ i (ph.after o (h.answer c o)) := by
  match ph, o with
  | .out, .resolve pid => exact trivial
  | .out, .toRecord id => exact trivial
  | .out, .append record => exact trivial
  | .first, .load => exact reaping_load h i c
  | .reaping found accounted, .clear => exact trivial
  | .reaping found accounted, .restore record =>
    have hlater := Reaping.later (c := c) (o := .restore record) (j := i) hknown fun _ ↦ nofun
    show Known _ i (afterRestore found accounted record c.restored)
    cases hrestored : c.restored with
    | ok id =>
      refine ⟨hlater, List.mem_append_left _ ?_⟩
      simp [Host.event, hrestored]
    | error e =>
      show Reaping _ i found (if settlesTheRecord e then record :: accounted else accounted)
      split
      · rename_i hsettles
        refine hlater.account (.inl (List.mem_append_left _ ?_))
        simp [Host.event, hrestored, hsettles]
      · exact hlater
  | .killing found accounted record id, .kill id' =>
    obtain rfl : id' = id := hallows
    have hlater := Reaping.later (c := c) (o := .kill id') (j := i) hknown.1 fun _ ↦ nofun
    show Known _ i (afterKill found accounted record c.killed)
    cases hkilled : c.killed with
    | ok u =>
      refine hlater.account (.inr ⟨id', List.mem_append_right _ hknown.2, ?_⟩)
      exact List.mem_append_left _ (by simp [Host.event, hkilled])
    | error e => exact hlater

/-- Only a clear removes the file, and only one that this release can read. -/
theorem clear_of_removed {content : Content (PluginState R)}
    (he : h.event i c o = some (.removed j content)) :
    o = .clear ∧ j = i ∧ h.disk.file = some content ∧ content.Readable := by
  cases o with
  | clear =>
    simp only [Host.event] at he
    split at he
    · rename_i hok
      obtain ⟨content', hfile, hremoved⟩ := Option.map_eq_some_iff.1 he
      obtain ⟨rfl, rfl⟩ : i = j ∧ content' = content := by simpa using hremoved
      obtain ⟨-, content', hfile', hreadable⟩ | ⟨-, hkept⟩ :=
        update_remove h.disk schemaVersion c.faults
      · obtain rfl := Option.mem_unique hfile hfile'
        exact ⟨rfl, rfl, hfile, hreadable⟩
      · exact absurd hok hkept
    · cases he
  | resolve pid => cases he
  | toRecord id => cases he
  | load => simp [Host.event] at he
  | _ =>
    simp only [Host.event] at he
    grind

/-- A removal is accounted for. -/
theorem accounted_event {e : Event R I} (hknown : Known h i ph) (hallows : ph.Allows o)
    (he : h.event i c o = some e) : Accounted h.log e := by
  cases e with
  | removed j content =>
    obtain ⟨rfl, rfl, hfile, hreadable⟩ := clear_of_removed he
    refine ⟨hreadable, fun hundisturbed state version hcontent r hr ↦ ?_⟩
    subst hcontent
    cases ph with
    | reaping found accounted =>
      have hreap : Reaping h j found accounted := hknown
      have hclearable : Clearable found accounted := hallows
      obtain hnone | ⟨content, hfile', rfl⟩ | ⟨kind, rfl⟩ := hreap.kept hundisturbed
      · cases hfile.symm.trans hnone
      · obtain rfl := Option.mem_unique hfile hfile'
        exact ⟨⟨state, version, hreap.loaded, hr⟩, hreap.accounted r (hclearable r hr)⟩
      · exact hclearable.elim
    | _ => exact hallows.elim
  | _ => exact trivial

end Steps

theorem keeps_recoveryInv : (plugins R I).Keeps reapProtocol RecoveryInv fun _ _ ↦ True where
  follows
    | .spawned pid => recordPluginPid_obeys pid
    | .reap => reapRecordedPlugins_obeys
  spawn {p φ k} _ hinv _ _ _ := by
    refine ⟨hinv.accounted, fun {i k' ph} hi ↦ ?_⟩
    obtain ⟨-, hph⟩ | ⟨-, hi⟩ := of_update_some hi
    · cases hph
      cases k <;> exact trivial
    · exact hinv.known hi
  advance {p φ i c k o f ph} _ hinv _ _ hi hallows _ _ _ := by
    have hknown := hinv.known hi
    refine ⟨?_, fun {j k' ph'} hj ↦ ?_⟩
    · show Justified Accounted ((p.shared.event i c o).toList ++ p.shared.log)
      cases he : p.shared.event i c o with
      | none => exact hinv.accounted
      | some e => exact ⟨accounted_event hknown hallows he, hinv.accounted⟩
    · obtain ⟨rfl, hph⟩ | ⟨hne, hj⟩ := of_update_some hj
      · cases hph
        exact known_after hknown hallows
      · exact (hinv.known hj).later fun hij ↦ absurd hij.symm hne
  finish _ hinv _ _ _ _ := ⟨hinv.accounted, fun hj ↦ hinv.known (of_update_none hj).2⟩
  drop _ hinv _ _ _ _ _ := ⟨hinv.accounted, fun hj ↦ hinv.known (of_update_none hj).2⟩

/-- **Removals are accounted for.** From any state file, for spawns and reaps that come, crash and
take turns in any order, and whatever fails: a removal took a file that this release can read, or an
obsolete one; and if no record was appended since that reap loaded the file, then the reap had
loaded every record that it removed, and had killed it, found it gone or found it unrestorable. -/
theorem removed_accounted (disk : Disk (PluginState R)) (ls : List (Label (Choice R I) Kind))
    (newer older : List (Event R I)) (i : Nat) (content : Content (PluginState R))
    (hlog : ((plugins R I).exec (Pool.idle ⟨disk, []⟩) ls).shared.log =
      newer ++ .removed i content :: older) :
    content.Readable ∧ (Undisturbed i older → ∀ state found, content = .current state found →
        ∀ record ∈ state.plugins, LoadedBy i record older ∧ AccountedBy i record older) := by
  have hstart : System.Holds reapProtocol RecoveryInv
      (Pool.idle ⟨disk, []⟩ : Pool _ PluginOp.Ans (Host R I) Kind Unit) :=
    ⟨_, tracked_idle _, trivial, nofun⟩
  obtain ⟨φ, -, hinv⟩ := System.exec_of_keeps keeps_recoveryInv hstart
    (System.along_true (S := plugins R I) _ ls)
  have haccounted := hinv.accounted
  rw [hlog] at haccounted
  exact haccounted.of_split

/-- A call that goes well: process 1 is the one recorded, process 2 the one spawned. -/
def goesWell : Choice Nat Nat := ⟨.none, .found 2, .ok 2, .ok 1, .ok ()⟩

/-- A file that records process 1. -/
def recorded : Disk (PluginState Nat) := ⟨some (.current ⟨[1]⟩ schemaVersion), []⟩

/-- What a reap of it does up to its clear. -/
def reaped : List (Event Nat Nat) :=
  [.killed 0 1, .restored 0 1 1, .loaded 0 (.current ⟨[1]⟩ schemaVersion)]

theorem removed_accounted_reaped :
    let log := ((plugins Nat Nat).exec (Pool.idle ⟨recorded, []⟩)
      (.spawn .reap :: List.replicate 4 (.advance 0 goesWell))).shared.log
    log = .removed 0 (.current ⟨[1]⟩ schemaVersion) :: reaped ∧
      LoadedBy 0 1 reaped ∧ AccountedBy 0 1 reaped := by
  intro log
  have hlog : log = [] ++ .removed 0 (.current ⟨[1]⟩ schemaVersion) :: reaped := rfl
  have hundisturbed : Undisturbed 0 reaped := .inr ⟨trivial, .inr ⟨trivial, .inl rfl⟩⟩
  have haccounted := (removed_accounted _ _ _ _ _ _ hlog).2 hundisturbed _ _ rfl
  exact ⟨hlog, haccounted 1 (List.mem_singleton_self 1)⟩

/-- A spawn that appends between the load and the clear: its record is removed with the file, and no
reap had loaded it. -/
theorem not_accounted_of_appended :
    let log := ((plugins Nat Nat).exec (Pool.idle ⟨recorded, []⟩)
      ([Label.spawn Kind.reap, .spawn (.spawned 2)] ++ List.replicate 3
      (Label.advance 0 goesWell) ++
        List.replicate 3 (Label.advance 1 goesWell) ++ [Label.advance 0 goesWell])).shared.log
    log = Event.removed 0 (.current ⟨[1, 2]⟩ schemaVersion) :: Event.appended 2 :: reaped ∧
      ¬LoadedBy 0 2 (Event.appended 2 :: reaped) := by
  refine ⟨rfl, fun ⟨state, version, hloaded, hmem⟩ ↦ ?_⟩
  obtain ⟨rfl, rfl⟩ : state = ⟨[1]⟩ ∧ version = schemaVersion := by simpa [reaped] using hloaded
  simp at hmem

end Hole.Plugin
