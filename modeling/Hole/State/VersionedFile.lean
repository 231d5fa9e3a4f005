import Mathlib.Tactic.TypeStar

/-!
# State files

The files that Hole reads back across a restart (`util/src/versioned_file`). One read classifies
what is at the name (`Loaded`), and one table for each `Role` says what a write or a removal does to
a file that this release cannot read. `update` is one locked read and the write that depends on it,
so it is one step here; each call of the file system in it may fail (`Faults`).

The contents are as a read classifies them. Directories, owners and the names of backups are not
modelled.
-/

namespace Hole.State

variable {σ : Type}

/-! ### What a read finds -/

/-- `CannotRead`. -/
inductive CannotRead
  | newer
  | corrupt
  deriving DecidableEq

/-- `UnreadableKind`. -/
inductive UnreadableKind
  | directory
  | notAFile
  | file
  | unprobed

/-- What is at the name of a file. -/
inductive Content (σ : Type)
  | corrupt
  | obsolete (found : Nat)
  | newer (found : Option Nat)
  | current (value : σ) (found : Nat)

/-- `Loaded`. -/
inductive Loaded (σ : Type)
  | absent
  | unreadable (kind : UnreadableKind)
  | corrupt
  | obsolete (found : Nat)
  | newer (found : Option Nat)
  | current (value : σ) (found : Nat)

/-- What a read of so much is. -/
def Content.loaded : Content σ → Loaded σ
  | corrupt => .corrupt
  | obsolete found => .obsolete found
  | newer found => .newer found
  | current value found => .current value found

/-- This release can read it, or drops it on purpose. -/
def Content.Readable : Content σ → Prop
  | corrupt => False
  | obsolete _ => True
  | newer _ => False
  | current _ _ => True

/-! ### Roles -/

/-- `Role`. -/
inductive Role
  | decision
  | osRecord
  | legacyRecord
  | config
  | claim
  | cover

/-- `StoreOver`. -/
inductive StoreOver
  | moveAside
  | refuse
  | overwrite

/-- `RemoveOver`. -/
inductive RemoveOver
  | moveAside
  | keep
  | remove

/-- `Role::on_store`. -/
def Role.onStore : Role → CannotRead → StoreOver
  | decision, .newer => .moveAside
  | decision, .corrupt => .moveAside
  | osRecord, .newer => .refuse
  | osRecord, .corrupt => .refuse
  | legacyRecord, .newer => .refuse
  | legacyRecord, .corrupt => .refuse
  | config, .newer => .refuse
  | config, .corrupt => .overwrite
  | claim, .newer => .refuse
  | claim, .corrupt => .refuse
  | cover, .newer => .moveAside
  | cover, .corrupt => .moveAside

/-- `Role::on_remove`. -/
def Role.onRemove : Role → CannotRead → RemoveOver
  | decision, .newer => .moveAside
  | decision, .corrupt => .moveAside
  | osRecord, .newer => .keep
  | osRecord, .corrupt => .keep
  | legacyRecord, .newer => .keep
  | legacyRecord, .corrupt => .keep
  | config, .newer => .keep
  | config, .corrupt => .keep
  | claim, .newer => .remove
  | claim, .corrupt => .remove
  | cover, .newer => .moveAside
  | cover, .corrupt => .moveAside

/-- `Role::on_store_io_failure`. -/
def Role.onStoreIoFailure : Role → StoreOver
  | decision => .moveAside
  | osRecord => .refuse
  | legacyRecord => .refuse
  | config => .moveAside
  | claim => .refuse
  | cover => .moveAside

/-- `Role::on_remove_io_failure`. -/
def Role.onRemoveIoFailure : Role → RemoveOver
  | decision => .moveAside
  | osRecord => .keep
  | legacyRecord => .keep
  | config => .moveAside
  | claim => .remove
  | cover => .keep

/-! ### Updates -/

/-- `Change`. -/
inductive Change (σ : Type)
  | keep
  | store (value : σ)
  | remove
  | moveAside

/-- `UpdateOutcome`. -/
inductive UpdateOutcome
  | unchanged
  | stored
  | removed
  | absent
  | kept
  | movedAside
  deriving DecidableEq

/-- `StoreError`. -/
inductive StoreError
  | unreadable (cause : CannotRead)
  | readFailed
  | encode
  | io
  deriving DecidableEq

/-- `Step`. -/
inductive Step (σ : Type)
  | nothing (outcome : UpdateOutcome)
  | refuse (error : StoreError)
  | write (value : σ) (backUp : Bool)
  | delete
  | moveAside

/-- What a store that the role has a rule for does. -/
def StoreOver.step (value : σ) (refusal : StoreError) : StoreOver → Step σ
  | refuse => .refuse refusal
  | moveAside => .write value true
  | overwrite => .write value false

/-- `store_step`. -/
def storeStep (role : Role) (value : σ) : Loaded σ → Step σ
  | .unreadable _ => role.onStoreIoFailure.step value .readFailed
  | .absent => .write value false
  | .obsolete _ => .write value false
  | .current _ _ => .write value false
  | .newer _ => (role.onStore .newer).step value (.unreadable .newer)
  | .corrupt => (role.onStore .corrupt).step value (.unreadable .corrupt)

/-- What a removal that the role has a rule for does. -/
def RemoveOver.step : RemoveOver → Step σ
  | keep => .nothing .kept
  | moveAside => .moveAside
  | remove => .delete

/-- `remove_step`. -/
def removeStep (role : Role) : Loaded σ → Step σ
  | .unreadable _ => role.onRemoveIoFailure.step
  | .absent => .delete
  | .obsolete _ => .delete
  | .current _ _ => .delete
  | .newer _ => (role.onRemove .newer).step
  | .corrupt => (role.onRemove .corrupt).step

/-- `step`: the one place where a role, a change and what was read become an action. -/
def step (role : Role) (loaded : Loaded σ) : Change σ → Step σ
  | .keep => .nothing .unchanged
  | .moveAside => .moveAside
  | .store value => storeStep role value loaded
  | .remove => removeStep role loaded

/-- The file, and the backups made of it. -/
structure Disk (σ : Type) where
  file : Option (Content σ)
  backups : List (Content σ)

/-- The outcome of the file system's calls in one operation. -/
structure Faults where
  openDir : Bool
  read : Option UnreadableKind
  encode : Bool
  /-- The write, the removal or the move fails. -/
  act : Bool
  /-- The backup linked for a write that failed cannot be taken back. -/
  takeBack : Bool

/-- Nothing fails. -/
def Faults.none : Faults := ⟨false, .none, false, false, false⟩

namespace Disk

variable (d : Disk σ)

/-- `Loaded::from_read`. -/
def load (read : Option UnreadableKind) : Loaded σ :=
  match read with
  | some kind => .unreadable kind
  | none => (d.file.map Content.loaded).getD .absent

/-- `VersionedFile::observe`. -/
def observe (faults : Faults) : Loaded σ :=
  d.load (if faults.openDir then some .directory else faults.read)

/-- The file under a second name. -/
def backUp : Disk σ := { d with backups := d.file.toList ++ d.backups }

/-- The action that `step` chose. -/
def act (faults : Faults) (version : Nat) : Step σ → Except StoreError UpdateOutcome × Disk σ
  | .nothing outcome => (.ok outcome, d)
  | .refuse error => (.error error, d)
  | .write value backUp =>
    let linked := if backUp then d.backUp else d
    if faults.act then (.error .io, if faults.takeBack then linked else d)
    else (.ok .stored, { linked with file := some (.current value version) })
  | .delete =>
    if d.file.isNone then (.ok .absent, d)
    else if faults.act then (.error .io, d)
    else (.ok .removed, { d with file := none })
  | .moveAside =>
    if d.file.isNone then (.ok .absent, d)
    else if faults.act then (.error .io, d)
    else (.ok .movedAside, { d.backUp with file := none })

/-- The value of a change cannot be encoded. -/
def unencodable (faults : Faults) : Change σ → Bool
  | .store _ => faults.encode
  | _ => false

/-- `VersionedFile::update`, for a schema at `version`. -/
def update (role : Role) (version : Nat) (faults : Faults) (decide : Loaded σ → Change σ) :
    Except StoreError UpdateOutcome × Disk σ :=
  if faults.openDir then (.error .io, d)
  else
    let loaded := d.load faults.read
    let change := decide loaded
    if unencodable faults change then (.error .encode, d)
    else d.act faults version (step role loaded change)

end Disk

/-! ### Records of what was done to the OS -/

/-- A removal leaves the file, or takes one that this release can read. -/
def Removes (d : Disk σ) (r : Except StoreError UpdateOutcome × Disk σ) : Prop :=
  (r = (.ok .removed, { d with file := none }) ∧ ∃ c, d.file = some c ∧ c.Readable) ∨
    (r.2 = d ∧ r.1 ≠ .ok .removed)

/-- A store leaves the file, or puts the value at its name. -/
def Stores (d : Disk σ) (value : σ) (version : Nat)
    (r : Except StoreError UpdateOutcome × Disk σ) : Prop :=
  (r = (.ok .stored, { d with file := some (.current value version) })) ∨
    (r.2 = d ∧ r.1 ≠ .ok .stored)

section OsRecord

variable (d : Disk σ) (version : Nat) (faults : Faults)

theorem act_delete (hfile : ∀ c, d.file = some c → c.Readable) :
    Removes d (d.act faults version .delete) := by
  cases hc : d.file with
  | none =>
    refine .inr ?_
    simp [Disk.act, hc]
  | some c =>
    cases hact : faults.act with
    | true =>
      refine .inr ?_
      simp [Disk.act, hc, hact]
    | false =>
      refine .inl ⟨?_, c, hc, hfile c hc⟩
      simp [Disk.act, hc, hact]

/-- **A record that this release cannot read is not removed.** -/
theorem update_remove : Removes d (d.update .osRecord version faults fun _ ↦ .remove) := by
  unfold Disk.update
  split
  · exact .inr ⟨rfl, nofun⟩
  · show Removes d (d.act faults version (removeStep .osRecord (d.load faults.read)))
    cases hread : faults.read with
    | some kind => exact .inr ⟨rfl, nofun⟩
    | none =>
      cases hc : d.file with
      | none =>
        have hload : d.load none = .absent := by simp [Disk.load, hc]
        rw [hload]
        exact act_delete d version faults (by simp [hc])
      | some c =>
        have hload : d.load none = c.loaded := by simp [Disk.load, hc]
        rw [hload]
        have hdelete (hreadable : c.Readable) : Removes d (d.act faults version .delete) :=
          act_delete d version faults fun c' hc' ↦ Option.mem_unique hc hc' ▸ hreadable
        cases c with
        | corrupt => exact .inr ⟨rfl, nofun⟩
        | newer found => exact .inr ⟨rfl, nofun⟩
        | obsolete found => exact hdelete trivial
        | current value found => exact hdelete trivial

theorem act_write (value : σ) :
    Stores d value version (d.act faults version (.write value false)) := by
  cases hact : faults.act with
  | true =>
    refine .inr ?_
    simp [Disk.act, hact]
  | false =>
    refine .inl ?_
    simp [Disk.act, hact]

/-- A store over a record that this release cannot read is refused. -/
theorem update_store (value : Loaded σ → σ) : Stores d (value (d.load none)) version
      (d.update .osRecord version faults fun loaded ↦ .store (value loaded)) := by
  unfold Disk.update
  split
  · exact .inr ⟨rfl, nofun⟩
  · dsimp only
    split
    · exact .inr ⟨rfl, nofun⟩
    · show Stores d _ version
        (d.act faults version (storeStep .osRecord (value (d.load faults.read))
        (d.load faults.read)))
      cases hread : faults.read with
      | some kind => exact .inr ⟨rfl, nofun⟩
      | none =>
        cases hload : d.load none with
        | unreadable kind => exact .inr ⟨rfl, nofun⟩
        | corrupt => exact .inr ⟨rfl, nofun⟩
        | newer found => exact .inr ⟨rfl, nofun⟩
        | _ => exact act_write d version faults _

end OsRecord

end Hole.State
