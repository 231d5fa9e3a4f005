import Hole.State.VersionedFile
import Hole.Text.Numeral
import Hole.Files.Walk

/-!
# State files as bytes

`VersionedFile` under the classification: the framing of the bytes (`versioned_file/frame.rs`,
`chain.rs`), the vouched read of what is at the name (`dir/trail.rs`), and `update` as the calls of
the file system that it makes, one after another. JSON itself is a parameter (`Json`).

An update gives the states of the folder in the order in which its calls make them, so that a
statement can be about every moment of a write and not only about its end. `disk_update` says that
the end is what `Disk.update` has of it.

The folder keeps the owner it has, and the names of the backups are not modelled.
-/

namespace Hole.Files

/-- `may_read`: whether a privileged reader may read a file of `file`'s with so many names, in a
folder of `dir`'s. -/
def mayRead (file : Owner Nat) (links : Nat) (dir : Owner Nat) : Bool :=
  match file with
  | .privileged => links = 1
  | .user id => dir = .user id

end Hole.Files

namespace Hole.State

open Files

variable {σ ρ : Type}

/-- What a file holds. -/
abbrev Bytes := List UInt8

/-! ### Framing -/

/-- What `serde_json` does for a schema. -/
structure Json (σ : Type) where
  /-- The token at the key `version` of the one JSON object that the bytes are, if there is that
  key. -/
  versionToken : Bytes → Option (Option (List Char))
  fromSlice : Bytes → Option σ
  /-- `to_vec_pretty` of a value framed with its version. -/
  toVecPretty : Nat → σ → Option Bytes

/-- What was written is not read as something else. -/
def Json.Faithful (json : Json σ) : Prop :=
  ∀ version value bytes value', json.toVecPretty version value = some bytes →
    json.fromSlice bytes = some value' → value' = value

/-- `ChainError`. -/
inductive ChainError
  | obsolete
  | shape

/-- `Schema`, with the decoder of the chain below it. -/
structure Schema (σ : Type) where
  version : Nat
  unversionedAs : Option Nat
  json : Json σ
  prev : Nat → Bytes → Except ChainError σ

/-- `Obsolete::decode`. -/
def obsolete (_ : Nat) (_ : Bytes) : Except ChainError σ := .error .obsolete

/-- `frame::Version`. -/
inductive Version
  | known (version : Nat)
  | beyondU32
  deriving DecidableEq

/-- `version_of`, by the number that the token is (`Framed.versionOf_toOption`). -/
def versionOf (token : List Char) : Option Version :=
  if token.isEmpty || !token.all Char.isDigit then none
  else
    match Text.readNat 10 token with
    | none => none
    | some n => if 2 ^ 32 ≤ n then some .beyondU32 else if n = 0 then none else some (.known n)

namespace Schema

variable (schema : Schema σ)

/-- `read_version`. -/
def readVersion (bytes : Bytes) (unversionedAs : Option Nat) : Option Version :=
  match schema.json.versionToken bytes with
  | none => none
  | some none => unversionedAs.map .known
  | some (some token) => versionOf token

/-- `Chain::decode`. -/
def decode (found : Nat) (bytes : Bytes) : Except ChainError σ :=
  if found = schema.version then
    match schema.json.fromSlice bytes with
    | some value => .ok value
    | none => .error .shape
  else schema.prev found bytes

/-- `Loaded::from_read`, of a read that gave its bytes. -/
def classify (bytes : Bytes) : Content σ :=
  match schema.readVersion bytes schema.unversionedAs with
  | none => .corrupt
  | some .beyondU32 => .newer none
  | some (.known found) =>
    if schema.version < found then .newer (some found)
    else
      match schema.decode found bytes with
      | .ok value => .current value found
      | .error .obsolete => .obsolete found
      | .error .shape => .corrupt

/-- `read_back`. -/
def readsBack (bytes : Bytes) : Bool :=
  schema.readVersion bytes none = some (.known schema.version) &&
    (schema.decode schema.version bytes).toOption.isSome

/-- `encode`: the bytes that read back. -/
def encode (value : σ) : Option Bytes :=
  (schema.json.toVecPretty schema.version value).filter schema.readsBack

variable {schema}

/-- What was encoded reads as a value of the current version. -/
theorem classify_of_encode {value : σ} {bytes : Bytes}
    (hencode : schema.encode value = some bytes) :
    ∃ value', schema.json.fromSlice bytes = some value' ∧
      schema.classify bytes = .current value' schema.version := by
  obtain ⟨-, hback⟩ := Option.filter_eq_some_iff.1 hencode
  obtain ⟨hversion, hdecode⟩ : schema.readVersion bytes none = some (.known schema.version) ∧
      (schema.decode schema.version bytes).toOption.isSome = true := by
    simpa [readsBack] using hback
  have hframed : schema.readVersion bytes schema.unversionedAs = some (.known schema.version) := by
    unfold readVersion at hversion ⊢
    split at hversion <;> simp_all
  cases hslice : schema.json.fromSlice bytes with
  | none => simp [decode, hslice, Except.toOption] at hdecode
  | some value' => exact ⟨value', rfl, by simp [classify, hframed, decode, hslice]⟩

/-- What was encoded reads as the value that it was encoded from. -/
theorem classify_encode (hjson : schema.json.Faithful) {value : σ} {bytes : Bytes}
    (hencode : schema.encode value = some bytes) :
    schema.classify bytes = .current value schema.version := by
  obtain ⟨hwritten, -⟩ := Option.filter_eq_some_iff.1 hencode
  obtain ⟨value', hslice, hclassify⟩ := classify_of_encode hencode
  rw [hclassify, hjson _ _ _ _ hwritten hslice]

end Schema

/-- A version that a file names is positive. -/
theorem versionOf_pos {token : List Char} {n : Nat} (h : versionOf token = some (.known n)) :
    0 < n := by
  unfold versionOf at h
  split at h
  · cases h
  · split at h
    · cases h
    · split at h
      · cases h
      · split at h
        · cases h
        · cases h
          omega

/-- The first version of a file, with nothing below it, has no obsolete files. -/
theorem classify_ne_obsolete {schema : Schema σ} (hversion : schema.version = 1)
    (hunversioned : schema.unversionedAs = none) (bytes : Bytes) (found : Nat) :
    schema.classify bytes ≠ .obsolete found := by
  intro h
  unfold Schema.classify at h
  split at h
  · cases h
  · cases h
  · next n hread =>
    have hpos : 0 < n := by
      unfold Schema.readVersion at hread
      split at hread
      · cases hread
      · simp [hunversioned] at hread
      · exact versionOf_pos hread
    split at h
    · cases h
    · have hn : n = schema.version := by omega
      simp only [Schema.decode, hn, if_true] at h
      split at h
      · cases h
      · next hdecode => split at hdecode <;> cases hdecode
      · cases h

/-! ### The folder -/

/-- A regular file. -/
structure Inode where
  bytes : Bytes
  owner : Owner Nat
  links : Nat
  links_pos : 0 < links
  denied : Bool

/-- What a name holds. -/
inductive Entry
  | file (inode : Inode)
  /-- A link, a directory, a FIFO. -/
  | other

/-- The entry once it has one name more. -/
def Entry.linked : Entry → Entry
  | file inode => .file { inode with links := inode.links + 1, links_pos := Nat.succ_pos _ }
  | other => .other

/-- The bytes of a regular file. -/
def Entry.bytes : Entry → Option Bytes
  | file inode => some inode.bytes
  | other => none

@[simp]
theorem Entry.bytes_linked (e : Entry) : e.linked.bytes = e.bytes := by
  cases e <;> rfl

/-- Where a state file is written: whose the folder is, and whose the files written there are. -/
structure Place where
  folder : Owner Nat
  file : Owner Nat
  vouched : file = .privileged ∨ ∃ id, folder = .user id ∧ file = .user id

/-- The system vouches for its own file. -/
theorem vouched_privileged : (.privileged : Owner Nat) = .privileged ∨
    ∃ id, (.privileged : Owner Nat) = .user id ∧ (.privileged : Owner Nat) = .user id :=
  .inl rfl

/-- The folder of a state file: what is at its name, and its backups. -/
structure Folder where
  denied : Bool
  entry : Option Entry
  backups : List Entry

/-- The outcome of the file system's calls in one update. -/
structure Failures where
  openDir : Bool
  read : Option UnreadableKind
  /-- The directory is not made or prepared, or the new file not staged. -/
  stage : Bool
  link : Bool
  /-- The rename fails: of the staged file, or of the file moved aside. -/
  publish : Bool
  /-- The unlink fails: of a backup taken back, or of the file. -/
  unlink : Bool

/-- Nothing fails. -/
def Failures.none : Failures := ⟨false, .none, false, false, false, false⟩

/-- How an update ended. -/
inductive Ended (ρ : Type)
  | panicked
  | failed (error : StoreError)
  | done (result : ρ) (outcome : UpdateOutcome)
  deriving DecidableEq

section Update

variable (place : Place) (schema : Schema σ)

/-- `Fs::read`, the vouched read, and the look at the name that follows a failed one. -/
def Entry.read : Entry → Except UnreadableKind Bytes
  | file inode =>
    if mayRead inode.owner inode.links place.folder && !inode.denied then .ok inode.bytes
    else .error .file
  | other => .error .notAFile

/-- `read_through`, where the read may fail by itself. -/
def Folder.readThrough (folder : Folder) (failure : Option UnreadableKind) : Loaded σ :=
  match failure with
  | some kind => .unreadable kind
  | none =>
    match folder.entry with
    | none => .absent
    | some entry =>
      match entry.read place with
      | .ok bytes => (schema.classify bytes).loaded
      | .error kind => .unreadable kind

/-- `VersionedFile::observe`. -/
def Folder.observe (folder : Folder) : Loaded σ :=
  if folder.denied then .unreadable .directory else folder.readThrough place schema none

/-- The folder once the staged bytes have the name. -/
def Folder.publish (folder : Folder) (bytes : Bytes) : Folder :=
  { folder with entry := some (.file ⟨bytes, place.file, 1, Nat.one_pos, false⟩) }

/-- The folder once its file has the name of a backup too. -/
def Folder.linkBackup (folder : Folder) (entry : Entry) : Folder :=
  { folder with entry := some entry.linked, backups := entry :: folder.backups }

/-- `write`: how it went, and the folders that its calls made. -/
def Folder.write (folder : Folder) (failures : Failures) (bytes : Bytes) (backUp : Bool) :
    Except StoreError Unit × List Folder :=
  if failures.stage then (.error .io, [])
  else
    match (if backUp then folder.entry else none) with
    | none =>
      if failures.publish then (.error .io, []) else (.ok (), [folder.publish place bytes])
    | some entry =>
      if failures.link then (.error .io, [])
      else
        let linked := folder.linkBackup entry
        if failures.publish then
          (.error .io, if failures.unlink then [linked] else [linked, folder])
        else (.ok (), [linked, linked.publish place bytes])

/-- The action that `step` chose. -/
def Folder.act (folder : Folder) (failures : Failures) (bytes : Option Bytes) :
    Step σ → Except StoreError UpdateOutcome × List Folder
  | .nothing outcome => (.ok outcome, [])
  | .refuse error => (.error error, [])
  | .write _ backUp =>
    match folder.write place failures (bytes.getD []) backUp with
    | (.ok (), states) => (.ok .stored, states)
    | (.error error, states) => (.error error, states)
  | .delete =>
    match folder.entry with
    | none => (.ok .absent, [])
    | some _ =>
      if failures.unlink then (.error .io, []) else (.ok .removed, [{ folder with entry := none }])
  | .moveAside =>
    match folder.entry with
    | none => (.ok .absent, [])
    | some entry =>
      if failures.publish then (.error .io, [])
      else (.ok .movedAside, [{ folder with entry := none, backups := entry :: folder.backups }])

/-- The bytes of the value to store: an error where it has none, nothing where there is no value. -/
def Schema.encodeChange : Change σ → Except StoreError (Option Bytes)
  | .store value =>
    match schema.encode value with
    | some bytes => .ok (some bytes)
    | none => .error .encode
  | .keep | .remove | .moveAside => .ok none

/-- `VersionedFile::update`: how it ended, and the folders that its calls made. -/
def Folder.update (role : Role) (folder : Folder) (failures : Failures)
    (decide : Loaded σ → Option (Change σ × ρ)) : Ended ρ × List Folder :=
  if folder.denied || failures.openDir then (.failed .io, [])
  else
    let loaded := folder.readThrough place schema failures.read
    match decide loaded with
    | none => (.panicked, [])
    | some (change, result) =>
      match schema.encodeChange change with
      | .error error => (.failed error, [])
      | .ok bytes =>
        match folder.act place failures bytes (step role loaded change) with
        | (.ok outcome, states) => (.done result outcome, states)
        | (.error error, states) => (.failed error, states)

end Update

/-- The folder at the end. -/
def Folder.final (folder : Folder) (states : List Folder) : Folder := states.getLastD folder

/-- What a write can do: publish, with a backup first or without, or fail, and then it leaves the
folder as it was unless a backup that was linked cannot be taken back. -/
theorem write_cases (place : Place) (folder : Folder) (failures : Failures) (bytes : Bytes)
    (backUp : Bool) :
    (folder.write place failures bytes backUp = (.ok (), [folder.publish place bytes]) ∧
      (backUp → folder.entry = none)) ∨
    (∃ entry, folder.entry = some entry ∧ backUp ∧
      folder.write place failures bytes backUp =
        (.ok (), [folder.linkBackup entry, (folder.linkBackup entry).publish place bytes])) ∨
    folder.write place failures bytes backUp = (.error .io, []) ∨
    (∃ entry, folder.entry = some entry ∧ backUp ∧
      folder.write place failures bytes backUp =
        (.error .io, [folder.linkBackup entry, folder])) ∨
    ∃ entry, folder.entry = some entry ∧ backUp ∧ failures.publish ∧ failures.unlink ∧
      folder.write place failures bytes backUp = (.error .io, [folder.linkBackup entry]) := by
  unfold Folder.write
  split
  · exact .inr (.inr (.inl rfl))
  · split
    · next hnone =>
      split
      · exact .inr (.inr (.inl rfl))
      · exact .inl ⟨rfl, fun hbackUp ↦ by simpa [hbackUp] using hnone⟩
    · next entry hsome =>
      obtain ⟨hbackUp, hentry⟩ : backUp = true ∧ folder.entry = some entry := by
        cases backUp <;> simp_all
      split
      · exact .inr (.inr (.inl rfl))
      · split
        · next hpublish =>
          cases hunlink : failures.unlink with
          | true => exact .inr (.inr (.inr (.inr ⟨entry, hentry, hbackUp, hpublish, rfl, rfl⟩)))
          | false => exact .inr (.inr (.inr (.inl ⟨entry, hentry, hbackUp, rfl⟩)))
        · exact .inr (.inl ⟨entry, hentry, hbackUp, rfl⟩)

/-! ### The classification -/

section Disk

variable (place : Place) (schema : Schema σ)

/-- What an entry holds, for a reader that gets its bytes. -/
def Schema.content : Entry → Content σ
  | .file inode => schema.classify inode.bytes
  | .other => .corrupt

/-- The folder as its files are classified. -/
def Folder.disk (folder : Folder) : Disk σ :=
  ⟨folder.entry.map schema.content, folder.backups.map schema.content⟩

/-- How an update ended, for its file. -/
def Ended.result : Ended ρ → Option (Except StoreError UpdateOutcome)
  | panicked => none
  | failed error => some (.error error)
  | done _ outcome => some (.ok outcome)

variable {schema}

@[simp]
theorem Schema.content_linked (e : Entry) : schema.content e.linked = schema.content e := by
  cases e <;> rfl

theorem disk_readThrough (folder : Folder) (failure : Option UnreadableKind) :
    ∃ read, (folder.disk schema).load read = folder.readThrough place schema failure := by
  cases failure with
  | some kind => exact ⟨some kind, rfl⟩
  | none =>
    rcases hentry : folder.entry with - | e
    · exact ⟨none, by simp [Disk.load, Folder.disk, Folder.readThrough, hentry]⟩
    · cases e with
      | other => exact ⟨some .notAFile, by simp [Disk.load, Folder.readThrough, hentry, Entry.read]⟩
      | file inode =>
        by_cases hread : mayRead inode.owner inode.links place.folder && !inode.denied
        · refine ⟨none, ?_⟩
          simp [Disk.load, Folder.disk, Folder.readThrough, hentry, Entry.read, hread,
            Schema.content]
        · refine ⟨some .file, ?_⟩
          simp [Disk.load, Folder.readThrough, hentry, Entry.read, hread]

/-- A write of bytes that read as the value, as the classified file has it. -/
theorem disk_write (folder : Folder) (failures : Failures) {bytes : Bytes} {value : σ}
    (hbytes : schema.classify bytes = .current value schema.version) (backUp : Bool) :
    ∃ act takeBack, ∀ openDir read encode,
      (folder.disk schema).act ⟨openDir, read, encode, act, takeBack⟩ schema.version
          (.write value backUp) =
        (((folder.write place failures bytes backUp).1.map fun _ ↦ .stored),
          (folder.final (folder.write place failures bytes backUp).2).disk schema) := by
  by_cases hstage : failures.stage
  · refine ⟨true, false, fun _ _ _ ↦ ?_⟩
    simp [Disk.act, Folder.write, hstage, Folder.final, Except.map]
  · cases hbackUp : (if backUp then folder.entry else none) with
    | none =>
      by_cases hpublish : failures.publish
      · refine ⟨true, false, fun _ _ _ ↦ ?_⟩
        simp [Disk.act, Folder.write, hstage, hbackUp, hpublish, Folder.final, Except.map]
      · refine ⟨false, false, fun _ _ _ ↦ ?_⟩
        have hfile : (if backUp then (folder.disk schema).backUp else folder.disk schema) =
            folder.disk schema := by
          cases backUp
          · rfl
          · have hentry : folder.entry = none := by simpa using hbackUp
            simp [Disk.backUp, Folder.disk, hentry]
        simp only [Disk.act, hfile]
        simp [Folder.write, hstage, hbackUp, hpublish, Folder.final, Except.map, Folder.publish,
          Folder.disk, Schema.content, hbytes]
    | some entry =>
      obtain ⟨rfl, hentry⟩ : backUp = true ∧ folder.entry = some entry := by
        cases backUp <;> simp_all
      by_cases hlink : failures.link
      · refine ⟨true, false, fun _ _ _ ↦ ?_⟩
        simp [Disk.act, Folder.write, hstage, hentry, hlink, Folder.final, Except.map]
      · by_cases hpublish : failures.publish
        · refine ⟨true, failures.unlink, fun _ _ _ ↦ ?_⟩
          cases hunlink : failures.unlink <;>
            simp [Disk.act, Folder.write, hstage, hentry, hlink, hpublish, hunlink, Folder.final,
              Folder.linkBackup, Except.map, Disk.backUp, Folder.disk]
        · refine ⟨false, false, fun _ _ _ ↦ ?_⟩
          simp [Disk.act, Folder.write, hstage, hentry, hlink, hpublish, Folder.final, Except.map,
            Disk.backUp, Folder.disk, Folder.linkBackup, Folder.publish, Schema.content, hbytes]

/-- An action, as the classified file has it. The bytes are those of the value, for a write. -/
theorem disk_act (folder : Folder) (failures : Failures) (bytes : Option Bytes) (s : Step σ)
    (hbytes : ∀ value backUp, s = .write value backUp →
      schema.classify (bytes.getD []) = .current value schema.version) :
    ∃ act takeBack, ∀ openDir read encode,
      (folder.disk schema).act ⟨openDir, read, encode, act, takeBack⟩ schema.version s =
        ((folder.act place failures bytes s).1,
          (folder.final (folder.act place failures bytes s).2).disk schema) := by
  cases s with
  | nothing outcome => exact ⟨false, false, fun _ _ _ ↦ rfl⟩
  | refuse error => exact ⟨false, false, fun _ _ _ ↦ rfl⟩
  | write value backUp =>
    obtain ⟨act, takeBack, h⟩ := disk_write place folder failures (hbytes value backUp rfl) backUp
    refine ⟨act, takeBack, fun openDir read encode ↦ (h openDir read encode).trans ?_⟩
    rcases hwrite : folder.write place failures (bytes.getD []) backUp with ⟨_ | _, states⟩ <;>
      simp [Folder.act, hwrite, Except.map]
  | delete =>
    refine ⟨failures.unlink, false, fun _ _ _ ↦ ?_⟩
    cases hentry : folder.entry <;> cases hunlink : failures.unlink <;>
      simp [Disk.act, Folder.act, Folder.disk, Folder.final, hentry, hunlink]
  | moveAside =>
    refine ⟨failures.publish, false, fun _ _ _ ↦ ?_⟩
    cases hentry : folder.entry <;> cases hpublish : failures.publish <;>
      simp [Disk.act, Folder.act, Folder.disk, Folder.final, Disk.backUp, hentry, hpublish]

/-- A step that writes comes from a store of the value. -/
theorem change_of_step_write {role : Role} {loaded : Loaded σ} {change : Change σ} {value : σ}
    {backUp : Bool} (h : step role loaded change = .write value backUp) :
    change = .store value := by
  cases change with
  | keep => cases h
  | moveAside => cases h
  | store value' =>
    cases role <;> cases loaded <;> cases h <;> rfl
  | remove =>
    cases role <;> cases loaded <;> cases h

/-- **An update of the bytes is an update of the classified file**, for some outcome of its
calls. -/
theorem disk_update (hjson : schema.json.Faithful) (role : Role) (folder : Folder)
    (failures : Failures) (decide : Loaded σ → Change σ × ρ) :
    ∃ faults result, (folder.update place schema role failures (some ∘ decide)).1.result =
        some result ∧
      (folder.disk schema).update role schema.version faults (fun loaded ↦ (decide loaded).1) =
        (result, (folder.final (folder.update place schema role failures (some ∘ decide)).2).disk
          schema) := by
  by_cases hdir : folder.denied || failures.openDir
  · refine ⟨⟨true, none, false, false, false⟩, .error .io, ?_, ?_⟩
    · simp [Folder.update, hdir, Ended.result]
    · simp [Folder.update, hdir, Disk.update, Folder.final]
  · obtain ⟨read, hread⟩ : ∃ read,
        (folder.disk schema).load read = folder.readThrough place schema failures.read :=
      disk_readThrough place folder failures.read
    obtain ⟨change, result, hdecide⟩ :
        ∃ change result, decide (folder.readThrough place schema failures.read) =
        (change, result) :=
      ⟨_, _, rfl⟩
    cases hencode : schema.encodeChange change with
    | error error =>
      obtain ⟨value, rfl, rfl⟩ : ∃ value, change = .store value ∧ error = .encode := by
        cases change with
        | store value =>
          refine ⟨value, rfl, ?_⟩
          simp only [Schema.encodeChange] at hencode
          split at hencode
          · cases hencode
          · exact (Except.error.inj hencode).symm
        | _ => cases hencode
      refine ⟨⟨false, read, true, false, false⟩, .error .encode, ?_, ?_⟩
      · simp [Folder.update, hdir, hdecide, hencode, Ended.result]
      · simp [Folder.update, hdir, hdecide, hencode, Disk.update, hread, Disk.unencodable,
          Folder.final]
    | ok bytes =>
      have hbytes (value : σ) (backUp : Bool)
          (hstep : step role (folder.readThrough place schema failures.read) change =
            .write value backUp) :
          schema.classify (bytes.getD []) = .current value schema.version := by
        obtain rfl := change_of_step_write hstep
        simp only [Schema.encodeChange] at hencode
        split at hencode
        · next hvalue =>
          cases hencode
          exact Schema.classify_encode hjson hvalue
        · cases hencode
      obtain ⟨act, takeBack, hact⟩ := disk_act place folder failures bytes _ hbytes
      have hunencodable : Disk.unencodable ⟨false, read, false, act, takeBack⟩ change = false := by
        cases change <;> rfl
      rcases hdone : folder.act place failures bytes
        (step role (folder.readThrough place schema failures.read) change) with ⟨r, states⟩
      rw [hdone] at hact
      refine ⟨⟨false, read, false, act, takeBack⟩, r, ?_, ?_⟩
      · cases r <;> simp [Folder.update, hdir, hdecide, hencode, hdone, Ended.result]
      · cases r <;> simp [Disk.update, hread, hdecide, hunencodable, hact, Folder.update, hdir,
          hencode, hdone]

/-- A flag, by its text on disk. -/
def flagText (on : Bool) : Bytes :=
  (if on then "\x7b\n  \"version\": 1,\n  \"on\": true\n\x7d"
    else "\x7b\n  \"version\": 1,\n  \"on\": false\n\x7d").toList.map fun c ↦ c.toNat.toUInt8

/-- A flag, of version 1. -/
def flagSchema : Schema Bool where
  version := 1
  unversionedAs := none
  json :=
    { versionToken := fun bytes ↦
        if bytes = flagText true ∨ bytes = flagText false then some (some ['1']) else none
      fromSlice := fun bytes ↦
        if bytes = flagText true then some true
        else if bytes = flagText false then some false else none
      toVecPretty := fun _ on ↦ some (flagText on) }
  prev := obsolete

theorem flagSchema_faithful : flagSchema.json.Faithful := by
  have hne : flagText false ≠ flagText true := by decide
  rintro version on bytes on' ⟨⟩ hread
  cases on <;> simpa [flagSchema, hne, eq_comm] using hread

/-- A flag is stored where no file was. -/
theorem disk_update_flag : ∃ faults result,
    ((⟨false, none, []⟩ : Folder).update ⟨.privileged, .privileged, vouched_privileged⟩ flagSchema
        .decision .none fun _ ↦ some (.store true, ())).1.result = some result ∧
      ((⟨false, none, []⟩ : Folder).disk flagSchema).update .decision 1 faults
        (fun _ ↦ .store true) = (result, (Folder.final ⟨false, none, []⟩
          ((⟨false, none, []⟩ : Folder).update ⟨.privileged, .privileged, vouched_privileged⟩
            flagSchema .decision .none fun _ ↦ some (.store true, ())).2).disk flagSchema) :=
  disk_update ⟨.privileged, .privileged, vouched_privileged⟩ flagSchema_faithful .decision
    ⟨false, none, []⟩ .none fun _ ↦ (.store true, ())

end Disk

end Hole.State
