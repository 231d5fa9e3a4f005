import Hole.State.OnDisk
import Hole.Bridge.Ipc

/-!
# The target file

`bridge-target.json` and its one write surface, `apply` (`bridge/src/target.rs`): a locked read, a
decision, and the store that the decision calls for. A target that is not decided has no form on
disk, so `persisted` asserts that it is never given one; the build may check that or not.

The decisions are those that the bridge makes: of a session event, of the startup preference, and
the two constants of a connect and a disconnect. A run is any list of calls, each with any outcome
of its file system calls.
-/

namespace Hole.Bridge

open State Files

variable {κ : Type}

/-- `PersistedTarget`: what the file may hold. -/
inductive PersistedTarget (κ : Type)
  | off
  | connected (config : κ)
  deriving DecidableEq

/-- `From<PersistedTarget>`. -/
def PersistedTarget.target : PersistedTarget κ → Target κ
  | off => .off
  | connected config => .connected config

/-- `TargetFile`, a `Schema`. -/
def targetFile (json : Json (PersistedTarget κ)) : Schema (PersistedTarget κ) :=
  ⟨1, none, json, obsolete⟩

/-- `target_of`. -/
def targetOf : Loaded (PersistedTarget κ) → Target κ
  | .absent => .off
  | .current value _ => value.target
  | .obsolete _ => .unreadable
  | .newer _ => .unreadable
  | .corrupt => .unreadable
  | .unreadable _ => .unreadable

/-- `persisted`. A build that checks the assertion gives nothing for what has no form on disk. -/
def persisted (debug : Bool) : Target κ → Option (PersistedTarget κ)
  | .off => some .off
  | .connected config => some (.connected config)
  | .unreadable => if debug then none else some .off

/-- The decision that `apply` is given. -/
inductive Decision (κ : Type)
  | session (event : SessionEvent)
  | startup (behavior : StartupBehavior) (candidate : Option κ)
  | off
  | connected (config : κ)

/-- What is decided over the current target. -/
def Decision.next (current : Target κ) : Decision κ → Target κ
  | .session event => targetAfter current event
  | .startup behavior candidate => resolveStartupTarget current behavior candidate
  | .off => .off
  | .connected config => .connected config

/-! ### Reading and deciding -/

section Load

variable (place : Place) (json : Json (PersistedTarget κ))

/-- What a read through the folder says of the target. -/
def readTarget (failure : Option UnreadableKind) (folder : Folder) : Target κ :=
  targetOf (folder.readThrough place (targetFile json) failure)

/-- `load`. -/
def load (folder : Folder) : Target κ := targetOf (folder.observe place (targetFile json))

variable {place json}

theorem load_eq_readTarget {folder : Folder} (hopen : folder.denied = false) :
    load place json folder = readTarget place json none folder := by
  simp [load, readTarget, Folder.observe, hopen]

/-- A file that does not load is one that no call reads. -/
theorem readTarget_of_load {folder : Folder} (hopen : folder.denied = false)
    (h : load place json folder = .unreadable) (failure : Option UnreadableKind) :
    readTarget place json failure folder = .unreadable := by
  cases failure with
  | some kind => rfl
  | none => rw [← load_eq_readTarget hopen, h]

/-- What was published loads as the target that it was encoded from. -/
theorem load_publish {folder : Folder} (hopen : folder.denied = false) {bytes : Bytes}
    {value : PersistedTarget κ} (hbytes : (targetFile json).classify bytes = .current value 1) :
    load place json (folder.publish place bytes) = value.target := by
  have hread : mayRead place.file 1 place.folder = true := by
    obtain hfile | ⟨id, hfolder, hfile⟩ := place.vouched
    · simp [mayRead, hfile]
    · simp [mayRead, hfile, hfolder]
  have hpublished : (folder.publish place bytes).denied = false := hopen
  rw [load_eq_readTarget hpublished]
  simp [readTarget, Folder.readThrough, Folder.publish, Entry.read, hread, hbytes, Content.loaded,
    targetOf]

/-- A second name leaves what loads, or hides it. -/
theorem load_linkBackup {folder : Folder} {entry : Entry} (hentry : folder.entry = some entry) :
    load place json (folder.linkBackup entry) = load place json folder ∨
      load place json (folder.linkBackup entry) = .unreadable := by
  cases hopen : folder.denied with
  | true => exact .inr (by simp [load, Folder.observe, Folder.linkBackup, hopen, targetOf])
  | false =>
    have hlinked : (folder.linkBackup entry).denied = false := hopen
    rw [load_eq_readTarget hopen, load_eq_readTarget hlinked]
    cases entry with
    | other => exact .inr rfl
    | file inode =>
      simp only [readTarget, Folder.readThrough, Folder.linkBackup, Entry.linked,
        Entry.read, hentry]
      cases howner : inode.owner with
      | privileged =>
        -- The file had a name already, so that it has two now.
        have hpos := inode.links_pos
        have hnames : mayRead .privileged (inode.links + 1) place.folder = false := by
          simp only [mayRead, decide_eq_false_iff_not]
          omega
        exact .inr (by simp [hnames, targetOf])
      | user id => exact .inl rfl

end Load

section Apply

variable [DecidableEq κ] (place : Place) (json : Json (PersistedTarget κ)) (debug : Bool)

/-- A store of the target. -/
def storeTarget (next : Target κ) : Option (Change (PersistedTarget κ) × Target κ) :=
  (persisted debug next).map fun value ↦ (.store value, next)

/-- The change that `apply` makes of what it read. -/
def changeTarget (decision : Decision κ) (loaded : Loaded (PersistedTarget κ)) :
    Option (Change (PersistedTarget κ) × Target κ) :=
  let current := targetOf loaded
  let next := decision.next current
  match next, loaded with
  | .unreadable, _ => some (.keep, next)
  | _, .current _ _ => if next = current then some (.keep, next) else storeTarget debug next
  | _, _ => storeTarget debug next

/-- `apply`. -/
def apply (decision : Decision κ) (failures : Failures) (folder : Folder) :
    Ended (Target κ) × List Folder :=
  folder.update place (targetFile json) .decision failures (changeTarget debug decision)

end Apply

/-! ### One call -/

theorem persisted_of_ne (debug : Bool) {next : Target κ} (h : next ≠ .unreadable) :
    ∃ value, persisted debug next = some value ∧ value.target = next := by
  cases next with
  | off => exact ⟨.off, rfl, rfl⟩
  | connected config => exact ⟨.connected config, rfl, rfl⟩
  | unreadable => exact absurd rfl h

/-- What a read of the target file may find. -/
theorem readThrough_ne_obsolete (place : Place) (json : Json (PersistedTarget κ))
    (failure : Option UnreadableKind) (folder : Folder) (found : Nat) :
    folder.readThrough place (targetFile json) failure ≠ .obsolete found := by
  unfold Folder.readThrough
  split
  · nofun
  · split
    · nofun
    · split
      · next bytes _ =>
        cases hbytes : (targetFile json).classify bytes with
        | obsolete found' => exact absurd hbytes (classify_ne_obsolete rfl rfl bytes found')
        | _ => nofun
      · nofun

/-- A store of a decision backs up exactly what cannot be read. -/
theorem storeStep_decision {loaded : Loaded (PersistedTarget κ)} (value : PersistedTarget κ)
    (hloaded : ∀ found, loaded ≠ .obsolete found) :
    ∃ backUp : Bool, storeStep .decision value loaded = .write value backUp ∧
      (backUp ↔ targetOf loaded = .unreadable) := by
  cases loaded with
  | obsolete found => exact absurd rfl (hloaded found)
  | absent => exact ⟨false, rfl, by simp [targetOf]⟩
  | current value' found => exact ⟨false, rfl, by cases value' <;> simp [targetOf,
    PersistedTarget.target]⟩
  | _ => exact ⟨true, rfl, by simp [targetOf]⟩

/-- What a call can do, where `current` is the target that it read and `next` the one it decided. -/
inductive Applied (place : Place) (json : Json (PersistedTarget κ)) (failures : Failures)
    (folder : Folder) (current next : Target κ) : Ended (Target κ) → List Folder → Prop
  /-- The directory does not open. -/
  | shut (h : folder.denied ∨ failures.openDir) :
    Applied place json failures folder current next (.failed .io) []
  | kept (hopen : folder.denied = false) (h : next = .unreadable ∨ next = current ∧
    failures.read = none) :
    Applied place json failures folder current next (.done next .unchanged) []
  /-- Nothing was written. -/
  | refused (hopen : folder.denied = false) (hnext : next ≠ .unreadable) (error : StoreError) :
    Applied place json failures folder current next (.failed error) []
  | stored {bytes : Bytes} {value : PersistedTarget κ} (hopen : folder.denied = false)
    (hnext : next ≠ .unreadable) (hvalue : value.target = next)
    (hbytes : (targetFile json).classify bytes = .current value 1)
    (hnone : current = .unreadable → folder.entry = none) :
    Applied place json failures folder current next (.done next .stored)
      [folder.publish place bytes]
  | backedUp {bytes : Bytes} {value : PersistedTarget κ} {entry : Entry}
    (hopen : folder.denied = false) (hnext : next ≠ .unreadable) (hvalue : value.target = next)
    (hbytes : (targetFile json).classify bytes = .current value 1)
    (hcurrent : current = .unreadable) (hentry : folder.entry = some entry) :
    Applied place json failures folder current next (.done next .stored)
      [folder.linkBackup entry, (folder.linkBackup entry).publish place bytes]
  /-- The backup was taken back. -/
  | takenBack {entry : Entry} (hopen : folder.denied = false) (hnext : next ≠ .unreadable)
    (hcurrent : current = .unreadable) (hentry : folder.entry = some entry) :
    Applied place json failures folder current next (.failed .io) [folder.linkBackup entry, folder]
  /-- The backup could not be taken back. -/
  | left {entry : Entry} (hopen : folder.denied = false) (hnext : next ≠ .unreadable)
    (hcurrent : current = .unreadable) (hentry : folder.entry = some entry)
    (hpublish : failures.publish) (hunlink : failures.unlink) :
    Applied place json failures folder current next (.failed .io) [folder.linkBackup entry]

section Cases

variable [DecidableEq κ]

/-- What is decided is kept, where it is nothing or what the file says, and stored otherwise. -/
theorem changeTarget_cases (debug : Bool) (decision : Decision κ)
    (loaded : Loaded (PersistedTarget κ)) :
    (changeTarget debug decision loaded = some (.keep, decision.next (targetOf loaded)) ∧
      (decision.next (targetOf loaded) = .unreadable ∨
        decision.next (targetOf loaded) = targetOf loaded ∧ ∃ value found,
          loaded = .current value found)) ∨
      decision.next (targetOf loaded) ≠ .unreadable ∧
        ∃ value, value.target = decision.next (targetOf loaded) ∧
          changeTarget debug decision loaded =
            some (.store value, decision.next (targetOf loaded)) := by
  unfold changeTarget
  dsimp only
  split
  · next hnext => exact .inl ⟨by rw [hnext], .inl hnext⟩
  · next value found hnext =>
    split
    · next heq => exact .inl ⟨rfl, .inr ⟨heq, value, found, rfl⟩⟩
    · obtain ⟨stored, hstored, htarget⟩ := persisted_of_ne debug hnext
      exact .inr ⟨hnext, stored, htarget, by simp [storeTarget, hstored]⟩
  · next hnext =>
    obtain ⟨stored, hstored, htarget⟩ := persisted_of_ne debug hnext
    exact .inr ⟨hnext, stored, htarget, by simp [storeTarget, hstored]⟩

variable (place : Place) (json : Json (PersistedTarget κ)) (debug : Bool) (decision : Decision κ)
  (failures : Failures) (folder : Folder)

/-- A store of a decided target. -/
theorem applied_store (hjson : json.Faithful) {value : PersistedTarget κ} {next : Target κ}
    (hopen : folder.denied = false) (hnext : next ≠ .unreadable) (hvalue : value.target = next)
    (hdecide : changeTarget debug decision
        (folder.readThrough place (targetFile json) failures.read) = some (.store value, next))
    (hopens : failures.openDir = false) :
    Applied place json failures folder (readTarget place json failures.read folder) next
      (apply place json debug decision failures folder).1
      (apply place json debug decision failures folder).2 := by
  unfold apply Folder.update
  simp only [hopen, hopens, Bool.or_self, Bool.false_eq_true, if_false, hdecide,
    Schema.encodeChange]
  cases hencode : (targetFile json).encode value with
  | none => exact .refused hopen hnext .encode
  | some bytes =>
    have hbytes : (targetFile json).classify bytes = .current value 1 :=
      Schema.classify_encode hjson hencode
    obtain ⟨backUp, hstep, hbackUp⟩ := storeStep_decision value
      (readThrough_ne_obsolete place json failures.read folder)
    simp only [step, hstep, Folder.act, Option.getD_some]
    rcases write_cases place folder failures bytes backUp with
      ⟨hwrite, hnone⟩ | ⟨entry, hentry, hbacked, hwrite⟩ | hwrite |
        ⟨entry, hentry, hbacked, hwrite⟩ | ⟨entry, hentry, hbacked, hpublish, hunlink, hwrite⟩
    · rw [hwrite]
      exact .stored hopen hnext hvalue hbytes fun hcurrent ↦ hnone (hbackUp.2 hcurrent)
    · rw [hwrite]
      exact .backedUp hopen hnext hvalue hbytes (hbackUp.1 hbacked) hentry
    · rw [hwrite]
      exact .refused hopen hnext .io
    · rw [hwrite]
      exact .takenBack hopen hnext (hbackUp.1 hbacked) hentry
    · rw [hwrite]
      exact .left hopen hnext (hbackUp.1 hbacked) hentry hpublish hunlink

/-- Every call does one of these things. -/
theorem applied (hjson : json.Faithful) :
    Applied place json failures folder (readTarget place json failures.read folder)
      (decision.next (readTarget place json failures.read folder))
      (apply place json debug decision failures folder).1
      (apply place json debug decision failures folder).2 := by
  cases hopen : folder.denied with
  | true =>
    simp only [apply, Folder.update, hopen, Bool.true_or, if_true]
    exact .shut (.inl hopen)
  | false =>
    cases hopens : failures.openDir with
    | true =>
      simp only [apply, Folder.update, hopen, hopens, Bool.or_true, if_true]
      exact .shut (.inr hopens)
    | false =>
      rcases changeTarget_cases debug decision
        (folder.readThrough place (targetFile json) failures.read) with
          ⟨hkeep, hsame⟩ | ⟨hnext, value, hvalue, hstore⟩
      · simp only [apply, Folder.update, hopen, hopens, Bool.or_self, Bool.false_eq_true, if_false,
          hkeep, Schema.encodeChange, step, Folder.act]
        refine .kept hopen (hsame.imp id ?_)
        rintro ⟨heq, value, found, hcurrent⟩
        refine ⟨heq, ?_⟩
        cases hread : failures.read with
        | none => rfl
        | some kind => rw [hread] at hcurrent; cases hcurrent
      · exact applied_store place json debug decision failures folder hjson hopen hnext hvalue
          hstore hopens

end Cases

/-! ### Runs -/

/-- A call of `apply`. -/
structure Call (κ : Type) where
  before : Folder
  decision : Decision κ
  failures : Failures
  ended : Ended (Target κ)
  /-- The folders that its file system calls made, in their order. -/
  states : List Folder

/-- The folder after it. -/
def Call.after (c : Call κ) : Folder := c.before.final c.states

section Run

variable [DecidableEq κ] (place : Place) (json : Json (PersistedTarget κ)) (debug : Bool)

/-- The call of one decision. -/
def callOf (folder : Folder) (decision : Decision κ) (failures : Failures) : Call κ :=
  ⟨folder, decision, failures, (apply place json debug decision failures folder).1,
    (apply place json debug decision failures folder).2⟩

/-- The calls of a run, one after another. -/
def calls : Folder → List (Decision κ × Failures) → List (Call κ)
  | _, [] => []
  | folder, (decision, failures) :: rest =>
    callOf place json debug folder decision failures ::
      calls (callOf place json debug folder decision failures).after rest

end Run

/-- The bytes of the entry are at the name still, or the entry is a backup. -/
def Retains (folder : Folder) (entry : Entry) : Prop :=
  (∃ e, folder.entry = some e ∧ e.bytes = entry.bytes) ∨ entry ∈ folder.backups

/-- What a call means for the target that loads. -/
structure Call.Meant (place : Place) (json : Json (PersistedTarget κ)) (c : Call κ) : Prop where
  not_panicked : c.ended ≠ .panicked
  /-- The target that is given back is the one that loads. -/
  loads : ∀ target outcome, c.ended = .done target outcome → target ≠ .unreadable →
    load place json c.after = target
  /-- Where nothing is decided, nothing is written. -/
  undecided : c.decision.next (readTarget place json c.failures.read c.before) = .unreadable →
    c.states = []
  /-- What cannot be read is never lost, not at any moment. -/
  backed_up : load place json c.before = .unreadable ∨
      readTarget place json c.failures.read c.before = .unreadable →
    ∀ entry, c.before.entry = some entry → ∀ folder ∈ c.states, Retains folder entry
  backups : ∀ folder ∈ c.states, c.before.backups ⊆ folder.backups
  /-- An event that is no decision changes nothing that loads. -/
  event : ∀ event, c.decision = .session event →
    event = .cutoverRestart ∨ event = .blipped ∨ event = .processExiting →
    load place json c.after = load place json c.before
  /-- An error changes nothing that loads, unless a file whose read had failed could not be rid of
  the name of its backup. -/
  error : ∀ error, c.ended = .failed error → load place json c.after = load place json c.before ∨
      c.failures.read ≠ none ∧ c.failures.publish ∧ c.failures.unlink ∧
        load place json c.after = .unreadable

section Meant

variable {place : Place} {json : Json (PersistedTarget κ)} {failures : Failures} {folder : Folder}
  {current next : Target κ} {ended : Ended (Target κ)} {states : List Folder}

namespace Applied

theorem not_panicked (h : Applied place json failures folder current next ended states) :
    ended ≠ .panicked := by
  cases h <;> nofun

/-- What was decided loads. -/
theorem loads (h : Applied place json failures folder
    (readTarget place json failures.read folder) next ended states) {target : Target κ}
    {outcome : UpdateOutcome} (hended : ended = .done target outcome)
    (htarget : target ≠ .unreadable) :
    load place json (folder.final states) = target := by
  cases h with
  | kept hopen hsame =>
    cases hended
    obtain hnext | ⟨hnext, hread⟩ := hsame
    · exact absurd hnext htarget
    · rw [hread] at hnext
      exact (load_eq_readTarget hopen).trans hnext.symm
  | stored hopen _ hvalue hbytes =>
    cases hended
    exact (load_publish hopen hbytes).trans hvalue
  | backedUp hopen _ hvalue hbytes =>
    cases hended
    exact (load_publish hopen hbytes).trans hvalue
  | _ => cases hended

theorem undecided (h : Applied place json failures folder current .unreadable ended states) :
    states = [] := by
  cases h with
  | shut | kept => rfl
  | refused _ hnext | stored _ hnext | backedUp _ hnext | takenBack _ hnext | left _ hnext =>
    exact absurd rfl hnext

/-- A file that cannot be read stays, or is a backup before it goes. -/
theorem keeps (h : Applied place json failures folder .unreadable next ended states)
    {entry : Entry} (hentry : folder.entry = some entry) : ∀ f ∈ states, Retains f entry := by
  have hbackUp {e : Entry} (he : folder.entry = some e) : entry ∈ e :: folder.backups :=
    Option.mem_unique hentry he ▸ (.head _) ..
  cases h with
  | shut | kept | refused => nofun
  | stored _ _ _ _ hnone => simp [hnone rfl] at hentry
  | backedUp _ _ _ _ _ he =>
    rintro f (_ | ⟨_, _ | ⟨_, ⟨⟩⟩⟩)
    · exact .inr (hbackUp he)
    · exact .inr (hbackUp he)
  | takenBack _ _ _ he =>
    rintro f (_ | ⟨_, _ | ⟨_, ⟨⟩⟩⟩)
    · exact .inr (hbackUp he)
    · exact .inl ⟨entry, hentry, rfl⟩
  | left _ _ _ he =>
    rintro f (_ | ⟨_, ⟨⟩⟩)
    exact .inr (hbackUp he)

theorem backups (h : Applied place json failures folder current next ended states) :
    ∀ f ∈ states, folder.backups ⊆ f.backups := by
  cases h with
  | shut | kept | refused => nofun
  | stored =>
    rintro f (_ | ⟨_, ⟨⟩⟩)
    exact List.Subset.refl _
  | backedUp =>
    rintro f (_ | ⟨_, _ | ⟨_, ⟨⟩⟩⟩)
    · exact List.subset_cons_self ..
    · exact List.subset_cons_self ..
  | takenBack =>
    rintro f (_ | ⟨_, _ | ⟨_, ⟨⟩⟩⟩)
    · exact List.subset_cons_self ..
    · exact List.Subset.refl _
  | left =>
    rintro f (_ | ⟨_, ⟨⟩⟩)
    exact List.subset_cons_self ..

/-- A decision for what was read changes nothing that loads. -/
theorem same (h : Applied place json failures folder (readTarget place json failures.read folder)
    (readTarget place json failures.read folder) ended states) :
    load place json (folder.final states) = load place json folder := by
  cases h with
  | shut | kept | refused => rfl
  | stored hopen hnext hvalue hbytes =>
    refine (load_publish hopen hbytes).trans (hvalue.trans ?_)
    cases hread : failures.read with
    | none => exact (load_eq_readTarget hopen).symm
    | some kind => rw [hread] at hnext; exact absurd rfl hnext
  | backedUp _ hnext _ _ hcurrent | takenBack _ hnext hcurrent | left _ hnext hcurrent =>
    exact absurd hcurrent hnext

/-- An error changes nothing that loads, or leaves a second name that hides the file. -/
theorem error (h : Applied place json failures folder (readTarget place json failures.read folder)
    next ended states) {error : StoreError} (hended : ended = .failed error) :
    load place json (folder.final states) = load place json folder ∨
      failures.read ≠ none ∧ failures.publish ∧ failures.unlink ∧
        load place json (folder.final states) = .unreadable := by
  cases h with
  | shut | refused | takenBack => exact .inl rfl
  | kept | stored | backedUp => cases hended
  | left hopen _ hcurrent hentry hpublish hunlink =>
    have hlinked : load place json (folder.linkBackup _) = _ ∨ _ := load_linkBackup hentry
    cases hread : failures.read with
    | none =>
      rw [hread, ← load_eq_readTarget hopen] at hcurrent
      exact .inl (hlinked.elim id fun h ↦ h.trans hcurrent.symm)
    | some kind =>
      exact hlinked.imp id fun h ↦ ⟨nofun, hpublish, hunlink, h⟩

end Applied

end Meant

theorem meant_apply [DecidableEq κ] (place : Place) {json : Json (PersistedTarget κ)}
    (hjson : json.Faithful) (debug : Bool) (decision : Decision κ) (failures : Failures)
    (folder : Folder) :
    (callOf place json debug folder decision failures).Meant place json := by
  have happlied := applied place json debug decision failures folder hjson
  refine ⟨happlied.not_panicked, fun _ _ ↦ happlied.loads, fun hnext ↦ ?_,
    fun hunread entry hentry ↦ ?_,
    happlied.backups, fun event hevent hkind ↦ ?_, fun _ ↦ happlied.error⟩
  · change decision.next (readTarget place json failures.read folder) = .unreadable at hnext
    rw [hnext] at happlied
    exact happlied.undecided
  · cases hopen : folder.denied with
    | true =>
      have hshut : (callOf place json debug folder decision failures).states = [] := by
        simp [callOf, apply, Folder.update, hopen]
      rw [hshut]
      rintro _ ⟨⟩
    | false =>
      have hcurrent : readTarget place json failures.read folder = .unreadable :=
        hunread.elim (readTarget_of_load hopen · failures.read) id
      rw [hcurrent] at happlied
      exact happlied.keeps hentry
  · have hnext : decision.next (readTarget place json failures.read folder) =
        readTarget place json failures.read folder := by
      obtain rfl : decision = .session event := hevent
      obtain rfl | rfl | rfl := hkind <;> rfl
    rw [hnext] at happlied
    exact happlied.same

/-- **The persisted target means what was decided**, in every run of `apply`. -/
theorem target_means_decision [DecidableEq κ] (place : Place) (json : Json (PersistedTarget κ))
    (hjson : json.Faithful) (debug : Bool) (folder : Folder)
    (decisions : List (Decision κ × Failures)) :
    ∀ c ∈ calls place json debug folder decisions, c.Meant place json := by
  induction decisions generalizing folder with
  | nil => simp [calls]
  | cons d rest ih =>
    obtain ⟨decision, failures⟩ := d
    intro c hc
    rw [calls, List.mem_cons] at hc
    obtain rfl | hrest := hc
    · exact meant_apply place hjson debug decision failures folder
    · exact ih _ c hrest

/-! ### A decision of no connection -/

/-- A file that records no connection. -/
def offText : Bytes :=
  "\x7b\n  \"version\": 1,\n  \"target\": \x7b\n    \"state\": \"off\"\n  \x7d\n\x7d".toList.map
    fun c ↦ c.toNat.toUInt8

/-- JSON as far as that file. -/
def offJson : Json (PersistedTarget Unit) where
  versionToken bytes := if bytes = offText then some (some ['1']) else none
  fromSlice bytes := if bytes = offText then some .off else none
  toVecPretty version value := if version = 1 ∧ value = .off then some offText else none

theorem offJson_faithful : offJson.Faithful := by
  intro version value bytes value' hwrite hread
  simp only [offJson, Option.ite_none_right_eq_some, Option.some.injEq] at hwrite hread
  rw [hwrite.1.2, hread.2]

/-- The folder is the system's. -/
def systemPlace : Place := ⟨.privileged, .privileged, .inl rfl⟩

/-- The empty file, and a decision of no connection before a blip. -/
def emptyCalls : List (Call Unit) :=
  calls systemPlace offJson true ⟨false, some (.file ⟨[], .privileged, 1, Nat.one_pos, false⟩), []⟩
    [(.off, .none), (.session .blipped, .none)]

/-- The empty file is replaced, and a blip then finds the decision. -/
theorem target_means_decision_empty :
    emptyCalls.length = 2 ∧ ∀ c ∈ emptyCalls, c.Meant systemPlace offJson :=
  ⟨rfl, target_means_decision systemPlace offJson offJson_faithful true _ _⟩

/-- The file records no connection, its read fails once, and then the rename and the unlink of the
backup fail: the call is an error, and the file that loaded before does not load any more. -/
theorem hidden_by_left_backup :
    let folder : Folder := ⟨false, some (.file ⟨offText, .privileged, 1, Nat.one_pos, false⟩), []⟩
    let r := apply systemPlace offJson true .off ⟨false, some .file, false, false,
      true, true⟩ folder
    r.1 = .failed .io ∧ load systemPlace offJson folder = .off ∧
      load systemPlace offJson (folder.final r.2) = .unreadable := by
  decide

end Hole.Bridge
