import Mathlib.Algebra.Group.Nat.Defs
import Mathlib.Logic.Function.Basic

/-!
# The config file of the GUI

`ConfigStore` (`common/src/config_store.rs`) and `AppConfig::save` (`common/src/config.rs`): loading
sets a file that is no config aside under a backup's name, by a rename or else by a copy, and where
neither succeeds no save of the session is let through.

A folder is what stands at its names. Existence is answered as it is, and nothing else makes a name.
The counter of the backups' names is the source's and wraps, so that a search among names that are
all taken never ends; `none` is that. The temporary file of a save is not modelled: its name is new.
-/

namespace Hole.Gui

open Function (update update_of_ne update_self update_idem)

variable {Config ε : Type}

/-- What stands at a name. -/
structure File where
  bytes : ByteArray
  readable : Bool

/-- What stands at the names of a folder. -/
abbrev Folder := List Char → Option File

/-- The kind of an error of a read. -/
inductive ReadError
  | notFound
  | invalidData
  | other

/-- `fs::read_to_string`. -/
def Folder.readToString (folder : Folder) (path : List Char) : Except ReadError String :=
  match folder path with
  | none => .error .notFound
  | some file =>
    if !file.readable then .error .other
    else
      match String.fromUTF8? file.bytes with
      | none => .error .invalidData
      | some contents => .ok contents

/-- What `serde_json` does for a config. -/
structure Serde (Config ε : Type) where
  fromStr : String → Except ε Config
  toStringPretty : Config → Option String

/-- The error that a file could not be set aside for. -/
inductive QuarantineError
  | rename
  | create
  | write

/-- `ConfigError`; `ε` is where and how the parse failed. -/
inductive ConfigError (ε : Type)
  | read (source : ReadError)
  | parse (e : ε)
  | serialize
  | createDir
  | write
  | saveBlocked

/-! ### Setting aside -/

/-- How the calls of a load end that change the folder. -/
structure Aside where
  rename : Bool
  /-- Creating the file of a counter, where its name is free. -/
  createNew : UInt32 → Bool
  /-- The number of bytes after which the write of the copy fails. -/
  write : Option Nat
  removeCandidate : Bool
  removePath : Bool

/-- `backup_path`. -/
def backupPath (path ts : List Char) (counter : UInt32) : List Char :=
  path ++ '.' :: ts ++ (if counter = 1 then [] else '-' :: Nat.toDigits 10 counter.toNat) ++
    ['.', 'b', 'a', 'k']

example : backupPath "config.json".toList "2026-06-10T14-23-05Z".toList 2 =
    "config.json.2026-06-10T14-23-05Z-2.bak".toList := by decide

/-- The first counter whose name is free. -/
def freeCounter (folder : Folder) (path ts : List Char) : Nat → UInt32 → Option UInt32
  | 0, _ => none
  | fuel + 1, counter =>
    if (folder (backupPath path ts counter)).isNone then some counter
    else freeCounter folder path ts fuel (counter + 1)

/-- The copy that a write left behind. -/
def written (bytes : ByteArray) (n : Nat) : File := ⟨bytes.extract 0 n, true⟩

/-- The loop that copies the contents. -/
def copyAside (aside : Aside) (folder : Folder) (path ts : List Char) (contents : String) :
    Nat → UInt32 → Option (Except QuarantineError (List Char) × Folder)
  | 0, _ => none
  | fuel + 1, counter =>
    let candidate := backupPath path ts counter
    if (folder candidate).isSome then copyAside aside folder path ts contents fuel (counter + 1)
    else if !aside.createNew counter then some (.error .create, folder)
    else
      match aside.write.filter (· < contents.toByteArray.size) with
      | some n =>
        let left := update folder candidate (some (written contents.toByteArray n))
        some (.error .write,
          if aside.removeCandidate then update left candidate none else left)
      | none =>
        let copied := update folder candidate (some ⟨contents.toByteArray, true⟩)
        some (.ok candidate, if aside.removePath then update copied path none else copied)

/-- The number of counters. -/
def counters : Nat := 2 ^ 32

/-- `quarantine`. -/
def quarantine (aside : Aside) (folder : Folder) (path ts : List Char) (contents : Option String) :
    Option (Except QuarantineError (List Char) × Folder) :=
  match freeCounter folder path ts counters 1 with
  | none => none
  | some counter =>
    let bak := backupPath path ts counter
    if aside.rename then
      some (.ok bak, update (update folder bak (folder path)) path none)
    else
      match contents with
      | none => some (.error .rename, folder)
      | some contents => copyAside aside folder path ts contents counters counter

/-! ### Loading and saving -/

/-- `ConfigRecovery`. -/
structure ConfigRecovery (ε : Type) where
  path : List Char
  error : ConfigError ε
  backup : Except QuarantineError (List Char)

/-- `ConfigStore`. -/
structure ConfigStore where
  path : List Char
  saveBlocked : Bool

/-- What a load gives, with the folder after it. -/
structure Loaded (Config ε : Type) where
  store : ConfigStore
  config : Config
  recovery : Option (ConfigRecovery ε)
  folder : Folder

/-- A load that had to set the file aside. -/
def recovered (default : Config) (path : List Char) (error : ConfigError ε)
    (r : Except QuarantineError (List Char) × Folder) : Loaded Config ε where
  store := ⟨path, !r.1.toBool⟩
  config := default
  recovery := some ⟨path, error, r.1⟩
  folder := r.2

/-- `ConfigStore::load`. -/
def ConfigStore.load (serde : Serde Config ε) (default : Config) (aside : Aside) (folder : Folder)
    (path now : List Char) : Option (Loaded Config ε) :=
  match folder.readToString path with
  | .ok contents =>
    match serde.fromStr contents with
    | .ok config => some ⟨⟨path, false⟩, config, none, folder⟩
    | .error e =>
      (quarantine aside folder path now (some contents)).map (recovered default path (.parse e))
  | .error .notFound => some ⟨⟨path, false⟩, default, none, folder⟩
  | .error e => (quarantine aside folder path now none).map (recovered default path (.read e))

/-- How the calls of a save end. -/
structure Saving where
  ensureConfigDir : Bool
  tempfile : Bool
  write : Bool
  sync : Bool
  persist : Bool

/-- `AppConfig::save`. -/
def AppConfig.save (serde : Serde Config ε) (saving : Saving) (folder : Folder) (path : List Char)
    (config : Config) : Except (ConfigError ε) Unit × Folder :=
  match serde.toStringPretty config with
  | none => (.error .serialize, folder)
  | some json =>
    if !saving.ensureConfigDir then (.error .createDir, folder)
    else if !(saving.tempfile && saving.write && saving.sync && saving.persist) then
      (.error .write, folder)
    else (.ok (), update folder path (some ⟨json.toByteArray, true⟩))

/-- `ConfigStore::save`. -/
def ConfigStore.save (serde : Serde Config ε) (store : ConfigStore) (saving : Saving)
    (folder : Folder) (config : Config) : Except (ConfigError ε) Unit × Folder :=
  if store.saveBlocked then (.error .saveBlocked, folder)
  else AppConfig.save serde saving folder store.path config

/-- The saves of a session, with their results. -/
def ConfigStore.session (serde : Serde Config ε) (store : ConfigStore) (folder : Folder) :
    List (Saving × Config) → List (Except (ConfigError ε) Unit) × Folder
  | [] => ([], folder)
  | (saving, config) :: rest =>
    let r := store.save serde saving folder config
    let rs := session serde store r.2 rest
    (r.1 :: rs.1, rs.2)

/-! ### What is kept -/

section Kept

variable {serde : Serde Config ε} {aside : Aside} {folder after : Folder} {path ts : List Char}
  {file : File} {contents : Option String}

/-- The bytes that stand at the path are those of a config. -/
def ParsesAt (serde : Serde Config ε) (folder : Folder) (path : List Char) : Prop :=
  ∃ contents config, folder.readToString path = .ok contents ∧ serde.fromStr contents = .ok config

/-- A file holds what another one holds. -/
def File.Holds (kept file : File) : Prop :=
  kept.bytes = file.bytes ∧ (file.readable → kept.readable)

/-- The file was moved or copied aside. -/
def SetAside (path ts : List Char) (before after : Folder) (file : File) : Prop :=
  ∃ counter kept, before (backupPath path ts counter) = none ∧
    after (backupPath path ts counter) = some kept ∧ kept.Holds file

/-- Nothing is destroyed between two states of the folder. -/
structure Kept (serde : Serde Config ε) (path ts : List Char) (before after : Folder) : Prop where
  /-- What stood at the path does, or stands in a backup, unless it was a config. -/
  bytes : ∀ file, before path = some file → ParsesAt serde before path ∨
    (∃ kept, after path = some kept ∧ kept.Holds file) ∨ SetAside path ts before after file
  others : ∀ other, other ≠ path → ∀ file, before other = some file → after other = some file

theorem File.holds_refl (file : File) : file.Holds file := ⟨rfl, id⟩

theorem backupPath_ne (path ts : List Char) (counter : UInt32) :
    backupPath path ts counter ≠ path := by
  intro heq
  have hlength := congrArg List.length heq
  simp only [backupPath, List.length_append, List.length_cons, List.length_nil] at hlength
  omega

/-- What is read are the bytes of a file. -/
theorem bytes_of_readToString {contents : String} (h : folder.readToString path = .ok contents) :
    ∃ file, folder path = some file ∧ file.bytes = contents.toByteArray := by
  unfold Folder.readToString at h
  split at h
  · cases h
  · next file hfile =>
    split at h
    · cases h
    · split at h
      · cases h
      · next contents' hutf8 =>
        cases h
        refine ⟨file, hfile, ?_⟩
        unfold String.fromUTF8? at hutf8
        split at hutf8
        · cases hutf8
          rfl
        · cases hutf8

theorem readToString_notFound (h : folder.readToString path = .error .notFound) :
    folder path = none := by
  unfold Folder.readToString at h
  split at h
  · assumption
  · split at h
    · cases h
    · split at h <;> cases h

/-! ### The search for a name -/

theorem freeCounter_some {fuel : Nat} {start counter : UInt32}
    (h : freeCounter folder path ts fuel start = some counter) :
    folder (backupPath path ts counter) = none := by
  induction fuel generalizing start with
  | zero => cases h
  | succ fuel ih =>
    unfold freeCounter at h
    split at h
    · next hfree =>
      cases h
      exact Option.isNone_iff_eq_none.1 hfree
    · exact ih h

theorem freeCounter_none {fuel : Nat} {start : UInt32}
    (h : freeCounter folder path ts fuel start = none) {k : Nat} (hk : k < fuel) :
    (folder (backupPath path ts (start + UInt32.ofNat k))).isSome := by
  induction fuel generalizing start k with
  | zero => cases hk
  | succ fuel ih =>
    unfold freeCounter at h
    split at h
    · cases h
    · next htaken =>
      cases k with
      | zero => simpa [Option.isSome_iff_ne_none] using htaken
      | succ k =>
        have hrest := ih h (Nat.lt_of_succ_lt_succ hk)
        rw [UInt32.ofNat_add k 1, UInt32.add_comm (UInt32.ofNat k)]
        rwa [UInt32.add_assoc] at hrest

/-- A search that never ends has met every counter. -/
theorem taken_of_freeCounter (h : freeCounter folder path ts counters 1 = none) (counter : UInt32) :
    (folder (backupPath path ts counter)).isSome := by
  have htaken := freeCounter_none h (counter - 1).toNat_lt
  rwa [UInt32.ofNat_toNat, UInt32.add_comm, UInt32.sub_add_cancel] at htaken

/-! ### What setting aside does -/

/-- How setting `file` aside ends: it stands under a backup's name, or where it stood. -/
structure Quarantined (path ts : List Char) (before after : Folder) (file : File) (moved : Bool) :
    Prop where
  others : ∀ other, other ≠ path → ∀ f, before other = some f → after other = some f
  setAside_iff : SetAside path ts before after file ↔ moved
  stays : moved = false → after path = before path

variable {counter : UInt32}

/-- A name that was free is the only one that changes, the path aside. -/
theorem quarantined_of_update {kept : File} (hfree : folder (backupPath path ts counter) = none)
    (hholds : kept.Holds file)
    (hafter : ∀ other, other ≠ path →
      after other = update folder (backupPath path ts counter) (some kept) other) :
    Quarantined path ts folder after file true where
  others other hother f hf := by
    have hne : other ≠ backupPath path ts counter := by
      rintro rfl
      rw [hfree] at hf
      cases hf
    rw [hafter other hother, update_of_ne hne, hf]
  setAside_iff := by
    refine iff_of_true ⟨counter, kept, hfree, ?_, hholds⟩ rfl
    rw [hafter _ (backupPath_ne path ts counter), update_self]
  stays := nofun

/-- Where nothing but a part of the bytes was left, the file was not set aside. -/
theorem quarantined_of_left {left : Option File}
    (hfree : folder (backupPath path ts counter) = none)
    (hleft : ∀ kept ∈ left, kept.bytes ≠ file.bytes) :
    Quarantined path ts folder (update folder (backupPath path ts counter) left) file
      false where
  others other _ f hf := by
    have hne : other ≠ backupPath path ts counter := by
      rintro rfl
      rw [hfree] at hf
      cases hf
    rw [update_of_ne hne, hf]
  setAside_iff := by
    refine iff_of_false ?_ nofun
    rintro ⟨c, kept, hnone, hkept, hbytes, -⟩
    by_cases hname : backupPath path ts c = backupPath path ts counter
    · rw [hname, update_self] at hkept
      exact hleft kept hkept hbytes
    · rw [update_of_ne hname, hnone] at hkept
      cases hkept
  stays _ := update_of_ne (backupPath_ne path ts counter).symm ..

theorem quarantined_refl (hfree : folder (backupPath path ts counter) = none) :
    Quarantined path ts folder folder file false := by
  have hsame : update folder (backupPath path ts counter) none = folder := by
    rw [← hfree, Function.update_eq_self]
  have hleft : Quarantined path ts folder (update folder _ none) file false :=
    quarantined_of_left hfree nofun
  rwa [hsame] at hleft

/-- A write that failed wrote less than the bytes. -/
theorem written_ne {bytes : ByteArray} {n : Nat} (h : n < bytes.size) :
    (written bytes n).bytes ≠ bytes := by
  intro heq
  have hsize := congrArg ByteArray.size heq
  simp only [written, ByteArray.size_extract] at hsize
  omega

/-- The first name that the copy tries is free. -/
theorem copyAside_cases {contents : String} {fuel : Nat}
    (hfree : folder (backupPath path ts counter) = none)
    (hbytes : file.bytes = contents.toByteArray) :
    ∃ r, copyAside aside folder path ts contents (fuel + 1) counter = some r ∧
      Quarantined path ts folder r.2 file r.1.toBool := by
  unfold copyAside
  simp only [hfree, Option.isSome_none, Bool.false_eq_true, if_false]
  split
  · exact ⟨_, rfl, quarantined_refl hfree⟩
  · split
    · next n hn =>
      have hlt : n < contents.toByteArray.size := by
        simpa using (Option.filter_eq_some_iff.1 hn).2
      refine ⟨_, rfl, ?_⟩
      split
      · rw [update_idem]
        exact quarantined_of_left hfree nofun
      · refine quarantined_of_left hfree fun kept hkept ↦ ?_
        cases hkept
        rw [hbytes]
        exact written_ne hlt
    · have hholds : File.Holds ⟨contents.toByteArray, true⟩ file := ⟨hbytes.symm, fun _ ↦ rfl⟩
      refine ⟨_, rfl, quarantined_of_update hfree hholds fun other hother ↦ ?_⟩
      dsimp only
      split
      · rw [update_of_ne hother]
      · rfl

/-- What `quarantine` does with the file at the path. -/
theorem quarantine_cases (hfile : folder path = some file)
    (hbytes : ∀ c ∈ contents, file.bytes = c.toByteArray) :
    (quarantine aside folder path ts contents = none ∧
      ∀ counter, (folder (backupPath path ts counter)).isSome) ∨
    ∃ r, quarantine aside folder path ts contents = some r ∧
      Quarantined path ts folder r.2 file r.1.toBool := by
  unfold quarantine
  split
  · next hnone => exact .inl ⟨rfl, taken_of_freeCounter hnone⟩
  · next counter hcounter =>
    have hfree := freeCounter_some hcounter
    refine .inr ?_
    split
    · refine ⟨_, rfl, quarantined_of_update hfree file.holds_refl fun other hother ↦ ?_⟩
      dsimp only
      rw [update_of_ne hother, hfile]
    · split
      · exact ⟨_, rfl, quarantined_refl hfree⟩
      · next contents' => exact copyAside_cases hfree (hbytes contents' rfl)

/-! ### A session -/

/-- What a load that ends has done. -/
structure LoadedFrom (serde : Serde Config ε) (folder : Folder) (path now : List Char)
    (loaded : Loaded Config ε) : Prop where
  path_eq : loaded.store.path = path
  folder_cases : (loaded.store.saveBlocked = false ∧ loaded.folder = folder ∧
      (folder path = none ∨ ParsesAt serde folder path)) ∨
    ∃ file, folder path = some file ∧ ¬ParsesAt serde folder path ∧
      Quarantined path now folder loaded.folder file !loaded.store.saveBlocked

/-- The branches that set the file aside. -/
theorem recovered_cases (default : Config) (error : ConfigError ε) (hfile : folder path = some file)
    (hparses : ¬ParsesAt serde folder path) (hbytes : ∀ c ∈ contents, file.bytes = c.toByteArray) :
    ((quarantine aside folder path ts contents).map (recovered default path error) = none ∧
      ∀ counter, (folder (backupPath path ts counter)).isSome) ∨
    ∃ loaded, (quarantine aside folder path ts contents).map (recovered default path error) =
        some loaded ∧ LoadedFrom serde folder path ts loaded := by
  obtain ⟨hnone, htaken⟩ | ⟨r, hr, hquarantined⟩ :
      (quarantine aside folder path ts contents = none ∧ _) ∨ _ := quarantine_cases hfile hbytes
  · rw [hnone]
    exact .inl ⟨rfl, htaken⟩
  · rw [hr]
    refine .inr ⟨_, rfl, rfl, .inr ⟨file, hfile, hparses, ?_⟩⟩
    simpa [recovered] using hquarantined

/-- What a load gives, where it ends. -/
theorem load_cases (serde : Serde Config ε) (default : Config) (aside : Aside) (folder : Folder)
    (path now : List Char) :
    (ConfigStore.load serde default aside folder path now = none ∧
      ∀ counter, (folder (backupPath path now counter)).isSome) ∨
    ∃ loaded, ConfigStore.load serde default aside folder path now = some loaded ∧
      LoadedFrom serde folder path now loaded := by
  cases hread : folder.readToString path with
  | ok contents =>
    obtain ⟨file, hfile, hbytes⟩ := bytes_of_readToString hread
    cases hparse : serde.fromStr contents with
    | ok config =>
      simp only [ConfigStore.load, hread, hparse]
      exact .inr ⟨_, rfl, rfl, .inl ⟨rfl, rfl, .inr ⟨contents, config, hread, hparse⟩⟩⟩
    | error e =>
      simp only [ConfigStore.load, hread, hparse]
      refine recovered_cases default (.parse e) hfile ?_ ?_
      · rintro ⟨contents', config, hread', hparse'⟩
        obtain rfl := Except.ok.inj (hread.symm.trans hread')
        rw [hparse] at hparse'
        cases hparse'
      · rintro c ⟨⟩
        exact hbytes
  | error e =>
    have hparses : ¬ParsesAt serde folder path := by
      rintro ⟨contents, config, hread', -⟩
      rw [hread] at hread'
      cases hread'
    obtain hfile | ⟨file, hfile⟩ := Option.eq_none_or_eq_some (folder path)
    · have he : e = .notFound := by
        simp only [Folder.readToString, hfile] at hread
        exact (Except.error.inj hread).symm
      subst he
      simp only [ConfigStore.load, hread]
      exact .inr ⟨_, rfl, rfl, .inl ⟨rfl, rfl, .inl hfile⟩⟩
    · cases e with
      | notFound =>
        rw [readToString_notFound hread] at hfile
        cases hfile
      | invalidData =>
        simp only [ConfigStore.load, hread]
        exact recovered_cases default (.read .invalidData) hfile hparses nofun
      | other =>
        simp only [ConfigStore.load, hread]
        exact recovered_cases default (.read .other) hfile hparses nofun

/-- A save changes nothing but the file at the path, and nothing where it is blocked. -/
theorem save_folder (serde : Serde Config ε) (store : ConfigStore) (saving : Saving)
    (folder : Folder) (config : Config) :
    (store.save serde saving folder config).2 = folder ∨
      store.saveBlocked = false ∧
        ∃ file, (store.save serde saving folder config).2 =
          update folder store.path (some file) := by
  unfold ConfigStore.save AppConfig.save
  split
  · exact .inl rfl
  · next hblocked =>
    split
    · exact .inl rfl
    · next json _ =>
      split
      · exact .inl rfl
      · split
        · exact .inl rfl
        · exact .inr ⟨by simpa using hblocked, _, rfl⟩

theorem save_blocked_iff (serde : Serde Config ε) (store : ConfigStore) (saving : Saving)
    (folder : Folder) (config : Config) :
    (store.save serde saving folder config).1 = .error .saveBlocked ↔ store.saveBlocked := by
  unfold ConfigStore.save AppConfig.save
  split
  · next hblocked => exact iff_of_true rfl hblocked
  · next hblocked =>
    refine iff_of_false ?_ hblocked
    split
    · nofun
    · split
      · nofun
      · split <;> nofun

theorem session_folder (serde : Serde Config ε) (store : ConfigStore) (folder : Folder)
    (saves : List (Saving × Config)) :
    (store.session serde folder saves).2 = folder ∨
      store.saveBlocked = false ∧
        ∃ file, (store.session serde folder saves).2 =
          update folder store.path (some file) := by
  induction saves generalizing folder with
  | nil => exact .inl rfl
  | cons save rest ih =>
    obtain hrest | ⟨hblocked, file, hrest⟩ := ih (store.save serde save.1 folder save.2).2
    · obtain hsave | ⟨hblocked, file, hsave⟩ := save_folder serde store save.1 folder save.2
      · exact .inl (hrest.trans hsave)
      · exact .inr ⟨hblocked, file, hrest.trans hsave⟩
    · refine .inr ⟨hblocked, file, hrest.trans ?_⟩
      obtain hsave | ⟨-, file', hsave⟩ := save_folder serde store save.1 folder save.2
      · rw [hsave]
      · rw [hsave, update_idem]

theorem session_blocked_iff (serde : Serde Config ε) (store : ConfigStore) (folder : Folder)
    (saves : List (Saving × Config)) :
    ∀ result ∈ (store.session serde folder saves).1,
      result = .error .saveBlocked ↔ store.saveBlocked := by
  induction saves generalizing folder with
  | nil => nofun
  | cons save rest ih =>
    exact List.forall_mem_cons.2 ⟨save_blocked_iff serde store save.1 folder save.2, ih _⟩

/-- **Nothing that is no config is destroyed, and saves are refused exactly where it was not set
aside.** A load that does not end has met a file under every name that a backup can take. -/
theorem config_kept (serde : Serde Config ε) (default : Config) (aside : Aside) (folder : Folder)
    (path now : List Char) :
    (ConfigStore.load serde default aside folder path now = none ∧
      ∀ counter, (folder (backupPath path now counter)).isSome) ∨
    ∃ loaded, ConfigStore.load serde default aside folder path now = some loaded ∧
      ∀ saves : List (Saving × Config),
        Kept serde path now folder (loaded.store.session serde loaded.folder saves).2 ∧
          ∀ result ∈ (loaded.store.session serde loaded.folder saves).1,
            result = .error .saveBlocked ↔
              ∃ file, folder path = some file ∧ ¬ParsesAt serde folder path ∧
                ¬SetAside path now folder loaded.folder file := by
  obtain hnone | ⟨loaded, hload, ⟨hpath, hcases⟩⟩ := load_cases serde default aside folder path now
  · exact .inl hnone
  refine .inr ⟨loaded, hload, fun saves ↦ ?_⟩
  have hsession := session_folder serde loaded.store loaded.folder saves
  have hblocked := session_blocked_iff serde loaded.store loaded.folder saves
  rw [hpath] at hsession
  -- The files at other names are those of the load.
  have hother {other : List Char} (hne : other ≠ path) :
      (loaded.store.session serde loaded.folder saves).2 other = loaded.folder other := by
    obtain hsame | ⟨-, file, hupdate⟩ := hsession
    · rw [hsame]
    · rw [hupdate, update_of_ne hne]
  obtain ⟨hfree, hfolder, hcontent⟩ | ⟨file, hfile, hparses, hquarantined⟩ := hcases
  · refine ⟨⟨fun file hfile ↦ ?_, fun other hne f hf ↦ ?_⟩, fun result hresult ↦ ?_⟩
    · obtain hnone | hparses := hcontent
      · rw [hnone] at hfile
        cases hfile
      · exact .inl hparses
    · rw [hother hne, hfolder, hf]
    · rw [hblocked result hresult, hfree]
      refine iff_of_false nofun ?_
      rintro ⟨file, hfile, hparses, -⟩
      obtain hnone | hparses' := hcontent
      · rw [hnone] at hfile
        cases hfile
      · exact hparses hparses'
  · refine ⟨⟨fun f hf ↦ .inr ?_, fun other hne f hf ↦ ?_⟩, fun result hresult ↦ ?_⟩
    · obtain rfl := Option.mem_unique hfile hf
      cases hb : loaded.store.saveBlocked with
      | true =>
        -- Nothing was saved over the file that stayed.
        have hsame := hsession.resolve_right (by simp [hb])
        refine .inl ⟨file, ?_, file.holds_refl⟩
        rw [hsame, hquarantined.stays (by simp [hb]), hfile]
      | false =>
        obtain ⟨counter, kept, hnone, hkept, hholds⟩ := hquarantined.setAside_iff.2 (by simp [hb])
        refine .inr ⟨counter, kept, hnone, ?_, hholds⟩
        rw [hother (backupPath_ne path now counter), hkept]
    · rw [hother hne]
      exact hquarantined.others other hne f hf
    · rw [hblocked result hresult]
      constructor
      · intro hb
        refine ⟨file, hfile, hparses, fun haside ↦ ?_⟩
        simpa [hb] using hquarantined.setAside_iff.1 haside
      · rintro ⟨f, hf, -, haside⟩
        obtain rfl := Option.mem_unique hfile hf
        rw [hquarantined.setAside_iff] at haside
        simpa using haside

end Kept

end Hole.Gui
