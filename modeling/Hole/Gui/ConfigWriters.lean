import Hole.Gui.AppConfig

/-!
# Who writes the config

The commands that write the config of the GUI under its lock (`hole/src/commands.rs`, and
`persist_intended_enabled` of `hole/src/tray.rs`), in any order. `save_config`, `import_file` and
`delete_server` change a copy that takes the config's place once it is on the disk. `test_server`,
`mark_validated_by_proxy_start` and `persist_intended_enabled` change the config and then write it,
and leave it changed where that fails: this is what `Atomic` is about.

A test holds the lock of its server from the start to the end, and the lock of the config only at
both. A file that cannot be imported ends `import_file` before it takes the lock.
-/

namespace Hole.Gui

/-! ### The commands -/

/-- The config in memory and on the disk. -/
structure Memory where
  config : AppConfig
  disk : AppConfig

/-- Write the changed copy, which then takes the place of the config. -/
def Memory.onCopy (m : Memory) (updated : AppConfig) (written : Bool) : Bool × Memory :=
  if written then (true, ⟨updated, updated⟩) else (false, m)

/-- Change the config, then write it. -/
def Memory.inPlace (m : Memory) (updated : AppConfig) (written : Bool) : Bool × Memory :=
  if written then (true, ⟨updated, updated⟩) else (false, { m with config := updated })

/-- `LATENCY_VALIDATED_ON_CONNECT`. -/
def latencyValidatedOnConnect : Nat := 0

/-- What a test leaves on its server. -/
def ServerEntry.tested (outcome : ServerTestOutcome) (now : Int) (s : ServerEntry) : ServerEntry :=
  { s with validation := some ⟨now, outcome⟩ }

/-- What a start of the proxy leaves on its server. -/
def ServerEntry.validatedByProxyStart (now : Int) (s : ServerEntry) : ServerEntry :=
  let fresh : ValidationState := ⟨now, .reachable latencyValidatedOnConnect⟩
  match s.validation with
  | some ⟨_, .reachable latency⟩ =>
    if latency ≠ latencyValidatedOnConnect then
      { s with validation := some ⟨now, .reachable latency⟩ }
    else { s with validation := some fresh }
  | _ => { s with validation := some fresh }

namespace Memory

variable (m : Memory) (written : Bool)

/-- `save_config`. -/
def saveConfig (settings : UiSettings) : Bool × Memory :=
  m.onCopy (m.config.applyUiSettings settings) written

/-- `import_file`, from the lock on. -/
def importFile (parsed : List ServerEntry) : Bool × Memory :=
  m.onCopy (m.config.applyImport parsed).1 written

/-- `delete_server`. -/
def deleteServer (id : String) : Bool × Memory := m.onCopy (m.config.removeServer id).1 written

/-- Change a server, if it is still there, and write. -/
def changeServer (id : String) (f : ServerEntry → ServerEntry) : Bool × Memory :=
  if m.config.hasServer id then
    m.inPlace { m.config with servers := AppConfig.modifyServer id f m.config.servers } written
  else (true, m)

/-- `test_server`, from its answer on. -/
def testServer (id : String) (outcome : ServerTestOutcome) (now : Int) : Bool × Memory :=
  m.changeServer written id (.tested outcome now)

/-- `mark_validated_by_proxy_start`. -/
def markValidatedByProxyStart (id : String) (now : Int) : Bool × Memory :=
  m.changeServer written id (.validatedByProxyStart now)

/-- `persist_intended_enabled`. -/
def persistIntendedEnabled (enabled : Bool) : Bool × Memory :=
  if m.config.enabled = enabled then (true, m)
  else m.inPlace { m.config with enabled := enabled } written

end Memory

/-! ### Runs -/

/-- The commands, a test with its two halves. -/
inductive Writer
  | saveConfig (settings : UiSettings)
  | importFile (parsed : List ServerEntry)
  | deleteServer (id : String)
  | beginTest (id : String)
  | endTest (id : String) (outcome : ServerTestOutcome) (now : Int)
  | markValidatedByProxyStart (id : String) (now : Int)
  | persistIntendedEnabled (enabled : Bool)

/-- A command, and whether its write of the disk succeeds. -/
abbrev Step := Writer × Bool

/-- The config, and the servers that are tested. -/
structure Backend where
  memory : Memory
  testing : List String

namespace Backend

variable (b : Backend)

/-- What a command answers, and what it leaves. -/
def command : Step → Bool × Backend
  | (.saveConfig settings, written) =>
    let r := b.memory.saveConfig written settings
    (r.1, { b with memory := r.2 })
  | (.importFile parsed, written) =>
    let r := b.memory.importFile written parsed
    (r.1, { b with memory := r.2 })
  | (.deleteServer id, written) =>
    let r := b.memory.deleteServer written id
    (r.1, { b with memory := r.2 })
  | (.beginTest id, _) =>
    if id ∈ b.testing then (false, b)
    else if b.memory.config.hasServer id then (true, { b with testing := id :: b.testing })
    else (false, b)
  | (.endTest id outcome now, written) =>
    if id ∈ b.testing then
      let r := b.memory.testServer written id outcome now
      (r.1, ⟨r.2, b.testing.erase id⟩)
    else (false, b)
  | (.markValidatedByProxyStart id now, written) =>
    let r := b.memory.markValidatedByProxyStart written id now
    (r.1, { b with memory := r.2 })
  | (.persistIntendedEnabled enabled, written) =>
    let r := b.memory.persistIntendedEnabled written enabled
    (r.1, { b with memory := r.2 })

/-- One step. -/
def step (e : Step) : Backend := (b.command e).2

/-- A run. -/
def run (steps : List Step) : Backend := steps.foldl step b

/-- The config in memory. -/
def config : AppConfig := b.memory.config

/-- The servers that a step appends. -/
def appended : Step → List ServerEntry
  | (.importFile parsed, true) => (b.config.applyImport parsed).2.1
  | _ => []

/-- The ids of the servers that a run imports. -/
def imported (b : Backend) : List Step → List String
  | [] => []
  | e :: steps => (b.appended e).map (·.id) ++ (b.step e).imported steps

end Backend

namespace Writer

/-- The command changes a copy. -/
def onCopy : Writer → Bool
  | saveConfig _ => true
  | importFile _ => true
  | deleteServer _ => true
  | _ => false

/-- The command sets the validation of a server. -/
def validates (id : String) : Writer → Bool
  | endTest id' _ _ => id' = id
  | markValidatedByProxyStart id' _ => id' = id
  | _ => false

/-- The ids that a command may bring or take away. -/
def names : Writer → List String
  | importFile parsed => parsed.map (·.id)
  | deleteServer id => [id]
  | _ => []

end Writer

/-- The ids of the servers that a run deletes. -/
def deleted : List Step → List String
  | [] => []
  | (.deleteServer id, true) :: steps => id :: deleted steps
  | _ :: steps => deleted steps

/-- Every import brings ids that were not seen before. -/
def Fresh (seen : List String) : List Step → Prop
  | [] => True
  | (w, _) :: steps =>
    (∀ parsed, w = .importFile parsed → (parsed.map (·.id)).Nodup ∧
      ∀ id ∈ parsed.map (·.id), id ∉ seen) ∧ Fresh (w.names ++ seen) steps

/-- What a step may do to the config. -/
structure Owned (b : Backend) (e : Step) : Prop where
  /-- No server is added that is there. -/
  imports : ∀ before s after, b.appended e = before ++ s :: after →
    ∀ t ∈ b.config.servers ++ before, ¬AppConfig.sameServer t s
  validation : ∀ s ∈ b.config.servers, ∀ s' ∈ (b.step e).config.servers, s'.id = s.id →
    s'.validation = s.validation ∨ e.1.validates s.id
  selected : e.1.onCopy → (b.command e).1 → (b.step e).config.Selects
  failed : e.2 = false → (b.step e).config = b.config

/-- In every state of a run, the ids are the initial ones and those imported, without those deleted,
and every step does what it may. -/
structure Disciplined (b : Backend) (steps : List Step) : Prop where
  members : ∀ before after, steps = before ++ after → (b.run before).config.ids =
      (b.config.ids ++ b.imported before).filter (· ∉ deleted before)
  owned : ∀ before e after, steps = before ++ e :: after → Owned (b.run before) e

/-- What a command would write in place is there already, or its server is gone. -/
def Writer.Idle (b : Backend) : Writer → Prop
  | endTest id outcome now => id ∈ b.testing →
      ∀ s, b.config.servers.find? (·.id = id) = some s → s.tested outcome now = s
  | markValidatedByProxyStart id now =>
      ∀ s, b.config.servers.find? (·.id = id) = some s → s.validatedByProxyStart now = s
  | persistIntendedEnabled enabled => b.config.enabled = enabled
  | w => ¬w.onCopy

/-- The write succeeds, or the command changes a copy, or it has nothing to change. -/
def Atomic (b : Backend) (e : Step) : Prop := e.2 = true ∨ e.1.onCopy ∨ e.1.Idle b

/-! ### One step -/

section Step

variable {b : Backend} {e : Step}

theorem tested_id (outcome : ServerTestOutcome) (now : Int) (s : ServerEntry) :
    (s.tested outcome now).id = s.id := rfl

theorem validatedByProxyStart_id (now : Int) (s : ServerEntry) :
    (s.validatedByProxyStart now).id = s.id := by
  unfold ServerEntry.validatedByProxyStart
  split
  · split <;> rfl
  · rfl

/-- What the config is after a command that changes one server. -/
theorem changeServer_config (m : Memory) (written : Bool) (id : String)
    (f : ServerEntry → ServerEntry) :
    (m.changeServer written id f).2.config = m.config ∨
      (m.changeServer written id f).2.config =
        { m.config with servers := AppConfig.modifyServer id f m.config.servers } := by
  unfold Memory.changeServer Memory.inPlace
  split
  · cases written <;> exact .inr rfl
  · exact .inl rfl

/-- A command that changes the config in place leaves it so whether or not the write succeeds. -/
theorem changeServer_written (m : Memory) (written : Bool) (id : String)
    (f : ServerEntry → ServerEntry) :
    (m.changeServer written id f).2.config = (m.changeServer true id f).2.config := by
  unfold Memory.changeServer Memory.inPlace
  split
  · cases written <;> rfl
  · rfl

theorem persistIntendedEnabled_written (m : Memory) (written enabled : Bool) :
    (m.persistIntendedEnabled written enabled).2.config =
      (m.persistIntendedEnabled true enabled).2.config := by
  unfold Memory.persistIntendedEnabled Memory.inPlace
  split
  · rfl
  · cases written <;> rfl

theorem step_written (h : ¬e.1.onCopy) : (b.step e).config = (b.step (e.1, true)).config := by
  obtain ⟨w, written⟩ := e
  cases w with
  | saveConfig settings => exact absurd rfl h
  | importFile parsed => exact absurd rfl h
  | deleteServer id => exact absurd rfl h
  | beginTest id => rfl
  | endTest id outcome now =>
    simp only [Backend.step, Backend.command, Backend.config]
    split
    · exact changeServer_written b.memory written id _
    · rfl
  | markValidatedByProxyStart id now => exact changeServer_written b.memory written id _
  | persistIntendedEnabled enabled => exact persistIntendedEnabled_written b.memory written enabled

theorem step_onCopy_failed {w : Writer} (h : w.onCopy) : (b.step (w, false)).config = b.config := by
  cases w with
  | saveConfig settings => rfl
  | importFile parsed => rfl
  | deleteServer id => rfl
  | _ => cases h

/-- What a step leaves of the config. -/
theorem step_cases (b : Backend) (e : Step) :
    (b.step e).config = b.config ∨
    (∃ settings, e = (.saveConfig settings, true) ∧
      (b.step e).config = b.config.applyUiSettings settings) ∨
    (∃ parsed, e = (.importFile parsed, true) ∧
      (b.step e).config = (b.config.applyImport parsed).1) ∨
    (∃ id, e = (.deleteServer id, true) ∧ (b.step e).config = (b.config.removeServer id).1) ∨
    (∃ id f, (∀ s, ServerEntry.id (f s) = s.id) ∧ e.1.validates id ∧ (b.step e).config =
      { b.config with servers := AppConfig.modifyServer id f b.config.servers }) ∨
    ∃ enabled, e.1 = .persistIntendedEnabled enabled ∧
      (b.step e).config = { b.config with enabled := enabled } := by
  obtain ⟨w, written⟩ := e
  -- What changes a server in place keeps the change if the write fails.
  have hchange {id : String} {f : ServerEntry → ServerEntry} (hf : ∀ s, (f s).id = s.id)
      (hw : w.validates id)
      (hstep : (b.step (w, written)).config = (b.memory.changeServer written id f).2.config) :
      (b.step (w, written)).config = b.config ∨
        ∃ id f, (∀ s, ServerEntry.id (f s) = s.id) ∧ w.validates id ∧
          (b.step (w, written)).config =
            { b.config with servers := AppConfig.modifyServer id f b.config.servers } := by
    obtain hsame | hmodified := changeServer_config b.memory written id f
    · exact .inl (hstep.trans hsame)
    · exact .inr ⟨id, f, hf, hw, hstep.trans hmodified⟩
  cases w with
  | saveConfig settings =>
    cases written with
    | false => exact .inl rfl
    | true => exact .inr (.inl ⟨settings, rfl, rfl⟩)
  | importFile parsed =>
    cases written with
    | false => exact .inl rfl
    | true => exact .inr (.inr (.inl ⟨parsed, rfl, rfl⟩))
  | deleteServer id =>
    cases written with
    | false => exact .inl rfl
    | true => exact .inr (.inr (.inr (.inl ⟨id, rfl, rfl⟩)))
  | beginTest id =>
    refine .inl ?_
    simp only [Backend.step, Backend.command]
    split
    · rfl
    · split <;> rfl
  | endTest id outcome now =>
    by_cases htesting : id ∈ b.testing
    · have hstep : (b.step (.endTest id outcome now, written)).config =
          (b.memory.changeServer written id (.tested outcome now)).2.config := by
        simp only [Backend.step, Backend.command, if_pos htesting]
        rfl
      obtain hsame | hmodified := hchange (tested_id outcome now) (decide_eq_true rfl) hstep
      · exact .inl hsame
      · exact .inr (.inr (.inr (.inr (.inl hmodified))))
    · refine .inl ?_
      simp only [Backend.step, Backend.command, if_neg htesting]
  | markValidatedByProxyStart id now =>
    have hvalidates : (Writer.markValidatedByProxyStart id now).validates id := decide_eq_true rfl
    obtain hsame | hmodified := hchange (validatedByProxyStart_id now) hvalidates rfl
    · exact .inl hsame
    · exact .inr (.inr (.inr (.inr (.inl hmodified))))
  | persistIntendedEnabled enabled =>
    simp only [Backend.step, Backend.command, Memory.persistIntendedEnabled, Memory.inPlace]
    split
    · exact .inl rfl
    · cases written <;> exact .inr (.inr (.inr (.inr (.inr ⟨enabled, rfl, rfl⟩))))

/-- Only an import and a removal change the ids. -/
theorem step_ids_of_names (h : e.1.names = []) (hdelete : ∀ id, e.1 ≠ .deleteServer id) :
    (b.step e).config.ids = b.config.ids := by
  obtain hsame | ⟨settings, -, hconfig⟩ | ⟨parsed, rfl, hconfig⟩ | ⟨id, rfl, -⟩ |
    ⟨id, f, hf, -, hconfig⟩ | ⟨enabled, -, hconfig⟩ := step_cases b e
  · rw [hsame]
  · rw [hconfig, AppConfig.applyUiSettings_ids]
  · obtain rfl : parsed = [] := List.map_eq_nil_iff.1 h
    rw [hconfig]
    exact AppConfig.autoSelectFirstServer_ids
  · exact absurd rfl (hdelete id)
  · rw [hconfig]
    exact AppConfig.modifyServer_ids hf _
  · rw [hconfig]
    rfl

theorem importFile_servers (b : Backend) (parsed : List ServerEntry) :
    (b.step (.importFile parsed, true)).config.servers =
      b.config.servers ++ b.appended (.importFile parsed, true) :=
  AppConfig.autoSelectFirstServer_servers.trans (AppConfig.appendNew_spec ..).1

/-- The ids after a step. -/
theorem step_ids (b : Backend) (e : Step) :
    (b.step e).config.ids =
      (b.config.ids ++ (b.appended e).map (·.id)).filter (· ∉ deleted [e]) := by
  have hkeep (hids : (b.step e).config.ids = b.config.ids) (happended : b.appended e = [])
      (hdeleted : deleted [e] = []) : (b.step e).config.ids =
        (b.config.ids ++ (b.appended e).map (·.id)).filter (· ∉ deleted [e]) := by
    simp [hids, happended, hdeleted]
  obtain ⟨w, written⟩ := e
  cases w with
  | importFile parsed =>
    cases written with
    | false => exact hkeep rfl rfl rfl
    | true =>
      rw [AppConfig.ids, importFile_servers]
      simp [AppConfig.ids, deleted]
  | deleteServer id =>
    cases written with
    | false => exact hkeep rfl rfl rfl
    | true =>
      show (b.config.removeServer id).1.ids = _
      simp [AppConfig.removeServer, AppConfig.ids, Backend.appended, deleted, List.filter_map,
        Function.comp_def]
  | _ => exact hkeep (step_ids_of_names rfl (by rintro _ ⟨⟩)) rfl rfl

/-- Two servers of one list with one id are one. -/
theorem eq_of_id {servers : List ServerEntry} (h : (servers.map (·.id)).Nodup) {s t : ServerEntry}
    (hs : s ∈ servers) (ht : t ∈ servers) (hid : s.id = t.id) : s = t :=
  List.inj_on_of_nodup_map h hs ht hid

/-- Only a test of a server and a start of the proxy with it set its validation. -/
theorem step_validation (hnodup : b.config.ids.Nodup)
    (hfresh : ∀ s ∈ b.appended e, s.id ∉ b.config.ids) {s s' : ServerEntry}
    (hs : s ∈ b.config.servers) (hs' : s' ∈ (b.step e).config.servers) (hid : s'.id = s.id) :
    s'.validation = s.validation ∨ e.1.validates s.id := by
  obtain hsame | ⟨settings, -, hconfig⟩ | ⟨parsed, rfl, -⟩ | ⟨id, -, hconfig⟩ |
    ⟨id, f, hf, hvalidates, hconfig⟩ | ⟨enabled, -, hconfig⟩ := step_cases b e
  · rw [hsame] at hs'
    exact .inl (congrArg _ (eq_of_id hnodup hs' hs hid))
  · rw [hconfig, AppConfig.applyUiSettings_servers] at hs'
    obtain ⟨t, ht, rfl⟩ := List.mem_map.1 hs'
    rw [AppConfig.mergeServer_id] at hid
    rw [AppConfig.mergeServer_validation, eq_of_id hnodup ht hs hid]
    exact .inl rfl
  · rw [importFile_servers] at hs'
    obtain hs' | hs' := List.mem_append.1 hs'
    · exact .inl (congrArg _ (eq_of_id hnodup hs' hs hid))
    · exact absurd (hid ▸ List.mem_map_of_mem hs) (hfresh s' hs')
  · rw [hconfig, AppConfig.removeServer, AppConfig.autoSelectFirstServer_servers] at hs'
    exact .inl (congrArg _ (eq_of_id hnodup (List.mem_of_mem_filter hs') hs hid))
  · rw [hconfig] at hs'
    obtain hs' | ⟨t, ht, htid, rfl⟩ := AppConfig.mem_modifyServer hs'
    · exact .inl (congrArg _ (eq_of_id hnodup hs' hs hid))
    · rw [hf] at hid
      rw [← hid, htid]
      exact .inr hvalidates
  · rw [hconfig] at hs'
    exact .inl (congrArg _ (eq_of_id hnodup hs' hs hid))

/-- A command on a copy that succeeds has healed the selection. -/
theorem step_selects (hcopy : e.1.onCopy) (hok : (b.command e).1) : (b.step e).config.Selects := by
  obtain ⟨w, written⟩ := e
  cases w with
  | saveConfig settings =>
    cases written with
    | false => cases hok
    | true => exact AppConfig.selects_autoSelectFirstServer
  | importFile parsed =>
    cases written with
    | false => cases hok
    | true => exact AppConfig.selects_autoSelectFirstServer
  | deleteServer id =>
    cases written with
    | false => cases hok
    | true => exact AppConfig.selects_autoSelectFirstServer
  | _ => cases hcopy

theorem modifyServer_eq_self_iff {id : String} {f : ServerEntry → ServerEntry}
    {servers : List ServerEntry} : AppConfig.modifyServer id f servers = servers ↔
      ∀ s, servers.find? (·.id = id) = some s → f s = s := by
  induction servers with
  | nil => exact iff_of_true rfl (by rintro _ ⟨⟩)
  | cons s rest ih =>
    by_cases hid : s.id = id
    · simp [AppConfig.modifyServer, hid]
    · simpa [AppConfig.modifyServer, hid] using ih

theorem changeServer_idle_iff {m : Memory} {id : String} {f : ServerEntry → ServerEntry} :
    (m.changeServer true id f).2.config = m.config ↔
      ∀ s, m.config.servers.find? (·.id = id) = some s → f s = s := by
  rw [← modifyServer_eq_self_iff]
  unfold Memory.changeServer Memory.inPlace
  split
  · exact ⟨congrArg AppConfig.servers, fun heq ↦ by rw [if_pos rfl, heq]⟩
  · next hserver =>
    refine iff_of_true rfl (modifyServer_eq_self_iff.2 fun s hs ↦ absurd ?_ hserver)
    have hid := List.find?_some hs
    exact List.any_eq_true.2 ⟨s, List.mem_of_find?_eq_some hs, hid⟩

/-- A command that changes the config in place has nothing to change if and only if it leaves it. -/
theorem idle_iff {w : Writer} (h : ¬w.onCopy) :
    w.Idle b ↔ (b.step (w, true)).config = b.config := by
  cases w with
  | endTest id outcome now =>
    by_cases htesting : id ∈ b.testing
    · refine (imp_iff_right htesting).trans (changeServer_idle_iff.symm.trans ?_)
      simp [Backend.step, Backend.command, htesting, Backend.config, Memory.testServer]
    · exact iff_of_true (fun hid ↦ absurd hid htesting)
        (by simp [Backend.step, Backend.command, htesting])
  | markValidatedByProxyStart id now => exact changeServer_idle_iff.symm
  | persistIntendedEnabled enabled =>
    show b.config.enabled = enabled ↔ (b.memory.persistIntendedEnabled true enabled).2.config = _
    unfold Memory.persistIntendedEnabled Memory.inPlace
    split
    · next hsame => exact iff_of_true hsame rfl
    · next hother =>
      exact iff_of_false hother fun heq ↦ hother (congrArg AppConfig.enabled heq).symm
  | beginTest id =>
    refine iff_of_true h ?_
    unfold Backend.step Backend.command
    dsimp only
    split
    · rfl
    · split <;> rfl
  | _ => exact absurd rfl h

/-- A step does what it may exactly if it is atomic. -/
theorem owned_iff (hnodup : b.config.ids.Nodup)
    (hfresh : ∀ s ∈ b.appended e, s.id ∉ b.config.ids) : Owned b e ↔ Atomic b e := by
  constructor
  · intro h
    cases hwritten : e.2 with
    | true => exact .inl hwritten
    | false =>
      by_cases hcopy : e.1.onCopy
      · exact .inr (.inl hcopy)
      · refine .inr (.inr ((idle_iff hcopy).2 ?_))
        exact (step_written hcopy).symm.trans (h.failed hwritten)
  · intro h
    refine ⟨fun before s after happended t ht ↦ ?_, fun s hs s' hs' hid ↦
      step_validation hnodup hfresh hs hs' hid, step_selects, fun hfailed ↦ ?_⟩
    · obtain ⟨w, written⟩ := e
      cases w with
      | importFile parsed =>
        cases written with
        | false => exact absurd happended (by simp [Backend.appended])
        | true => exact (AppConfig.appendNew_spec _ _).2.2 before s after happended t ht
      | _ => exact absurd happended (by simp [Backend.appended])
    · obtain hwritten | hcopy | hidle := h
      · rw [hfailed] at hwritten
        cases hwritten
      · obtain ⟨w, written⟩ := e
        obtain rfl : written = false := hfailed
        exact step_onCopy_failed hcopy
      · by_cases hcopy : e.1.onCopy
        · obtain ⟨w, written⟩ := e
          obtain rfl : written = false := hfailed
          exact step_onCopy_failed hcopy
        · exact (step_written hcopy).trans ((idle_iff hcopy).1 hidle)

end Step

/-! ### Every run -/

section Run

variable {b : Backend} {steps : List Step} {seen : List String}

theorem deleted_cons (e : Step) (steps : List Step) :
    deleted (e :: steps) = deleted [e] ++ deleted steps := by
  obtain ⟨w, written⟩ := e
  cases w <;> cases written <;> rfl

theorem appended_fresh {e : Step} (h : Fresh seen (e :: steps)) :
    (∀ id ∈ (b.appended e).map (·.id), id ∉ seen) ∧ ((b.appended e).map (·.id)).Nodup ∧
      (b.appended e).map (·.id) ⊆ e.1.names := by
  obtain ⟨w, written⟩ := e
  have hnone (hnil : b.appended (w, written) = []) :
      (∀ id ∈ (b.appended (w, written)).map (·.id), id ∉ seen) ∧
        ((b.appended (w, written)).map (·.id)).Nodup ∧
        (b.appended (w, written)).map (·.id) ⊆ w.names := by
    simp [hnil]
  cases w with
  | importFile parsed =>
    cases written with
    | false => exact hnone rfl
    | true =>
      obtain ⟨hnodup, hunseen⟩ := h.1 parsed rfl
      have hsub : ((b.appended (.importFile parsed, true)).map (·.id)).Sublist
          (parsed.map (·.id)) := (AppConfig.appendNew_spec _ _).2.1.map _
      exact ⟨fun id hid ↦ hunseen id (hsub.subset hid), hnodup.sublist hsub, hsub.subset⟩
  | _ => exact hnone rfl

/-- The ids of a config are distinct and were seen. -/
structure Known (b : Backend) (seen : List String) : Prop where
  nodup : b.config.ids.Nodup
  seen : b.config.ids ⊆ seen

theorem Known.step {e : Step} (h : Known b seen) (hfresh : Fresh seen (e :: steps)) :
    Known (b.step e) (e.1.names ++ seen) := by
  obtain ⟨hunseen, hnodup, hnames⟩ := appended_fresh (b := b) hfresh
  refine ⟨?_, ?_⟩
  · rw [step_ids]
    refine List.Nodup.filter _ (List.nodup_append.2 ⟨h.nodup, hnodup, fun id hid id' hid' heq ↦ ?_⟩)
    exact hunseen id' hid' (heq ▸ h.seen hid)
  · rw [step_ids]
    intro id hid
    obtain hid | hid := List.mem_append.1 (List.mem_of_mem_filter hid)
    · exact List.mem_append_right _ (h.seen hid)
    · exact List.mem_append_left _ (hnames hid)

theorem imported_fresh (hfresh : Fresh seen steps) : ∀ id ∈ b.imported steps, id ∉ seen := by
  induction steps generalizing b seen with
  | nil => nofun
  | cons e steps ih =>
    intro id hid
    obtain hid | hid := List.mem_append.1 hid
    · exact (appended_fresh hfresh).1 id hid
    · exact fun hseen ↦ ih hfresh.2 id hid (List.mem_append_right _ hseen)

/-- **The ids after a run.** -/
theorem run_ids (hknown : Known b seen) (hfresh : Fresh seen steps) :
    (b.run steps).config.ids = (b.config.ids ++ b.imported steps).filter (· ∉ deleted steps) := by
  induction steps generalizing b seen with
  | nil => simp [Backend.run, Backend.imported, deleted]
  | cons e steps ih =>
    have hrest := ih (hknown.step hfresh) hfresh.2
    have hlater : ∀ id ∈ (b.step e).imported steps, id ∉ deleted [e] := by
      intro id hid hdeleted
      refine imported_fresh hfresh.2 id hid (List.mem_append_left _ ?_)
      obtain ⟨w, written⟩ := e
      cases w <;> cases written <;> simp_all [deleted, Writer.names]
    have hboth (ids : List String) : (ids.filter (· ∉ deleted [e])).filter (· ∉ deleted steps) =
        ids.filter (· ∉ deleted [e] ++ deleted steps) := by
      rw [List.filter_filter]
      exact List.filter_congr fun id _ ↦ by simp [and_comm]
    have himported : ((b.step e).imported steps).filter (· ∉ deleted steps) =
        ((b.step e).imported steps).filter (· ∉ deleted [e] ++ deleted steps) :=
      List.filter_congr fun id hid ↦ by simp [hlater id hid]
    show ((b.step e).run steps).config.ids = _
    rw [hrest, step_ids, deleted_cons e steps, Backend.imported, ← List.append_assoc,
      List.filter_append, hboth, himported, ← List.filter_append]

theorem Fresh.left {before after : List Step} (h : Fresh seen (before ++ after)) :
    Fresh seen before := by
  induction before generalizing seen with
  | nil => trivial
  | cons e before ih => exact ⟨h.1, ih h.2⟩

theorem Known.run {before after : List Step} (hknown : Known b seen)
    (hfresh : Fresh seen (before ++ after)) :
    ∃ seen', Known (b.run before) seen' ∧ Fresh seen' after := by
  induction before generalizing b seen with
  | nil => exact ⟨seen, hknown, hfresh⟩
  | cons e before ih => exact ih (hknown.step hfresh) hfresh.2

/-- **A run is disciplined exactly if every step of it is atomic**, for imports of fresh ids. -/
theorem disciplined_iff (b : Backend) (steps : List Step) (hnodup : b.config.ids.Nodup)
    (hfresh : Fresh b.config.ids steps) :
    Disciplined b steps ↔
      ∀ before e after, steps = before ++ e :: after → Atomic (b.run before) e := by
  have hknown : Known b b.config.ids := ⟨hnodup, List.Subset.refl _⟩
  have howned {before after : List Step} {e : Step} (hsplit : steps = before ++ e :: after) :
      Owned (b.run before) e ↔ Atomic (b.run before) e := by
    obtain ⟨seen, hrun, hrest⟩ := hknown.run (hsplit ▸ hfresh)
    refine owned_iff hrun.nodup fun s hs hmem ↦ ?_
    exact (appended_fresh hrest).1 s.id (List.mem_map_of_mem hs) (hrun.seen hmem)
  constructor
  · exact fun h before e after hsplit ↦ (howned hsplit).1 (h.owned before e after hsplit)
  · refine fun h ↦ ⟨fun before after hsplit ↦ ?_, fun before e after hsplit ↦
      (howned hsplit).2 (h before e after hsplit)⟩
    exact run_ids hknown (Fresh.left (hsplit ▸ hfresh))

end Run

/-- A server that was never tested. -/
def untested (id : String) : ServerEntry := ⟨id, id, id, 8388, "aes-256-gcm", "", none, none, none⟩

/-- A backend with one server. -/
def oneServer : Backend where
  memory :=
    let config := { AppConfig.default with servers := [untested "a"], selectedServer := some "a" }
    ⟨config, config⟩
  testing := []

/-- An import and a removal, between them a save of settings that name neither server. -/
theorem disciplined_iff_import :
    (Disciplined oneServer [(.importFile [untested "b"], true),
        (.saveConfig AppConfig.default.toUiSettings, true), (.deleteServer "a", true)] ↔
      ∀ before e after, [(Writer.importFile [untested "b"], true),
        (.saveConfig AppConfig.default.toUiSettings, true), (.deleteServer "a", true)] =
          before ++ e :: after → Atomic (oneServer.run before) e) ∧
      (oneServer.run [(.importFile [untested "b"], true),
        (.saveConfig AppConfig.default.toUiSettings, true),
        (.deleteServer "a", true)]).config.ids = ["b"] :=
  ⟨disciplined_iff _ _ (by decide) ⟨fun parsed h ↦ by
    cases h
    decide, nofun, nofun, trivial⟩, by decide⟩

/-- A start of the proxy marks its server as validated although the write fails. -/
theorem marked_unwritten :
    ¬∀ (b : Backend) steps, b.config.ids.Nodup → Fresh b.config.ids steps →
      Disciplined b steps := by
  intro h
  have hfailed := ((h oneServer [(.markValidatedByProxyStart "a" 7, false)] (by decide)
    ⟨nofun, trivial⟩).owned [] _ [] rfl).failed rfl
  exact absurd hfailed (by decide)

end Hole.Gui
