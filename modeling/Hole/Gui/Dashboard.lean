import Hole.Gui.ConfigWriters

/-!
# Edits and reloads of the dashboard

`ui/main.ts`, `ui/filters.ts` and `ui/servers.ts`: the dashboard's `config` is changed by edits,
each of which saves the whole of it, and replaced by `loadConfig` with what the backend answered. A
save sends what `config` is when it is sent, which for an edit of the filters is a later turn of
`persistChain`.

Requests wait for the backend, and its answers for the dashboard, in no order. The number of edits
that a save, an answer and the backend's config have in them is for the statements only: a reload
loses no edit if the answer has them all.

`ensureDefaultRule` is an edit, made by the program where a load lacks the default rule.
-/

namespace Hole.Gui

/-! ### The dashboard and the backend -/

/-- An edit of one field. -/
inductive Edit
  | selectedServer (id : String)
  | localPort (port : UInt16)
  | localPortHttp (port : UInt16)
  | filters (rules : List FilterRule)
  | onStartup (behavior : StartupBehavior)
  | theme (value : Theme)
  | proxyServerEnabled (on : Bool)
  | proxySocks5 (on : Bool)
  | proxyHttp (on : Bool)
  | dns (next : DnsConfig)

namespace Edit

/-- What an edit sets. -/
def apply (c : AppConfig) : Edit → AppConfig
  | selectedServer id => { c with selectedServer := some id }
  | localPort port => { c with localPort := port }
  | localPortHttp port => { c with localPortHttp := port }
  | filters rules => { c with filters := rules }
  | onStartup behavior => { c with onStartup := behavior }
  | theme value => { c with theme := value }
  | proxyServerEnabled on => { c with proxyServerEnabled := on }
  | proxySocks5 on => { c with proxySocks5 := on }
  | proxyHttp on => { c with proxyHttp := on }
  | dns next => { c with dns := next }

/-- The edit is saved by `persistFilters`. -/
def chained : Edit → Bool
  | filters _ => true
  | _ => false

end Edit

/-- What the dashboard asks the backend. -/
inductive Request
  | getConfig
  | saveConfig (settings : UiSettings) (edits : Nat) (chained : Bool)
  | deleteServer (id : String)
  | reloadProxyFilters

/-- What the backend answers. -/
inductive Answer
  | config (loaded : AppConfig) (edits : Nat)
  | saved (chained : Bool)
  | deleted
  | reloaded

/-- Where the link of `persistChain` is that runs. -/
inductive Link
  | idle
  | saving
  | reloading
  deriving DecidableEq

/-- The dashboard, the backend and what is between them. -/
structure Dashboard where
  config : AppConfig
  /-- The links of `persistChain` that have not run. -/
  queued : Nat
  link : Link
  requests : List Request
  answers : List Answer
  backend : Backend
  /-- What was last set. -/
  wanted : AppConfig
  edits : Nat
  /-- The edits that the backend's config has in it. -/
  saved : Nat

/-- The default rule. -/
def defaultRule : FilterRule := ⟨"*", .wildcard, .proxy⟩

/-- What happens. -/
inductive Turn
  | edit (e : Edit)
  | deleteServer (id : String)
  | loadConfig
  /-- The next link of `persistChain` runs. -/
  | persist
  | handle (n : Nat)
  | arrive (n : Nat)
  /-- The backend runs a command that the dashboard's config has no part in. -/
  | backend (w : Writer)

namespace Dashboard

variable (s : Dashboard)

/-- `saveConfig`. -/
def saveConfig (chained : Bool) : Dashboard :=
  { s with requests := s.requests ++ [.saveConfig s.config.toUiSettings s.edits chained] }

/-- An edit, before it is saved. -/
def set (e : Edit) : Dashboard :=
  { s with config := e.apply s.config, wanted := e.apply s.wanted, edits := s.edits + 1 }

/-- `ensureDefaultRule`. -/
def ensureDefaultRule : Dashboard :=
  if s.config.filters.head? = some defaultRule then s
  else (s.set (.filters (defaultRule :: s.config.filters))).saveConfig false

/-- A change of a setting. -/
def edit (e : Edit) : Dashboard :=
  if e.chained then { s.set e with queued := s.queued + 1 } else (s.set e).saveConfig false

/-- The list without a server, and the selection that goes with it. -/
def removed (c : AppConfig) (id : String) : AppConfig :=
  let servers := c.servers.filter (·.id ≠ id)
  { c with
    servers := servers
    selectedServer :=
      if c.selectedServer = some id then servers.head?.map (·.id) else c.selectedServer }

/-- `deleteServer`. -/
def deleteServer (id : String) : Dashboard :=
  { s with config := removed s.config id, requests := s.requests ++ [.deleteServer id] }

/-- The backend handles a request. -/
def serve (requests : List Request) : Request → Dashboard
  | .getConfig =>
    { s with requests := requests, answers := s.answers ++ [.config s.backend.config s.saved] }
  | .saveConfig settings edits chained =>
    { s with
      requests := requests
      answers := s.answers ++ [.saved chained]
      backend := s.backend.step (.saveConfig settings, true)
      saved := edits }
  | .deleteServer id =>
    { s with
      requests := requests
      answers := s.answers ++ [.deleted]
      backend := s.backend.step (.deleteServer id, true) }
  | .reloadProxyFilters => { s with requests := requests, answers := s.answers ++ [.reloaded] }

/-- `loadConfig`, up to its answer. -/
def loadConfig : Dashboard := { s with requests := s.requests ++ [.getConfig] }

/-- The dashboard goes on with an answer. -/
def resume (answers : List Answer) : Answer → Dashboard
  | .config loaded _ => { s with answers := answers, config := loaded }.ensureDefaultRule
  | .saved false => { s with answers := answers }
  | .saved true =>
    { s with
      answers := answers
      link := .reloading
      requests := s.requests ++ [.reloadProxyFilters] }
  | .deleted => { s with answers := answers }.loadConfig
  | .reloaded => { s with answers := answers, link := .idle }

/-- One step. -/
def step : Turn → Dashboard
  | .edit e => s.edit e
  | .deleteServer id => s.deleteServer id
  | .loadConfig => s.loadConfig
  | .persist =>
    if s.link = .idle ∧ 0 < s.queued then
      { s with queued := s.queued - 1, link := .saving }.saveConfig true
    else s
  | .handle n =>
    match s.requests[n]? with
    | some request => s.serve (s.requests.eraseIdx n) request
    | none => s
  | .arrive n =>
    match s.answers[n]? with
    | some answer => s.resume (s.answers.eraseIdx n) answer
    | none => s
  | .backend (.saveConfig _) => s
  | .backend (.deleteServer _) => s
  | .backend w => { s with backend := s.backend.step (w, true) }

/-- A run. -/
def run (turns : List Turn) : Dashboard := turns.foldl step s

/-- After the first load of the backend's config. -/
def loaded (b : Backend) : Dashboard :=
  { config := b.config, queued := 0, link := .idle, requests := [], answers := [], backend := b,
    wanted := b.config, edits := 0, saved := 0 : Dashboard }.ensureDefaultRule

/-- Nothing is in flight. -/
def Quiescent : Prop := s.queued = 0 ∧ s.link = .idle ∧ s.requests = [] ∧ s.answers = []

instance : Decidable s.Quiescent := inferInstanceAs (Decidable (_ ∧ _))

end Dashboard

/-- The settings without the list of servers. -/
def UiSettings.own (ui : UiSettings) : UiSettings := { ui with servers := [] }

/-- The settings of a config that the dashboard edits. -/
def AppConfig.own (c : AppConfig) : UiSettings := c.toUiSettings.own

/-- The backend has what was last set, and the dashboard shows it. -/
def Dashboard.Agrees (s : Dashboard) : Prop :=
  s.backend.config.own = s.wanted.own ∧ s.config.own = s.wanted.own

instance (s : Dashboard) : Decidable s.Agrees := inferInstanceAs (Decidable (_ ∧ _))

/-! ### When no edit is lost -/

/-- The request is a save. -/
def Request.isSave : Request → Bool
  | saveConfig _ _ _ => true
  | _ => false

/-- The config has the selected server, or no server where none is selected. -/
def AppConfig.Has (c : AppConfig) (selected : Option String) : Prop :=
  selected.any c.hasServer ∨ (selected = none ∧ c.servers = [])

instance (c : AppConfig) (selected : Option String) : Decidable (c.Has selected) :=
  inferInstanceAs (Decidable (_ ∨ _))

/-- The command leaves the selection. -/
def Writer.Keeps (c : AppConfig) : Writer → Prop
  | .importFile _ => c.selectedServer.any c.hasServer
  | .deleteServer id => c.selectedServer ≠ some id ∧ c.Has c.selectedServer
  | _ => True

instance (c : AppConfig) : (w : Writer) → Decidable (w.Keeps c)
  | .saveConfig _ => .isTrue trivial
  | .importFile _ => inferInstanceAs (Decidable (_ = _))
  | .deleteServer _ => inferInstanceAs (Decidable (_ ∧ _))
  | .beginTest _ => .isTrue trivial
  | .endTest _ _ _ => .isTrue trivial
  | .markValidatedByProxyStart _ _ => .isTrue trivial
  | .persistIntendedEnabled _ => .isTrue trivial

/-- No save was sent before the one that is handled, and no selection needs healing. -/
def Request.InOrder (c : AppConfig) (before : List Request) : Request → Prop
  | saveConfig settings _ _ => (∀ request ∈ before, ¬request.isSave) ∧ c.Has settings.selectedServer
  | deleteServer id => (Writer.deleteServer id).Keeps c
  | _ => True

/-- A config that replaces the dashboard's has every edit in it. -/
def Answer.HasAll (edits : Nat) : Answer → Prop
  | config _ had => had = edits
  | _ => True

/-- Saves are handled in the order in which they were sent, no selection needs healing, and an
answer that replaces the config has every edit in it. -/
def Current (s : Dashboard) : Turn → Prop
  | .deleteServer id => s.config.selectedServer ≠ some id
  | .handle n => ∀ request ∈ s.requests[n]?, request.InOrder s.backend.config (s.requests.take n)
  | .arrive n => ∀ answer ∈ s.answers[n]?, answer.HasAll s.edits
  | .backend w => w.Keeps s.backend.config
  | _ => True

/-- Every step of a run is `Current`. -/
def AllCurrent : Dashboard → List Turn → Prop
  | _, [] => True
  | s, turn :: turns => Current s turn ∧ AllCurrent (s.step turn) turns

instance (c : AppConfig) (before : List Request) :
    (request : Request) → Decidable (request.InOrder c before)
  | .getConfig => .isTrue trivial
  | .saveConfig _ _ _ => inferInstanceAs (Decidable (_ ∧ _))
  | .deleteServer _ => inferInstanceAs (Decidable (_ ∧ _))
  | .reloadProxyFilters => .isTrue trivial

instance (edits : Nat) : (answer : Answer) → Decidable (answer.HasAll edits)
  | .config _ _ => inferInstanceAs (Decidable (_ = _))
  | .saved _ => .isTrue trivial
  | .deleted => .isTrue trivial
  | .reloaded => .isTrue trivial

instance (s : Dashboard) : (turn : Turn) → Decidable (Current s turn)
  | .edit _ => .isTrue trivial
  | .deleteServer _ => inferInstanceAs (Decidable (_ ≠ _))
  | .loadConfig => .isTrue trivial
  | .persist => .isTrue trivial
  | .handle n => inferInstanceAs (Decidable (∀ request ∈ s.requests[n]?, _))
  | .arrive n => inferInstanceAs (Decidable (∀ answer ∈ s.answers[n]?, _))
  | .backend w => inferInstanceAs (Decidable (w.Keeps _))

instance : (s : Dashboard) → (turns : List Turn) → Decidable (AllCurrent s turns)
  | _, [] => .isTrue trivial
  | s, turn :: turns =>
    have := instDecidableAllCurrent (s.step turn) turns
    inferInstanceAs (Decidable (_ ∧ _))

/-! ### The settings and the selection -/

section Own

variable {c d : AppConfig}

/-- An edit does to the settings what it does to any others. -/
theorem own_apply (h : c.own = d.own) (e : Edit) : (e.apply c).own = (e.apply d).own := by
  have hall := UiSettings.mk.inj h
  cases e <;> simp_all [Edit.apply, AppConfig.own, AppConfig.toUiSettings, UiSettings.own]

/-- A selection that needs no healing stays. -/
theorem autoSelectFirstServer_of_has (h : c.Has c.selectedServer) :
    c.autoSelectFirstServer = c := by
  unfold AppConfig.autoSelectFirstServer
  obtain hany | ⟨hnone, hservers⟩ := h
  · rw [if_pos hany]
  · cases c
    simp_all

/-- The servers that were there are there after a step that removes none. -/
theorem has_of_ids {selected : Option String} (h : c.Has selected) (hids : d.ids = c.ids) :
    d.Has selected := by
  obtain hany | ⟨hnone, hservers⟩ := h
  · obtain ⟨id, rfl, hid⟩ := (Option.any_eq_true _ _).1 hany
    refine .inl ?_
    rw [Option.any_some, AppConfig.hasServer_iff, hids]
    exact AppConfig.hasServer_iff.1 hid
  · refine .inr ⟨hnone, ?_⟩
    rw [AppConfig.ids, AppConfig.ids, hservers] at hids
    exact List.map_eq_nil_iff.1 hids

/-- A save leaves what it has in it. -/
theorem own_applyUiSettings {settings : UiSettings} (h : c.Has settings.selectedServer) :
    (c.applyUiSettings settings).own = settings.own := by
  have hids : (settings.apply c).ids = c.ids := by
    simp [AppConfig.ids, UiSettings.apply, Function.comp_def, AppConfig.mergeServer_id]
  rw [AppConfig.applyUiSettings, autoSelectFirstServer_of_has (has_of_ids h hids)]
  rfl

/-- A command that leaves the selection leaves the settings. -/
theorem own_step {b : Backend} {w : Writer} (h : w.Keeps b.config)
    (hsave : ∀ settings, w ≠ .saveConfig settings) :
    (b.step (w, true)).config.own = b.config.own := by
  obtain hsame | ⟨settings, he, -⟩ | ⟨parsed, he, hconfig⟩ | ⟨id, he, hconfig⟩ |
    ⟨id, f, -, -, hconfig⟩ | ⟨enabled, -, hconfig⟩ := step_cases b (w, true)
  · rw [hsame]
  · exact absurd (Prod.mk.inj he).1 (hsave settings)
  · obtain rfl := (Prod.mk.inj he).1
    obtain ⟨id, hselected, hid⟩ := (Option.any_eq_true _ _).1 h
    rw [hconfig, AppConfig.applyImport, autoSelectFirstServer_of_has]
    · rfl
    · refine .inl ((Option.any_eq_true _ _).2 ⟨id, hselected, ?_⟩)
      rw [AppConfig.hasServer] at hid ⊢
      rw [(AppConfig.appendNew_spec b.config.servers parsed).1, List.any_append, hid, Bool.true_or]
  · obtain rfl := (Prod.mk.inj he).1
    obtain ⟨hne, hany | ⟨hnone, hservers⟩⟩ := h
    · obtain ⟨selected, hselected, hid⟩ := (Option.any_eq_true _ _).1 hany
      rw [hconfig, AppConfig.removeServer, autoSelectFirstServer_of_has]
      · rfl
      · refine .inl ((Option.any_eq_true _ _).2 ⟨selected, hselected, ?_⟩)
        obtain ⟨server, hmem, hserver⟩ := List.any_eq_true.1 hid
        refine List.any_eq_true.2 ⟨server, List.mem_filter.2 ⟨hmem, ?_⟩, hserver⟩
        have hother : selected ≠ id := fun heq ↦ hne (hselected.trans (congrArg some heq))
        simpa [of_decide_eq_true hserver] using hother
    · rw [hconfig, AppConfig.removeServer, autoSelectFirstServer_of_has]
      · rfl
      · exact .inr ⟨hnone, by simp [hservers]⟩
  · rw [hconfig]
    rfl
  · rw [hconfig]
    rfl

end Own

/-! ### The last save -/

/-- The edits that the backend has once it has handled the requests in order. -/
def latest : Nat → List Request → Nat
  | n, [] => n
  | _, .saveConfig _ edits _ :: requests => latest edits requests
  | n, _ :: requests => latest n requests

theorem latest_append (n : Nat) (before after : List Request) :
    latest n (before ++ after) = latest (latest n before) after := by
  induction before generalizing n with
  | nil => rfl
  | cons request before ih =>
    cases request with
    | getConfig => exact ih n
    | saveConfig settings edits chained => exact ih edits
    | deleteServer id => exact ih n
    | reloadProxyFilters => exact ih n

variable {requests : List Request}

theorem latest_of_not_save (n : Nat) (h : ∀ request ∈ requests, ¬request.isSave) :
    latest n requests = n := by
  induction requests with
  | nil => rfl
  | cons request requests ih =>
    have hrest := ih fun r hr ↦ h r (.tail _ hr)
    cases request with
    | getConfig => exact hrest
    | saveConfig settings edits chained => exact absurd rfl (h _ (.head _))
    | deleteServer id => exact hrest
    | reloadProxyFilters => exact hrest

/-- The requests are those before one that waits, that one, and those after it. -/
theorem split_at {n : Nat} {request : Request} (h : requests[n]? = some request) :
    requests = requests.take n ++ request :: requests.drop (n + 1) := by
  obtain ⟨hlt, rfl⟩ := List.getElem?_eq_some_iff.1 h
  rw [List.getElem_cons_drop, List.take_append_drop]

/-- The save that is handled is the first one. -/
theorem latest_save {n m edits : Nat} {settings : UiSettings} {chained : Bool}
    (h : requests[n]? = some (.saveConfig settings edits chained))
    (hfirst : ∀ request ∈ requests.take n, ¬request.isSave) :
    latest edits (requests.eraseIdx n) = latest m requests := by
  conv_rhs => rw [split_at h]
  rw [List.eraseIdx_eq_take_drop_succ, latest_append, latest_append,
    latest_of_not_save edits hfirst]
  rfl

/-- What is no save leaves the last one. -/
theorem latest_other {n m : Nat} {request : Request} (h : requests[n]? = some request)
    (hsave : ¬request.isSave) : latest m (requests.eraseIdx n) = latest m requests := by
  conv_rhs => rw [split_at h]
  rw [List.eraseIdx_eq_take_drop_succ, latest_append, latest_append, ← List.singleton_append,
    latest_append, latest_of_not_save _ (List.forall_mem_singleton.2 hsave)]

/-! ### What a run keeps -/

section Tracks

variable {s : Dashboard}

/-- Settings with so many edits in them are what was last set, if that is all there are. -/
def UpTo (all : Nat) (wanted : UiSettings) (edits : Nat) (settings : UiSettings) : Prop :=
  edits ≤ all ∧ (edits = all → settings = wanted)

/-- The dashboard shows what was last set, and every copy of the settings knows the edits that it
has. -/
structure Tracks (s : Dashboard) : Prop where
  config : s.config.own = s.wanted.own
  backend : UpTo s.edits s.wanted.own s.saved s.backend.config.own
  sent : ∀ settings edits chained, .saveConfig settings edits chained ∈ s.requests →
    UpTo s.edits s.wanted.own edits settings.own
  answered : ∀ loaded edits, .config loaded edits ∈ s.answers →
    UpTo s.edits s.wanted.own edits loaded.own

/-- The last edit is in the last save, if not in a link of `persistChain` that has not run. -/
def Saves (s : Dashboard) : Prop := 0 < s.queued ∨ latest s.saved s.requests = s.edits

/-- After one more edit no copy has all of them. -/
theorem UpTo.set {all edits : Nat} {wanted wanted' settings : UiSettings}
    (h : UpTo all wanted edits settings) : UpTo (all + 1) wanted' edits settings := by
  have hlt : edits < all + 1 := Nat.lt_succ_of_le h.1
  exact ⟨Nat.le_of_lt hlt, fun heq ↦ absurd heq (Nat.ne_of_lt hlt)⟩

theorem Tracks.set (h : Tracks s) (e : Edit) : Tracks (s.set e) where
  config := own_apply h.config e
  backend := h.backend.set
  sent settings edits chained hmem := (h.sent settings edits chained hmem).set
  answered loaded edits hmem := (h.answered loaded edits hmem).set

/-- A request that is no save. -/
theorem Tracks.request (h : Tracks s) {request : Request} (hsave : ¬request.isSave) :
    Tracks { s with requests := s.requests ++ [request] } where
  config := h.config
  backend := h.backend
  sent settings edits chained hmem := by
    obtain hmem | hmem := List.mem_append.1 hmem
    · exact h.sent settings edits chained hmem
    · obtain rfl := List.mem_singleton.1 hmem
      exact absurd rfl hsave
  answered := h.answered

theorem Saves.request (h : Saves s) {request : Request} (hsave : ¬request.isSave) :
    Saves { s with requests := s.requests ++ [request] } := by
  refine h.imp_right fun hlatest ↦ ?_
  rw [latest_append, latest_of_not_save _ (List.forall_mem_singleton.2 hsave)]
  exact hlatest

theorem Tracks.saveConfig (h : Tracks s) (chained : Bool) : Tracks (s.saveConfig chained) where
  config := h.config
  backend := h.backend
  sent settings edits chained' hmem := by
    obtain hmem | hmem := List.mem_append.1 hmem
    · exact h.sent settings edits chained' hmem
    · obtain ⟨rfl, rfl, -⟩ := Request.saveConfig.inj (List.mem_singleton.1 hmem)
      exact ⟨Nat.le_refl _, fun _ ↦ h.config⟩
  answered := h.answered

theorem saves_saveConfig (chained : Bool) : Saves (s.saveConfig chained) := by
  refine .inr ?_
  rw [Dashboard.saveConfig, latest_append]
  rfl

/-- The default rule is one more edit, or there already. -/
theorem Tracks.ensureDefaultRule (h : Tracks s) (hsaves : Saves s) :
    Tracks s.ensureDefaultRule ∧ Saves s.ensureDefaultRule := by
  unfold Dashboard.ensureDefaultRule
  split
  · exact ⟨h, hsaves⟩
  · exact ⟨(h.set _).saveConfig false, saves_saveConfig false⟩

theorem Tracks.edit (h : Tracks s) (e : Edit) : Tracks (s.edit e) ∧ Saves (s.edit e) := by
  unfold Dashboard.edit
  split
  · exact ⟨⟨(h.set e).config, (h.set e).backend, (h.set e).sent, (h.set e).answered⟩,
      .inl (Nat.succ_pos _)⟩
  · exact ⟨(h.set e).saveConfig false, saves_saveConfig false⟩

/-- A server that is not selected goes. -/
theorem own_removed {c : AppConfig} {id : String} (h : c.selectedServer ≠ some id) :
    (Dashboard.removed c id).own = c.own := by
  rw [Dashboard.removed, if_neg h]
  rfl

theorem Tracks.deleteServer (h : Tracks s) {id : String}
    (hselected : s.config.selectedServer ≠ some id) : Tracks (s.deleteServer id) := by
  have hnone : ¬(Request.deleteServer id).isSave := nofun
  obtain ⟨hconfig, hbackend, hsent, hanswered⟩ := h.request hnone
  exact ⟨(own_removed hselected).trans hconfig, hbackend, hsent, hanswered⟩

/-- The backend's turn at a request. -/
theorem Tracks.serve (h : Tracks s) (hsaves : Saves s) {n : Nat} {request : Request}
    (hn : s.requests[n]? = some request) (hcurrent : Current s (.handle n)) :
    Tracks (s.serve (s.requests.eraseIdx n) request) ∧
      Saves (s.serve (s.requests.eraseIdx n) request) := by
  have hsent : ∀ settings edits chained,
      .saveConfig settings edits chained ∈ s.requests.eraseIdx n →
      UpTo s.edits s.wanted.own edits settings.own :=
    fun settings edits chained hmem ↦ h.sent settings edits chained (List.mem_of_mem_eraseIdx hmem)
  have hanswered (answer : Answer) (hanswer : ∀ loaded edits, answer = .config loaded edits →
      UpTo s.edits s.wanted.own edits loaded.own) : ∀ loaded edits,
      .config loaded edits ∈ s.answers ++ [answer] →
        UpTo s.edits s.wanted.own edits loaded.own := by
    intro loaded edits hmem
    obtain hmem | hmem := List.mem_append.1 hmem
    · exact h.answered loaded edits hmem
    · exact hanswer loaded edits (List.mem_singleton.1 hmem).symm
  replace hcurrent := hcurrent request hn
  cases request with
  | getConfig =>
    refine ⟨⟨h.config, h.backend, hsent, hanswered _ fun loaded edits heq ↦ ?_⟩,
      hsaves.imp_right (latest_other hn nofun).trans⟩
    obtain ⟨rfl, rfl⟩ := Answer.config.inj heq
    exact h.backend
  | saveConfig settings edits chained =>
    obtain ⟨hfirst, hhas⟩ := hcurrent
    obtain ⟨hle, heq⟩ := h.sent settings edits chained (List.mem_of_getElem? hn)
    have hown : (s.backend.step (.saveConfig settings, true)).config.own = settings.own :=
      own_applyUiSettings hhas
    have hsaved := hanswered (.saved chained) fun loaded edits heq ↦ by cases heq
    exact ⟨⟨h.config, ⟨hle, fun hall ↦ hown.trans (heq hall)⟩, hsent, hsaved⟩,
      hsaves.imp_right (latest_save hn hfirst).trans⟩
  | deleteServer id =>
    have hkeeps : (Writer.deleteServer id).Keeps s.backend.config := hcurrent
    have hown := own_step hkeeps fun settings heq ↦ by cases heq
    have hdeleted := hanswered .deleted fun loaded edits heq ↦ by cases heq
    exact ⟨⟨h.config, ⟨h.backend.1, fun hall ↦ hown.trans (h.backend.2 hall)⟩, hsent, hdeleted⟩,
      hsaves.imp_right (latest_other hn nofun).trans⟩
  | reloadProxyFilters =>
    have hreloaded := hanswered .reloaded fun loaded edits heq ↦ by cases heq
    exact ⟨⟨h.config, h.backend, hsent, hreloaded⟩, hsaves.imp_right (latest_other hn nofun).trans⟩

/-- The dashboard's turn at an answer. -/
theorem Tracks.resume (h : Tracks s) (hsaves : Saves s) {n : Nat} {answer : Answer}
    (hn : s.answers[n]? = some answer) (hcurrent : Current s (.arrive n)) :
    Tracks (s.resume (s.answers.eraseIdx n) answer) ∧
      Saves (s.resume (s.answers.eraseIdx n) answer) := by
  have hanswered : ∀ loaded edits, .config loaded edits ∈ s.answers.eraseIdx n →
      UpTo s.edits s.wanted.own edits loaded.own :=
    fun loaded edits hmem ↦ h.answered loaded edits (List.mem_of_mem_eraseIdx hmem)
  have hrest : Tracks { s with answers := s.answers.eraseIdx n } :=
    ⟨h.config, h.backend, h.sent, hanswered⟩
  replace hcurrent := hcurrent answer hn
  cases answer with
  | config loaded edits =>
    have hown := (h.answered loaded edits (List.mem_of_getElem? hn)).2 hcurrent
    exact Tracks.ensureDefaultRule ⟨hown, h.backend, h.sent, hanswered⟩ hsaves
  | saved chained =>
    cases chained with
    | false => exact ⟨hrest, hsaves⟩
    | true =>
      have hnone : ¬Request.reloadProxyFilters.isSave := nofun
      have hreload := hrest.request hnone
      exact ⟨⟨hreload.config, hreload.backend, hreload.sent, hreload.answered⟩,
        Saves.request hsaves nofun⟩
  | deleted => exact ⟨hrest.request nofun, Saves.request hsaves nofun⟩
  | reloaded => exact ⟨⟨hrest.config, hrest.backend, hrest.sent, hrest.answered⟩, hsaves⟩

/-- What a step keeps. -/
theorem Tracks.step (h : Tracks s) (hsaves : Saves s) {turn : Turn} (hcurrent : Current s turn) :
    Tracks (s.step turn) ∧ Saves (s.step turn) := by
  cases turn with
  | edit e => exact h.edit e
  | deleteServer id => exact ⟨h.deleteServer hcurrent, Saves.request hsaves nofun⟩
  | loadConfig => exact ⟨h.request nofun, hsaves.request nofun⟩
  | persist =>
    simp only [Dashboard.step]
    split
    · have hlink : Tracks { s with queued := s.queued - 1, link := .saving } :=
        ⟨h.config, h.backend, h.sent, h.answered⟩
      exact ⟨hlink.saveConfig true, saves_saveConfig true⟩
    · exact ⟨h, hsaves⟩
  | handle n =>
    simp only [Dashboard.step]
    split
    · next hn => exact h.serve hsaves hn hcurrent
    · exact ⟨h, hsaves⟩
  | arrive n =>
    simp only [Dashboard.step]
    split
    · next hn => exact h.resume hsaves hn hcurrent
    · exact ⟨h, hsaves⟩
  | backend w =>
    have hwrite (hsave : ∀ settings, w ≠ .saveConfig settings) :
        Tracks { s with backend := s.backend.step (w, true) } ∧
          Saves { s with backend := s.backend.step (w, true) } := by
      have hown := own_step hcurrent hsave
      exact ⟨⟨h.config, ⟨h.backend.1, fun hall ↦ hown.trans (h.backend.2 hall)⟩, h.sent,
        h.answered⟩, hsaves⟩
    cases w with
    | saveConfig settings => exact ⟨h, hsaves⟩
    | deleteServer id => exact ⟨h, hsaves⟩
    | _ => exact hwrite fun settings heq ↦ by cases heq

/-- What a run keeps. -/
theorem Tracks.run (h : Tracks s) (hsaves : Saves s) {turns : List Turn}
    (hcurrent : AllCurrent s turns) : Tracks (s.run turns) ∧ Saves (s.run turns) := by
  induction turns generalizing s with
  | nil => exact ⟨h, hsaves⟩
  | cons turn turns ih =>
    obtain ⟨hturn, hrest⟩ := hcurrent
    obtain ⟨h', hsaves'⟩ := h.step hsaves hturn
    exact ih h' hsaves' hrest

theorem tracks_loaded (b : Backend) : Tracks (.loaded b) ∧ Saves (.loaded b) :=
  Tracks.ensureDefaultRule
    { config := rfl
      backend := ⟨Nat.le_refl 0, fun _ ↦ rfl⟩
      sent := fun _ _ _ hmem ↦ by cases hmem
      answered := fun _ _ hmem ↦ by cases hmem }
    (.inr rfl)

end Tracks

/-- **In a run whose saves are handled in order and need no healing, and whose loads have every edit
in them, the backend has what was last set once nothing is in flight, and the dashboard shows
it.** -/
theorem agrees_of_allCurrent (b : Backend) (turns : List Turn)
    (hcurrent : AllCurrent (.loaded b) turns) (hquiet : (Dashboard.run
    (.loaded b) turns).Quiescent) :
    (Dashboard.run (.loaded b) turns).Agrees := by
  obtain ⟨htracks, hsaves⟩ := (tracks_loaded b).1.run (tracks_loaded b).2 hcurrent
  obtain ⟨hqueued, -, hrequests, -⟩ := hquiet
  refine ⟨htracks.backend.2 ?_, htracks.config⟩
  obtain hpos | hlatest := hsaves
  · exact absurd hqueued (Nat.ne_of_gt hpos)
  · rwa [hrequests] at hlatest

/-- A backend without servers, whose config has the default rule. -/
def ruleOnly : Backend where
  memory := ⟨{ AppConfig.default with filters := [defaultRule] },
      { AppConfig.default with filters := [defaultRule] }⟩
  testing := []

/-- A theme is set while a load waits, and a rule is added after it. -/
def calmTurns : List Turn :=
  [.loadConfig, .edit (.theme .light), .handle 1, .handle 0, .arrive 1,
    .edit (.filters [defaultRule, ⟨"example.com", .withSubdomains, .bypass⟩]), .persist, .arrive 0,
    .handle 0, .arrive 0, .handle 0, .arrive 0]

theorem agrees_calmTurns :
    AllCurrent (.loaded ruleOnly) calmTurns ∧ (Dashboard.run (.loaded ruleOnly) calmTurns).Agrees :=
  have hcurrent : AllCurrent (.loaded ruleOnly) calmTurns := by decide
  ⟨hcurrent, agrees_of_allCurrent ruleOnly calmTurns hcurrent (by decide)⟩

/-- A load that the backend answered before a save replaces the config after it, and the next save
takes the edit back. -/
theorem edit_lost :
    ¬∀ b turns, (Dashboard.run (.loaded b) turns).Quiescent →
      (Dashboard.run (.loaded b) turns).Agrees := by
  intro h
  have hlost := h ruleOnly [.loadConfig, .edit (.theme .light), .handle 0, .handle 0, .arrive 0,
    .arrive 0, .edit (.localPort 1080), .handle 0, .arrive 0] (by decide)
  exact absurd hlost (by decide)

end Hole.Gui
