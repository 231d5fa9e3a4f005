import Hole.Gui.FilterTable

/-!
# The badges of rules that the bridge put aside

`ui/filters.ts`, `pollProxyStatus` of `ui/main.ts`, `reload_proxy_filters` of `commands.rs`, and the
bridge as far as it has rules: a poll takes the table's epoch with it, and what it brings back is
shown if the epoch is still that. But the epoch moves when the table changes, and the bridge has the
change only when the reload has landed. A poll that sets out in between brings the bridge's verdicts
on the rules of before (`badge_on_good_rule`).
-/

namespace Hole.Gui.FilterTable

open Hole.Filter

/-! ### The dashboard, the backend and the bridge -/

/-- A poll of the status. -/
inductive Poll
  | asked (epoch : Nat)
  /-- It was answered, by a bridge that ran these rules if it ran any, or by no bridge. -/
  | answered (epoch : Nat) (status : Option (Option (List FilterRule)))

/-- All that the rules go through. -/
structure World where
  page : Page
  /-- The rules of the backend's config. -/
  saved : List FilterRule
  /-- The rules that the bridge runs, if it runs. -/
  bridge : Option (List FilterRule)
  polls : List Poll
  /-- The lists that the bridge was given. -/
  given : List (List FilterRule)

/-- What happens. The answer of a command that fails is `ok = false`. -/
inductive Step
  | ui (e : Event)
  | persist
  | save (ok : Bool)
  | saveOther (n : Nat) (ok : Bool)
  /-- `reload_proxy_filters` reads the config, which has a selected server or not. -/
  | reload (selected : Bool)
  /-- `BridgeLink::reload_if_running`. -/
  | push (ok : Bool)
  /-- Whoever starts or stops the bridge. -/
  | give (rules : Option (List FilterRule))
  /-- `pollProxyStatus`. -/
  | poll
  | answer (n : Nat) (ok : Bool)
  | resolve (n : Nat)

/-- What the status says of a bridge that runs these rules. -/
def invalidFilters (c : Crates) (running : Option (List FilterRule)) : List InvalidFilter :=
  (fromUserRules c (running.getD [])).dropped

namespace World

variable (w : World)

/-- The bridge runs other rules. -/
def run (rules : List FilterRule) : World :=
  { w with bridge := some rules, given := rules :: w.given }

/-- The chain goes on. -/
def goto (link : Link) : World := { w with page := { w.page with link := link } }

/-- `pollProxyStatus`, with an answer. -/
def applyPoll (c : Crates) (epoch : Nat) (status : Option (Option (List FilterRule))) : World :=
  if epoch = w.page.epoch then
    { w with page := w.page.setInvalidFilters (status.map (invalidFilters c)) }
  else w

/-- One step. -/
def step (c : Crates) : Step → World
  | .ui e => { w with page := w.page.on e }
  | .persist =>
    if w.page.link = .idle ∧ 0 < w.page.queued then
      { w with page :=
        { w.page with queued := w.page.queued - 1, link := .saving w.page.filters.1 } }
    else w
  | .save ok =>
    match w.page.link with
    -- A save that fails leaves the backend's config, and the reload follows all the same.
    | .saving rules => { w.goto .reloading with saved := if ok then rules else w.saved }
    | _ => w
  | .saveOther n ok =>
    match w.page.saves[n]? with
    | some rules =>
      { w with
        page := { w.page with saves := w.page.saves.eraseIdx n }
        saved := if ok then rules else w.saved }
    | none => w
  | .reload selected =>
    match w.page.link with
    | .reloading => w.goto (if selected then .pushing w.saved else .idle)
    | _ => w
  | .push ok =>
    match w.page.link with
    | .pushing rules =>
      if ok = true ∧ w.bridge.isSome then (w.goto .idle).run rules else w.goto .idle
    | _ => w
  | .give (some rules) => w.run rules
  | .give none => { w with bridge := none }
  | .poll => { w with polls := w.polls ++ [.asked w.page.epoch] }
  | .answer n ok =>
    match w.polls[n]? with
    | some (.asked epoch) =>
      { w with polls := w.polls.set n (.answered epoch (if ok then some w.bridge else none)) }
    | _ => w
  | .resolve n =>
    match w.polls[n]? with
    | some (.answered epoch status) =>
      { w with polls := w.polls.eraseIdx n }.applyPoll c epoch status
    | _ => w

/-- A run. -/
def exec (c : Crates) (steps : List Step) : World := steps.foldl (fun w s ↦ w.step c s) w

/-- The dashboard has loaded rules, and shows them; the backend and the bridge may have others. -/
def loaded (rules : Rules) (saved : List FilterRule) (running : Option (List FilterRule)) :
    World where
  page := Page.renderFilters
    { filters := rules, editing := none, epoch := 0, invalidFilters := [], queued := 0,
      link := .idle, saves := [] }
  saved := saved
  bridge := running
  polls := []
  given := running.toList

end World

/-! ### What a badge is for -/

section Judged

variable (c : Crates)

/-- The bridge was given the rule, and put it aside for this reason. -/
def Judged (given : List (List FilterRule)) (rule : FilterRule) (error : String) : Prop :=
  ∃ rules ∈ given, rule ∈ rules ∧ Matcher.compile c rule.address rule.matching = .error error

/-- The rule that is shown in a row with a badge is one that the bridge judged. -/
def Honest (w : World) : Prop :=
  ∀ i error, w.page.badge i = some error →
    ∃ rule, w.page.filters.1[i]? = some rule ∧ Judged c w.given rule error

/-- What a step has to meet. A poll's answer is shown where the rules that the bridge put aside are
the rules on screen with their indices. A rule without an address is taken off where no badge is in
its row or below. -/
def Aligned (w : World) : Step → Prop
  | .resolve n => ∀ running : Option (List FilterRule),
    w.polls[n]? = some (.answered w.page.epoch (some running)) →
    ∀ (k : Nat) rule, (running.getD [])[k]? = some rule → ¬Compiles c rule →
      w.page.filters.1[k]? = some rule
  | .ui .cancel => ∀ edit, w.page.editing = some edit → edit.original = "" →
    ∀ d ∈ w.page.invalidFilters, d.index.toNat < edit.index
  | _ => True

/-- Every step of a run is `Aligned`. -/
def AllAligned : World → List Step → Prop
  | _, [] => True
  | w, s :: steps => Aligned c w s ∧ AllAligned (w.step c s) steps

/-! ### The invariant -/

/-- Every verdict is on the rule in its row. -/
def Marked (given : List (List FilterRule)) (p : Page) : Prop :=
  ∀ d ∈ p.invalidFilters, ∃ rule, p.filters.1[d.index.toNat]? = some rule ∧
    Judged c given rule d.error

/-- What holds in every state. -/
structure Inv (w : World) : Prop where
  marked : Marked c w.given w.page
  bridge : ∀ rules, w.bridge = some rules → rules ∈ w.given
  polls : ∀ epoch rules, .answered epoch (some (some rules)) ∈ w.polls → rules ∈ w.given

variable {c}

/-- What is dropped is of the rule with its index, as far as the index goes. -/
theorem mem_dropped {rules : List FilterRule} {i : Nat} {d : InvalidFilter}
    (hd : d ∈ (compileRules c i rules).2) :
    ∃ k rule, rules[k]? = some rule ∧
      Matcher.compile c rule.address rule.matching = .error d.error ∧
      d.index = clampIndex (i + k) := by
  induction rules generalizing i with
  | nil => simp [compileRules] at hd
  | cons rule rules ih =>
    rw [compileRules] at hd
    dsimp only at hd
    have hlater (hd : d ∈ (compileRules c (i + 1) rules).2) :
        ∃ k rule', (rule :: rules)[k]? = some rule' ∧
          Matcher.compile c rule'.address rule'.matching = .error d.error ∧
          d.index = clampIndex (i + k) := by
      obtain ⟨k, found, hget, hcompile, hindex⟩ := ih hd
      exact ⟨k + 1, found, hget, hcompile, by rw [hindex, Nat.add_assoc, Nat.add_comm 1]⟩
    cases hm : Matcher.compile c rule.address rule.matching with
    | ok m =>
      rw [hm] at hd
      exact hlater hd
    | error err =>
      rw [hm] at hd
      rcases List.mem_cons.1 hd with rfl | hd
      · exact ⟨0, rule, rfl, hm, rfl⟩
      · exact hlater hd

theorem Judged.mono {given given' : List (List FilterRule)} (hsub : given ⊆ given')
    {rule : FilterRule} {error : String} (h : Judged c given rule error) :
    Judged c given' rule error := by
  obtain ⟨rules, hgiven, hrule⟩ := h
  exact ⟨rules, hsub hgiven, hrule⟩

theorem Marked.mono {given given' : List (List FilterRule)} (hsub : given ⊆ given') {p : Page}
    (h : Marked c given p) : Marked c given' p := by
  intro d hd
  obtain ⟨rule, hrule, hjudged⟩ := h d hd
  exact ⟨rule, hrule, hjudged.mono hsub⟩

variable {given : List (List FilterRule)}

theorem Marked.kept {p q : Page} (h : Marked c given p) (hkept : Kept p q) : Marked c given q := by
  rcases hkept with hnil | ⟨hsame, hpre⟩
  · intro d hd
    rw [hnil] at hd
    cases hd
  · intro d hd
    rw [hsame] at hd
    obtain ⟨rule, hrule, hjudged⟩ := h d hd
    obtain ⟨added, hadded⟩ := hpre
    refine ⟨rule, ?_, hjudged⟩
    rw [← hadded, List.getElem?_append_left (List.getElem?_eq_some_iff.1 hrule).1, hrule]

theorem Marked.cancel {p : Page} (h : Marked c given p)
    (habove : ∀ edit, p.editing = some edit → edit.original = "" →
      ∀ d ∈ p.invalidFilters, d.index.toNat < edit.index) :
    Marked c given p.cancel := by
  rw [Page.cancel]
  cases hedit : p.editing with
  | none => exact h
  | some edit =>
    dsimp only
    split
    · next hblank =>
      refine Marked.kept (fun d hd ↦ ?_) (kept_renderFilters _)
      obtain ⟨rule, hrule, hjudged⟩ := h d hd
      refine ⟨rule, ?_, hjudged⟩
      exact (List.getElem?_eraseIdx_of_lt (habove edit hedit hblank d hd)).trans hrule
    · exact Marked.kept h (kept_renderFilters _)

/-- The verdicts of a bridge are on the rules in their rows, where the rules that it put aside are
in the rows that they were in. -/
theorem marked_verdicts {running : Option (List FilterRule)} {p : Page}
    (hgiven : ∀ rules, running = some rules → rules ∈ given)
    (haligned : ∀ (k : Nat) rule, (running.getD [])[k]? = some rule → ¬Compiles c rule →
      p.filters.1[k]? = some rule) :
    Marked c given { p with invalidFilters := invalidFilters c running } := by
  intro d hd
  obtain ⟨k, rule, hget, hcompile, hindex⟩ := mem_dropped hd
  have hrow : p.filters.1[k]? = some rule := by
    refine haligned k rule hget ?_
    rintro ⟨m, hm⟩
    rw [hcompile] at hm
    cases hm
  have hk : k < 2 ^ 32 := (List.getElem?_eq_some_iff.1 hrow).1.trans p.filters.2
  rw [Nat.zero_add] at hindex
  refine ⟨rule, by rw [hindex, toNat_clampIndex hk]; exact hrow, ?_⟩
  cases running with
  | none => cases hget
  | some rules => exact ⟨rules, hgiven rules rfl, List.mem_of_getElem? hget, hcompile⟩

/-! ### Runs -/

theorem Inv.run {w : World} (h : Inv c w) (rules : List FilterRule) : Inv c (w.run rules) where
  marked := h.marked.mono (List.subset_cons_self ..)
  bridge := by
    rintro _ ⟨⟩
    exact .head _
  polls epoch rules' hp := .tail _ (h.polls epoch rules' hp)

theorem inv_step {w : World} (h : Inv c w) {s : Step} (haligned : Aligned c w s) :
    Inv c (w.step c s) := by
  cases s with
  | ui e =>
    refine ⟨?_, h.bridge, h.polls⟩
    by_cases he : e = .cancel
    · subst he
      exact h.marked.cancel haligned
    · exact h.marked.kept (kept_on w.page he)
  | persist =>
    rw [World.step]
    split
    · exact ⟨h.marked, h.bridge, h.polls⟩
    · exact h
  | save ok =>
    rw [World.step]
    split
    · exact ⟨h.marked, h.bridge, h.polls⟩
    · exact h
  | saveOther n ok =>
    rw [World.step]
    split
    · exact ⟨h.marked, h.bridge, h.polls⟩
    · exact h
  | reload selected =>
    rw [World.step]
    split
    · exact ⟨h.marked, h.bridge, h.polls⟩
    · exact h
  | push ok =>
    rw [World.step]
    split
    · next rules _ =>
      have hgoto : Inv c (w.goto .idle) := ⟨h.marked, h.bridge, h.polls⟩
      split
      · exact hgoto.run rules
      · exact hgoto
    · exact h
  | give rules =>
    cases rules with
    | none => exact ⟨h.marked, nofun, h.polls⟩
    | some rules => exact h.run rules
  | poll =>
    refine ⟨h.marked, h.bridge, fun epoch rules hp ↦ ?_⟩
    rcases List.mem_append.1 hp with hp | hp
    · exact h.polls epoch rules hp
    · cases List.mem_singleton.1 hp
  | answer n ok =>
    rw [World.step]
    split
    · refine ⟨h.marked, h.bridge, fun epoch rules hp ↦ ?_⟩
      rcases List.mem_or_eq_of_mem_set hp with hp | hp
      · exact h.polls epoch rules hp
      · cases ok with
        | true => exact h.bridge rules (Option.some.inj (Poll.answered.inj hp).2).symm
        | false => cases (Poll.answered.inj hp).2
    · exact h
  | resolve n =>
    rw [World.step]
    split
    · next epoch status hn =>
      have hpolls (epoch' : Nat) (rules : List FilterRule)
          (hp : .answered epoch' (some (some rules)) ∈ w.polls.eraseIdx n) : rules ∈ w.given :=
        h.polls epoch' rules (List.mem_of_mem_eraseIdx hp)
      rw [World.applyPoll]
      split
      · next hepoch =>
        refine ⟨?_, h.bridge, hpolls⟩
        cases status with
        | none => exact h.marked
        | some running =>
          refine marked_verdicts (fun rules hrules ↦ ?_) (haligned running (hepoch ▸ hn))
          subst hrules
          exact h.polls epoch rules (List.mem_of_getElem? hn)
      · exact ⟨h.marked, h.bridge, hpolls⟩
    · exact h

theorem inv_exec {w : World} (h : Inv c w) {steps : List Step} (haligned : AllAligned c w steps) :
    Inv c (w.exec c steps) := by
  induction steps generalizing w with
  | nil => exact h
  | cons s steps ih => exact ih (inv_step h haligned.1) haligned.2

theorem inv_loaded (rules : Rules) (saved : List FilterRule) (running : Option (List FilterRule)) :
    Inv c (World.loaded rules saved running) where
  marked := by
    refine Marked.kept (fun d hd ↦ ?_) (kept_renderFilters _)
    cases hd
  bridge := by
    rintro rules rfl
    exact List.mem_singleton_self _
  polls := nofun

/-- What is on a badge is of a verdict on its row. -/
theorem Inv.honest {w : World} (h : Inv c w) : Honest c w := by
  intro i error hbadge
  rw [Page.badge] at hbadge
  split at hbadge
  · obtain ⟨d, hfind, rfl⟩ := Option.map_eq_some_iff.1 hbadge
    have hd : d ∈ w.page.invalidFilters := List.mem_reverse.1 (List.mem_of_find?_eq_some hfind)
    obtain ⟨rule, hrule, hjudged⟩ := h.marked d hd
    have hi : d.index.toNat = i := by simpa using List.find?_some hfind
    exact ⟨rule, hi ▸ hrule, hjudged⟩
  · cases hbadge

/-- A rule that is shown with a badge is one that the bridge was given and put aside, in every run
in which a poll's answer is shown only where the rules that were put aside are still in their rows,
and an edit of a rule without an address is cancelled only where no badge is in its row or below. -/
theorem honest_of_aligned (c : Crates) (rules : Rules) (saved : List FilterRule)
    (running : Option (List FilterRule)) (steps : List Step)
    (h : AllAligned c (World.loaded rules saved running) steps) :
    Honest c ((World.loaded rules saved running).exec c steps) :=
  (inv_exec (inv_loaded rules saved running) h).honest

end Judged

/-- The crates of `ipnet`, and patterns that match every name, as `*` does. -/
def anyPattern : Crates :=
  { ipnet with Regex := Unit, newRegex := fun _ ↦ .ok (), isMatch := fun _ _ ↦ true }

/-- A rule for a network that is none. -/
def badSubnet : FilterRule := ⟨"example.com", .subnet, .block⟩

/-- A rule for a name. -/
def goodName : FilterRule := ⟨"example.org", .exactly, .block⟩

/-- A table with a bad rule before a good one. -/
def threeRules : Rules := ⟨[defaultRule, badSubnet, goodName], by decide⟩

/-- The dashboard shows them, and the bridge runs them. -/
def showsThree : World := .loaded threeRules threeRules.1 (some threeRules.1)

theorem honest_of_aligned_sample :
    Honest anyPattern (showsThree.exec anyPattern [.poll, .answer 0 true, .resolve 0]) ∧
      (showsThree.exec anyPattern [.poll, .answer 0 true, .resolve 0]).page.badge 1 =
        some "not a valid CIDR: invalid IP address syntax" := by
  refine ⟨honest_of_aligned anyPattern threeRules _ _ _ ⟨trivial, trivial, ?_, trivial⟩, rfl⟩
  rintro running ⟨⟩ k rule hk -
  exact hk

/-- The bad rule is deleted, and a poll sets out and is answered before the reload has landed: the
badge is shown on the good rule, which has taken the row of the bad one. -/
theorem badge_on_good_rule : ¬Honest anyPattern
      (showsThree.exec anyPattern [.ui (.deleteRule 1), .poll, .answer 0 true, .resolve 0]) := by
  intro h
  obtain ⟨rule, hrule, rules, -, -, herror⟩ := h 1 _ rfl
  obtain rfl : goodName = rule := Option.some.inj hrule
  cases herror

end Hole.Gui.FilterTable
