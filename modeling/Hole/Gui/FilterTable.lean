import Hole.Filter.Engine
import Hole.Gui.Dashboard

/-!
# The table of the rules

`ui/filters.ts`: the rules on screen, the edit that is open in a row, and the badges of rules that
the bridge put aside. A row is that of the rule with its index, and so is a badge.

What changes the rules drops the badges, with one exception: an edit that is cancelled takes a rule
without an address off the table, whichever row it is in, and the badges stay (`Page.cancel`).
-/

namespace Hole.Gui.FilterTable

open Hole.Filter

/-- `config.filters`. An array has fewer than `2 ^ 32` elements. -/
abbrev Rules : Type := {rules : List FilterRule // rules.length < 2 ^ 32}

namespace Rules

variable (r : Rules)

/-- An assignment to a field of a rule. -/
def assign (i : Nat) (f : FilterRule → FilterRule) : Rules :=
  ⟨r.1.modify i f, (List.length_modify ..).trans_lt r.2⟩

/-- `splice(i, 1)`. -/
def splice (i : Nat) : Rules := ⟨r.1.eraseIdx i, (List.length_eraseIdx_le ..).trans_lt r.2⟩

/-- `push`, which throws where the array would be too long. -/
def push (rule : FilterRule) : Rules :=
  if h : r.1.length + 1 < 2 ^ 32 then ⟨r.1 ++ [rule], by rwa [List.length_append]⟩ else r

/-- `unshift`, which throws where the array would be too long. -/
def unshift (rule : FilterRule) : Rules :=
  if h : r.1.length + 1 < 2 ^ 32 then ⟨rule :: r.1, h⟩ else r

/-- The rules of the rows, after the row `i` was dropped at `j`. -/
def reorder (i j : Nat) : Rules :=
  let rows := ((List.range r.1.length).eraseIdx i).insertIdx j i
  if h : rows.length ≤ r.1.length then
    ⟨rows.filterMap (r.1[·]?), ((List.length_filterMap_le ..).trans h).trans_lt r.2⟩
  else r

end Rules

/-- The edit of an address that is open. -/
structure AddressEdit where
  /-- `editingIndex`. -/
  index : Nat
  original : String
  text : String

/-- What `trim` takes off. -/
def isSpace (c : Char) : Bool :=
  c ∈ ['\t', '\n', '\x0b', '\x0c', '\r', ' ', '\u00a0', '\u1680', '\u2028', '\u2029', '\u202f',
    '\u205f', '\u3000', '\ufeff'] || ('\u2000' ≤ c && c ≤ '\u200a')

/-- `trim`. -/
def trim (s : String) : String := String.ofList ((s.toList.dropWhile isSpace).rdropWhile isSpace)

/-- Where the link of `persistChain` is that runs. -/
inductive Link
  | idle
  | saving (rules : List FilterRule)
  | reloading
  /-- The backend sends these rules to the bridge. -/
  | pushing (rules : List FilterRule)
  deriving DecidableEq

/-- The table, and what it has sent. -/
structure Page where
  filters : Rules
  editing : Option AddressEdit
  epoch : Nat
  invalidFilters : List InvalidFilter
  /-- The links of `persistChain` that have not run. -/
  queued : Nat
  link : Link
  /-- The saves outside of the chain that have not landed. -/
  saves : List (List FilterRule)

namespace Page

variable (p : Page)

/-- The badge of a row. -/
def badge (i : Nat) : Option String :=
  if i < p.filters.1.length then
    (p.invalidFilters.reverse.find? (·.index.toNat = i)).map InvalidFilter.error
  else none

/-- `invalidateInvalidFilters`. -/
def invalidateInvalidFilters : Page := { p with epoch := p.epoch + 1, invalidFilters := [] }

/-- `setInvalidFilters`. -/
def setInvalidFilters : Option (List InvalidFilter) → Page
  | none => p
  | some list => { p with invalidFilters := list }

/-- `saveConfig`, outside of the chain. -/
def saveConfig : Page := { p with saves := p.saves ++ [p.filters.1] }

/-- `persistFilters`. -/
def persistFilters : Page :=
  let p := p.invalidateInvalidFilters
  { p with queued := p.queued + 1 }

/-- `ensureDefaultRule`. -/
def ensureDefaultRule : Page :=
  if p.filters.1.head? = some defaultRule then p
  else { p with filters := p.filters.unshift defaultRule }.invalidateInvalidFilters.saveConfig

/-- `commitPendingEdit`. -/
def commitPendingEdit : Page :=
  match p.editing with
  | none => p
  | some edit =>
    let p := { p with editing := none }
    match p.filters.1[edit.index]? with
    | none => p
    | some rule =>
      let value := trim edit.text
      if value = "" then { p with filters := p.filters.splice edit.index }.persistFilters
      else if value = rule.address then p
      else { p with
        filters := p.filters.assign edit.index fun rule ↦ { rule with address := value }
        }.persistFilters

/-- `renderFilters`. -/
def renderFilters : Page := p.ensureDefaultRule.commitPendingEdit

/-- `commitOrCancelEditing`. -/
def commitOrCancelEditing : Page :=
  if p.editing = none then p else p.commitPendingEdit.renderFilters

/-- `startAddressEdit`, of the rule that is in the row `i` once the open edit is committed. The rule
of the first row has no editor. -/
def startAddressEdit (i : Nat) : Page :=
  if p.editing.map AddressEdit.index = some i then p
  else
    let p := p.commitOrCancelEditing
    match p.filters.1[i]? with
    | none => p
    | some rule => if i = 0 then p else { p with editing := some ⟨i, rule.address, rule.address⟩ }

/-- A key in the input. -/
def input (text : String) : Page :=
  { p with editing := p.editing.map fun edit ↦ { edit with text := text } }

/-- `commit` of `startAddressEdit`. -/
def commit : Page :=
  match p.editing with
  | none => p
  | some edit =>
    let p := { p with editing := none }
    let value := trim edit.text
    if value = "" then
      { p with filters := p.filters.splice edit.index }.persistFilters.renderFilters
    else if value = edit.original then p.renderFilters
    else { p with
      filters := p.filters.assign edit.index fun rule ↦ { rule with address := value }
      }.persistFilters.renderFilters

/-- `cancel` of `startAddressEdit`. It drops no badges. -/
def cancel : Page :=
  match p.editing with
  | none => p
  | some edit =>
    let p := { p with editing := none }
    if edit.original = "" then { p with filters := p.filters.splice edit.index }.renderFilters
    else p.renderFilters

/-- A click on an option of a dropdown. The cells of the first row have none. -/
def choose (i : Nat) (f : FilterRule → FilterRule) : Page :=
  if i = 0 then p else { p with filters := p.filters.assign i f }.persistFilters.renderFilters

/-- `onDragEnd`, where a row is dropped at another's place. The first row is not dragged, and no row
is dropped before it. -/
def onDragEnd (i j : Nat) : Page :=
  if i = 0 ∨ j = 0 ∨ p.filters.1.length ≤ i ∨ p.filters.1.length ≤ j then p
  else { p with filters := p.filters.reorder i j }.persistFilters.renderFilters

/-- `addRule`. The rule is not saved. -/
def addRule : Page :=
  let p := p.ensureDefaultRule
  let p := { p with filters := p.filters.push ⟨"", .wildcard, .proxy⟩ }.renderFilters
  p.startAddressEdit (p.filters.1.length - 1)

/-- `deleteRule`. -/
def deleteRule (i : Nat) : Page :=
  if i = 0 then p else { p with filters := p.filters.splice i }.persistFilters.renderFilters

end Page

/-- What the user does. -/
inductive Event
  | startAddressEdit (i : Nat)
  | input (text : String)
  | commit
  | cancel
  | chooseMatching (i : Nat) (matching : MatchType)
  | chooseAction (i : Nat) (action : FilterAction)
  | startDrag
  | onDragEnd (i j : Nat)
  | addRule
  | deleteRule (i : Nat)
  /-- Another section of the dashboard saves the config. -/
  | saveConfig

/-- What that does. -/
def Page.on (p : Page) : Event → Page
  | .startAddressEdit i => p.startAddressEdit i
  | .input text => p.input text
  | .commit => p.commit
  | .cancel => p.cancel
  | .chooseMatching i matching => p.choose i fun rule ↦ { rule with matching := matching }
  | .chooseAction i action => p.choose i fun rule ↦ { rule with action := action }
  | .startDrag => p.commitOrCancelEditing
  | .onDragEnd i j => p.onDragEnd i j
  | .addRule => p.addRule
  | .deleteRule i => p.deleteRule i
  | .saveConfig => p.saveConfig

/-! ### What drops the badges -/

/-- The badges are gone, or every rule is in the row it was in. -/
def Kept (p q : Page) : Prop :=
  q.invalidFilters = [] ∨ (q.invalidFilters = p.invalidFilters ∧ p.filters.1 <+: q.filters.1)

theorem Kept.refl (p : Page) : Kept p p := .inr ⟨rfl, List.prefix_rfl⟩

theorem Kept.trans {p q r : Page} (h : Kept p q) (h' : Kept q r) : Kept p r := by
  rcases h' with hnil | ⟨hsame', hpre'⟩
  · exact .inl hnil
  · rcases h with hnil | ⟨hsame, hpre⟩
    · exact .inl (hsame'.trans hnil)
    · exact .inr ⟨hsame'.trans hsame, hpre.trans hpre'⟩

section Kept

variable (p : Page)

theorem kept_ensureDefaultRule : Kept p p.ensureDefaultRule := by
  rw [Page.ensureDefaultRule]
  split
  · exact .refl p
  · exact .inl rfl

theorem kept_commitPendingEdit : Kept p p.commitPendingEdit := by
  rw [Page.commitPendingEdit]
  cases p.editing with
  | none => exact .refl p
  | some edit =>
    dsimp only
    split
    · exact .inr ⟨rfl, List.prefix_rfl⟩
    · split
      · exact .inl rfl
      · split
        · exact .inr ⟨rfl, List.prefix_rfl⟩
        · exact .inl rfl

theorem kept_renderFilters : Kept p p.renderFilters :=
  (kept_ensureDefaultRule p).trans (kept_commitPendingEdit _)

theorem kept_commitOrCancelEditing : Kept p p.commitOrCancelEditing := by
  rw [Page.commitOrCancelEditing]
  split
  · exact .refl p
  · exact (kept_commitPendingEdit p).trans (kept_renderFilters _)

theorem kept_startAddressEdit (i : Nat) : Kept p (p.startAddressEdit i) := by
  rw [Page.startAddressEdit]
  split
  · exact .refl p
  · refine (kept_commitOrCancelEditing p).trans ?_
    dsimp only
    split
    · exact .refl _
    · split
      · exact .refl _
      · exact .inr ⟨rfl, List.prefix_rfl⟩

/-- A page without badges has none after it is rendered. -/
theorem kept_persist (q : Page) : Kept p q.persistFilters.renderFilters :=
  Kept.trans (.inl rfl) (kept_renderFilters _)

theorem kept_of_ite {refused : Prop} [Decidable refused] (q : Page) :
    Kept p (if refused then p else q.persistFilters.renderFilters) := by
  split
  · exact .refl p
  · exact kept_persist p q

theorem kept_commit : Kept p p.commit := by
  rw [Page.commit]
  cases p.editing with
  | none => exact .refl p
  | some edit =>
    dsimp only
    split
    · exact kept_persist p _
    · split
      · exact Kept.trans (.inr ⟨rfl, List.prefix_rfl⟩) (kept_renderFilters _)
      · exact kept_persist p _

theorem prefix_push (r : Rules) (rule : FilterRule) : r.1 <+: (r.push rule).1 := by
  rw [Rules.push]
  split
  · exact List.prefix_append ..
  · exact List.prefix_rfl

theorem kept_addRule : Kept p p.addRule := by
  have hpush : Kept p.ensureDefaultRule
      { p.ensureDefaultRule with
        filters := p.ensureDefaultRule.filters.push ⟨"", .wildcard, .proxy⟩ } :=
    .inr ⟨rfl, prefix_push _ _⟩
  exact (((kept_ensureDefaultRule p).trans hpush).trans (kept_renderFilters _)).trans
    (kept_startAddressEdit _ _)

/-- All but the cancelling of an edit drops the badges or moves no rule. -/
theorem kept_on {e : Event} (h : e ≠ .cancel) : Kept p (p.on e) := by
  cases e with
  | startAddressEdit i => exact kept_startAddressEdit p i
  | input text => exact .inr ⟨rfl, List.prefix_rfl⟩
  | commit => exact kept_commit p
  | cancel => exact absurd rfl h
  | chooseMatching i matching => exact kept_of_ite p _
  | chooseAction i action => exact kept_of_ite p _
  | startDrag => exact kept_commitOrCancelEditing p
  | onDragEnd i j => exact kept_of_ite p _
  | addRule => exact kept_addRule p
  | deleteRule i => exact kept_of_ite p _
  | saveConfig => exact .inr ⟨rfl, List.prefix_rfl⟩

end Kept

end Hole.Gui.FilterTable
