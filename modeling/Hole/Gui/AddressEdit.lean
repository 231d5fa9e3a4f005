import Hole.Effect.History
import Hole.Gui.FilterTable
import Hole.Keyed
import Hole.Siblings

/-!
# Where an address edit lands

`ui/filters.ts`, with the objects of `config.filters`, the rows and the editors told apart. The code
knows the open editor by an index: `commitPendingEdit` writes what the input of the table holds into
the rule that has that index now, and the closures of an editor act if that index is the one they
were made with. `log` says what the user did, and to which object's row; it gives every object an
address (`addressesOf`), which the list is compared with.
-/

namespace Hole.Gui.AddressEdit

open Effect FilterTable
open Function (update update_eq_self_iff)

/-- An object of `config.filters`. -/
structure RuleObject extends FilterRule where
  id : Nat

/-- What the user did. -/
inductive LogEvent
  | added (object : Nat)
  /-- An editor was opened in the row of an object, which showed this address. -/
  | opened (editor object : Nat) (original : String)
  | typed (editor : Nat) (text : String)
  | deleted (object : Nat)
  | committed (editor : Nat) (text : String)
  | cancelled (editor : Nat)

/-- A child of the table. -/
inductive Tr
  /-- The row of the rule with an index, with its address and the object that it was rendered
  from. -/
  | row (index : Nat) (address : String) (object : Nat)
  | placeholder (n : Nat)
  deriving DecidableEq

/-- `dataset.index`. -/
def Tr.index? : Tr → Option Nat
  | .row index _ _ => some index
  | .placeholder _ => none

/-- What `commit` and `cancel` of `startAddressEdit` hold on to, and what their input holds. -/
structure Editor where
  index : Nat
  original : String
  value : String

/-- `dataset.field`. -/
inductive Field
  | matching
  | action
  deriving DecidableEq

/-- An option of a dropdown. -/
inductive Choice
  | matching (value : MatchType)
  | action (value : FilterAction)

/-- `DragState`. -/
structure DragState where
  row : Tr
  placeholder : Tr

structure Page where
  filters : List RuleObject
  fresh : Nat
  tbody : List Tr
  editingIndex : Option Nat
  editors : List Editor
  inlineInput : Option Nat
  openDropdown : Option (Nat × Field)
  dragState : Option DragState
  placeholders : Nat
  /-- Newest first. -/
  log : List LogEvent

namespace Page

variable (p : Page)

def record (e : LogEvent) : Page := { p with log := e :: p.log }

/-- An assignment to a field of a rule. -/
def assign (index : Nat) (f : RuleObject → RuleObject) : Page :=
  { p with filters := p.filters.modify index f }

/-- `splice(index, 1)`. -/
def splice (index : Nat) : Page := { p with filters := p.filters.eraseIdx index }

/-- A new object. -/
def alloc (rule : FilterRule) : RuleObject := { rule with id := p.fresh }

/-- `ensureDefaultRule`. -/
def ensureDefaultRule : Page :=
  if p.filters.head?.map RuleObject.toFilterRule = some defaultRule then p
  else { p with filters := p.alloc defaultRule :: p.filters
                fresh := p.fresh + 1 }

/-- What is written when an edit ends: a rule without an address is taken off. -/
def write (index : Nat) (original value : String) : Page :=
  if value = "" then p.splice index
  else if value = original then p
  else p.assign index fun rule ↦ { rule with address := value }

/-- `commitPendingEdit`. -/
def commitPendingEdit : Page :=
  match p.editingIndex with
  | none => p
  | some index =>
    let closed := { p with editingIndex := none }
    match p.inlineInput.bind fun editor ↦ p.editors[editor]?.map (editor, ·.value) with
    | none => closed
    | some (editor, text) =>
      let closed := closed.record (.committed editor (trim text))
      match p.filters[index]? with
      | none => closed
      | some rule => closed.write index rule.address (trim text)

/-- The rows of the rules. -/
def rows (filters : List RuleObject) : List Tr :=
  filters.mapIdx fun i rule ↦ .row i rule.address rule.id

/-- The table is built again: the drag and the dropdown of the old one are gone. -/
def rebuild : Page :=
  { p with tbody := rows p.filters
           inlineInput := none
           openDropdown := none
           dragState := none }

/-- `renderFilters`. -/
def renderFilters : Page := p.ensureDefaultRule.commitPendingEdit.rebuild

/-- `commitOrCancelEditing`. -/
def commitOrCancelEditing : Page :=
  if p.editingIndex = none then p else p.commitPendingEdit.renderFilters

/-- The row of an index. -/
def rowAt (index : Nat) : Option Tr := p.tbody.find? (·.index? = some index)

/-- Where an object is now. -/
def indexOf (object : Nat) : Option Nat := p.filters.findIdx? (·.id = object)

/-- The editor of a row that was found. `object` is that of the row that was clicked. -/
def openEditor (object liveIndex : Nat) : Page :=
  match p.rowAt liveIndex with
  | some (.row _ original _) =>
    if liveIndex = 0 then p
    else
      { p with editingIndex := some liveIndex
               editors := p.editors ++ [⟨liveIndex, original, original⟩]
               inlineInput := some p.editors.length
               log := .opened p.editors.length object original :: p.log }
  | _ => p

/-- `startAddressEdit`, of a row with an index, which is that of `object`. -/
def startAddressEdit (index object : Nat) : Page :=
  if p.editingIndex = some index then p
  else
    let committed := p.commitOrCancelEditing
    match p.filters[index]? with
    | none => committed
    | some rule =>
      match committed.indexOf rule.id with
      | none => committed
      | some liveIndex => committed.openEditor object liveIndex

/-- `commit` of `startAddressEdit`, for one editor. -/
def commit (editor : Nat) : Page :=
  match p.editors[editor]? with
  | none => p
  | some ⟨index, original, value⟩ =>
    if p.editingIndex = some index then
      let closed := { p with editingIndex := none }.record (.committed editor (trim value))
      (closed.write index original (trim value)).renderFilters
    else p

/-- `cancel` of `startAddressEdit`, for one editor. -/
def cancel (editor : Nat) : Page :=
  match p.editors[editor]? with
  | none => p
  | some ⟨index, original, _⟩ =>
    if p.editingIndex = some index then
      let closed := { p with editingIndex := none }.record (.cancelled editor)
      (if original = "" then closed.splice index else closed).renderFilters
    else p

/-- A key in the input. -/
def typeText (text : String) : Page :=
  match p.inlineInput with
  | none => p
  | some editor =>
    { p with editors := p.editors.modify editor fun e ↦ { e with value := text }
             log := .typed editor text :: p.log }

/-- `push`, of a new object. -/
def push (rule : FilterRule) : Page :=
  { p with filters := p.filters ++ [p.alloc rule]
           fresh := p.fresh + 1
           log := .added p.fresh :: p.log }

/-- `addRule`. -/
def addRule : Page :=
  let added := (p.ensureDefaultRule.push ⟨"", .wildcard, .proxy⟩).renderFilters
  match added.tbody.getLast? with
  | some (.row index _ object) =>
    -- the first row has no editor
    if index = 0 then added else added.startAddressEdit (added.filters.length - 1) object
  | _ => added

/-- `deleteRule`. -/
def deleteRule (index : Nat) : Page :=
  if index = 0 then p else (p.splice index).renderFilters

/-- `toggleDropdown`. -/
def toggleDropdown (index : Nat) (field : Field) : Page :=
  { p with openDropdown := if p.openDropdown = some (index, field) then none
                           else some (index, field) }

/-- A click on an option of the open dropdown. -/
def choose (choice : Choice) : Page :=
  match p.openDropdown with
  | none => p
  | some (index, field) =>
    match field, choice with
    | .matching, .matching value =>
      (p.assign index fun rule ↦ { rule with matching := value }).renderFilters
    | .action, .action value =>
      (p.assign index fun rule ↦ { rule with action := value }).renderFilters
    | .matching, .action _ | .action, .matching _ => p

/-- `startDrag`. -/
def startDrag (row : Tr) : Page :=
  let placeholder := .placeholder p.placeholders
  { p with tbody := Siblings.appendChild row (Siblings.insertBefore placeholder (some row) p.tbody)
           openDropdown := none
           dragState := some ⟨row, placeholder⟩
           placeholders := p.placeholders + 1 }

/-- `onTbodyPointerDown`, on the handle of a row. -/
def onTbodyPointerDown (index : Nat) : Page :=
  if index = 0 then p
  else
    let committed := p.commitOrCancelEditing
    match p.filters[index]? with
    | none => committed
    | some rule =>
      match committed.indexOf rule.id with
      | none | some 0 => committed
      | some (liveIndex + 1) =>
        match committed.rowAt (liveIndex + 1) with
        | none => committed
        | some row => committed.startDrag row

/-- Where `onDragMove` puts the placeholder, if `rows[target]` is the first row whose middle is
below the pointer. -/
def dropTarget (drag : DragState) (target : Nat) : Option Tr :=
  let rows := p.tbody.filter fun tr ↦ tr ≠ drag.row ∧ tr ≠ drag.placeholder
  let insertBefore := rows[target]?
  match rows.head? with
  | some first =>
    -- never before the default rule
    if first.index? = some 0 ∧ insertBefore = some first then
      let next := Siblings.nextSibling first p.tbody
      if next = some drag.placeholder then Siblings.nextSibling drag.placeholder p.tbody else next
    else insertBefore
  | none => insertBefore

/-- `onDragMove`. -/
def onDragMove (target : Nat) : Page :=
  match p.dragState with
  | none => p
  | some drag =>
    let insertBefore := p.dropTarget drag target
    if insertBefore = Siblings.nextSibling drag.placeholder p.tbody then p
    else
      { p with tbody := Siblings.appendChild drag.row
                 (Siblings.insertBefore drag.placeholder insertBefore p.tbody) }

/-- The rows once the one that is dragged is where its placeholder was. -/
def dropped (drag : DragState) : List Tr :=
  (Siblings.insertBefore drag.row (some drag.placeholder) p.tbody).erase drag.placeholder

/-- `onDragEnd`. -/
def onDragEnd : Page :=
  match p.dragState with
  | none => p
  | some drag =>
    { p with filters := (p.dropped drag).filterMap fun tr : Tr ↦ tr.index?.bind (p.filters[·]?)
             tbody := p.dropped drag
             dragState := none }.renderFilters

end Page

inductive Event
  | clickAddress (index : Nat)
  | typeText (text : String)
  | enter
  | escape
  /-- The timer of a blur of an editor's input. -/
  | blurCommit (editor : Nat)
  | clickDelete (index : Nat)
  | addRule
  | toggleDropdown (index : Nat) (field : Field)
  | closeDropdown
  | choose (choice : Choice)
  | pointerDown (index : Nat)
  | dragMove (target : Nat)
  | dragEnd
  | render

namespace Page

variable (p : Page)

/-- What happens at an event. The first row has a lock and no buttons. -/
def on : Event → Page
  | .clickAddress index =>
    match p.rowAt index with
    | some (.row _ _ object) => if index = 0 then p else p.startAddressEdit index object
    | _ => p
  | .typeText text => p.typeText text
  | .enter => p.inlineInput.elim p p.commit
  | .escape => p.inlineInput.elim p p.cancel
  | .blurCommit editor => p.commit editor
  | .clickDelete index =>
    match p.rowAt index with
    | some (.row _ _ object) =>
      if index = 0 then p else (p.record (.deleted object)).deleteRule index
    | _ => p
  | .addRule => p.addRule
  | .toggleDropdown index field =>
    match p.rowAt index with
    | some (.row _ _ _) => if index = 0 then p else p.toggleDropdown index field
    | _ => p
  | .closeDropdown => { p with openDropdown := none }
  | .choose choice => p.choose choice
  | .pointerDown index => if (p.rowAt index).isSome then p.onTbodyPointerDown index else p
  | .dragMove target => p.onDragMove target
  | .dragEnd => p.onDragEnd
  | .render => p.renderFilters

/-- A list of rules that was not rendered yet. -/
def raw (rules : List FilterRule) : Page where
  filters := rules.mapIdx fun i rule ↦ { rule with id := i }
  fresh := rules.length
  tbody := []
  editingIndex := none
  editors := []
  inlineInput := none
  openDropdown := none
  dragState := none
  placeholders := 0
  log := []

/-- The first rendering of a list of rules. -/
def init (rules : List FilterRule) : Page := (raw rules).renderFilters

def run (events : List Event) : Page := events.foldl Page.on p

end Page

/-! ### What the log says -/

section Log

/-- The editor that is open. -/
def openOf : List LogEvent → Option Nat
  | [] => none
  | .opened editor _ _ :: _ => some editor
  | .committed _ _ :: _ | .cancelled _ :: _ => none
  | .added _ :: log | .typed _ _ :: log | .deleted _ :: log => openOf log

/-- The object in whose row an editor was opened. -/
def ownerOf (editor : Nat) : List LogEvent → Option Nat
  | [] => none
  | .opened editor' object _ :: log => if editor' = editor then some object else ownerOf editor log
  | .added _ :: log | .typed _ _ :: log | .deleted _ :: log | .committed _ _ :: log |
    .cancelled _ :: log => ownerOf editor log

/-- What the input of an editor holds. -/
def textOf (editor : Nat) : List LogEvent → String
  | [] => ""
  | .opened editor' _ original :: log => if editor' = editor then original else textOf editor log
  | .typed editor' text :: log => if editor' = editor then text else textOf editor log
  | .added _ :: log | .deleted _ :: log | .committed _ _ :: log | .cancelled _ :: log =>
    textOf editor log

/-- A text that was committed is the address of its rule if that is still there, and takes it off
where it is empty. -/
def landed (text : String) (address : Option String) : Option String :=
  address.bind fun _ ↦ if text = "" then none else some text

/-- **The address that each object has by what the user did**, if it had `start` at first. The rules
that are gone are those whose delete button was clicked and those whose own editor was committed
empty, or cancelled before they had an address. -/
def addressesOf (start : Nat → Option String) : List LogEvent → Nat → Option String
  | [] => start
  | .added object :: log => update (addressesOf start log) object (some "")
  | .deleted object :: log => update (addressesOf start log) object none
  | .committed editor text :: log =>
    match ownerOf editor log with
    | none => addressesOf start log
    | some object => update (addressesOf start log) object
        (landed text (addressesOf start log object))
  | .cancelled editor :: log =>
    match ownerOf editor log with
    | none => addressesOf start log
    | some object => update (addressesOf start log) object
        ((addressesOf start log object).filter (· ≠ ""))
  | .opened _ _ _ :: log | .typed _ _ :: log => addressesOf start log

/-- What an event says of those before it: an editor is open until its one end, and what it commits
is what was typed into it. -/
def Grounds (start : Nat → Option String) (older : List LogEvent) : LogEvent → Prop
  | .added object => addressesOf start older object = none
  | .opened editor object original => openOf older = none ∧ ownerOf editor older = none ∧
      addressesOf start older object = some original
  | .typed editor _ => openOf older = some editor
  | .deleted object => (addressesOf start older object).isSome
  | .committed editor text => openOf older = some editor ∧ text = trim (textOf editor older)
  | .cancelled editor => openOf older = some editor

end Log

/-- The addresses of the objects. -/
def addressOf (filters : List RuleObject) : Nat → Option String :=
  Keyed.lookup RuleObject.id (·.address) filters

/-! ### The list -/

/-- The objects are told apart, and the first one is the default rule. -/
structure Listed (fresh : Nat) (filters : List RuleObject) : Prop where
  head : filters.head?.map RuleObject.toFilterRule = some defaultRule
  nodup : (filters.map RuleObject.id).Nodup
  fresh : ∀ object ∈ filters, object.id < fresh

section Listed

variable {fresh index : Nat} {filters : List RuleObject}

theorem Listed.eraseIdx (h : Listed fresh filters) (hpos : 0 < index) :
    Listed fresh (filters.eraseIdx index) := by
  obtain ⟨i, rfl⟩ := Nat.exists_eq_succ_of_ne_zero (Nat.ne_of_gt hpos)
  refine ⟨?_, ((List.eraseIdx_sublist filters _).map _).nodup h.nodup, fun object hobject ↦
    h.fresh object ((List.eraseIdx_sublist filters _).subset hobject)⟩
  have hhead := h.head
  cases filters with
  | nil => exact hhead
  | cons first rest => exact hhead

theorem Listed.modify (h : Listed fresh filters) (hpos : 0 < index) {f : RuleObject → RuleObject}
    (hf : ∀ object, (f object).id = object.id) : Listed fresh (filters.modify index f) := by
  have hmap : (filters.modify index f).map RuleObject.id = filters.map RuleObject.id :=
    Keyed.map_key_modify hf filters index
  obtain ⟨i, rfl⟩ := Nat.exists_eq_succ_of_ne_zero (Nat.ne_of_gt hpos)
  refine ⟨?_, hmap ▸ h.nodup, fun object hobject ↦ ?_⟩
  · have hhead := h.head
    cases filters with
    | nil => exact hhead
    | cons first rest => exact hhead
  · have hmem := List.mem_map_of_mem (f := RuleObject.id) hobject
    rw [hmap] at hmem
    obtain ⟨old, hold, hid⟩ := List.mem_map.1 hmem
    exact hid ▸ h.fresh old hold

theorem Listed.concat (h : Listed fresh filters) {object : RuleObject} (hid : object.id = fresh) :
    Listed (fresh + 1) (filters ++ [object]) := by
  have hnew : object.id ∉ filters.map RuleObject.id := by
    rw [List.mem_map]
    rintro ⟨old, hold, heq⟩
    exact absurd (h.fresh old hold) (by omega)
  refine ⟨?_, ?_, fun x hx ↦ ?_⟩
  · have hhead := h.head
    cases filters with
    | nil => cases hhead
    | cons first rest => exact hhead
  · rw [List.map_append, List.map_singleton]
    exact (List.nodup_append_comm.1 (List.nodup_cons.2 ⟨hnew, h.nodup⟩))
  · rcases List.mem_append.1 hx with hold | hlast
    · exact Nat.lt_succ_of_lt (h.fresh x hold)
    · obtain rfl := List.mem_singleton.1 hlast
      omega

theorem Listed.perm (h : Listed fresh filters) {filters' : List RuleObject}
    (hperm : filters'.Perm filters) (hhead : filters'.head? = filters.head?) :
    Listed fresh filters' :=
  ⟨hhead ▸ h.head, (hperm.map _).nodup_iff.2 h.nodup,
    fun object hobject ↦ h.fresh object (hperm.subset hobject)⟩

/-- An object has an address if it is in the list. -/
theorem Listed.lookup (h : Listed fresh filters) {rule : RuleObject}
    (hrule : filters[index]? = some rule) : addressOf filters rule.id = some rule.address :=
  Keyed.lookup_of_mem h.nodup (List.mem_of_getElem? hrule)

theorem Listed.lookup_fresh (h : Listed fresh filters) : addressOf filters fresh = none := by
  rw [addressOf, Keyed.lookup_eq_none, List.mem_map]
  rintro ⟨object, hobject, hid⟩
  exact absurd (h.fresh object hobject) (by omega)

end Listed

/-! ### The invariant -/

/-- What holds of the list, whatever is open. -/
structure Core (start : Nat → Option String) (p : Page) : Prop where
  listed : Listed p.fresh p.filters
  addresses : addressOf p.filters = addressesOf start p.log
  justified : Justified (Grounds start) p.log
  /-- An editor that is made is a new one. -/
  numbered : ∀ editor, p.editors.length ≤ editor → ownerOf editor p.log = none

/-- The open editor, by the index that the code has of it and by the object in whose row it was
opened. -/
structure Owns (p : Page) (index k : Nat) (editor : Editor) (object : Nat) : Prop where
  editing : p.editingIndex = some index
  inlineInput : p.inlineInput = some k
  made : p.editors[k]? = some editor
  captured : editor.index = index
  pos : 0 < index
  isOpen : openOf p.log = some k
  owner : ownerOf k p.log = some object
  text : textOf k p.log = editor.value

/-- What the code has open is what is open. -/
def Closed (p : Page) : Prop := p.editingIndex = none ∧ openOf p.log = none

/-- The index of the open editor is that of its object, or no rule has it and the object is gone. -/
def Flushable (start : Nat → Option String) (p : Page) : Prop :=
  Closed p ∨ ∃ index k editor object, Owns p index k editor object ∧
    ((∃ rule, p.filters[index]? = some rule ∧ rule.id = object) ∨
      (p.filters[index]? = none ∧ addressesOf start p.log object = none))

section Commit

theorem write_eq (p : Page) (index : Nat) (original value : String) :
    p.write index original value = if value = "" then p.splice index
      else if value = original then p
      else p.assign index fun rule ↦ { rule with address := value } := rfl

variable {start : Nat → Option String} {p : Page} {index k object : Nat}

variable {text : String}

/-- What a commit does to the address of its rule. -/
theorem addressesOf_committed {log : List LogEvent} (howner : ownerOf k log = some object) :
    addressesOf start (.committed k text :: log) =
      update (addressesOf start log) object
        (landed text (addressesOf start log object)) := by
  show (match ownerOf k log with
    | none => addressesOf start log
    | some object => update (addressesOf start log) object
        (landed text (addressesOf start log object))) = _
  rw [howner]

theorem addressesOf_cancelled {log : List LogEvent} (howner : ownerOf k log = some object) :
    addressesOf start (.cancelled k :: log) = update (addressesOf start log) object
      ((addressesOf start log object).filter (· ≠ "")) := by
  show (match ownerOf k log with
    | none => addressesOf start log
    | some object => update (addressesOf start log) object
        ((addressesOf start log object).filter (· ≠ ""))) = _
  rw [howner]

/-- **The text of an editor is written into the rule of its row**, if the index is that of the
rule. -/
theorem Core.commit (h : Core start p) (hpos : 0 < index) (hopen : openOf p.log = some k)
    (howner : ownerOf k p.log = some object) (htext : text = trim (textOf k p.log))
    {rule : RuleObject} (hrule : p.filters[index]? = some rule) (hid : rule.id = object) :
    Core start (({ p with editingIndex := none }.record (.committed k text)).write index
      rule.address text) := by
  have haddress : addressesOf start p.log object = some rule.address := by
    rw [← h.addresses, ← hid]
    exact h.listed.lookup hrule
  have hnext : addressesOf start (.committed k text :: p.log) = _ := addressesOf_committed howner
  rw [haddress, ← h.addresses, ← hid] at hnext
  have hjustified : Justified (Grounds start) (.committed k text :: p.log) :=
    ⟨⟨hopen, htext⟩, h.justified⟩
  rw [write_eq]
  split
  · next hempty =>
    refine ⟨h.listed.eraseIdx hpos, ?_, hjustified, h.numbered⟩
    refine (Keyed.lookup_eraseIdx h.listed.nodup hrule).trans (Eq.trans ?_ hnext.symm)
    rw [landed, Option.bind_some, if_pos hempty]
    rfl
  · next hempty =>
    rw [landed, Option.bind_some, if_neg hempty] at hnext
    split
    · next hsame =>
      refine ⟨h.listed, Eq.trans ?_ hnext.symm, hjustified, h.numbered⟩
      rw [hsame, update_eq_self_iff.2 (h.listed.lookup hrule).symm]
      rfl
    · have hset : addressOf (p.filters.modify index fun rule ↦ { rule with address := text }) =
          update (addressOf p.filters) rule.id (some text) :=
        Keyed.lookup_modify (fun _ ↦ rfl) h.listed.nodup hrule
      exact ⟨h.listed.modify hpos fun _ ↦ rfl, hset.trans hnext.symm, hjustified, h.numbered⟩

/-- An editor whose rule is gone writes nothing. -/
theorem Core.commit_gone (h : Core start p) (hopen : openOf p.log = some k)
    (howner : ownerOf k p.log = some object) (htext : text = trim (textOf k p.log))
    (hgone : addressesOf start p.log object = none) :
    Core start ({ p with editingIndex := none }.record (.committed k text)) := by
  refine ⟨h.listed, h.addresses.trans ?_, ⟨⟨hopen, htext⟩, h.justified⟩, h.numbered⟩
  have hnext : addressesOf start (.committed k text :: p.log) = _ := addressesOf_committed howner
  rw [hgone] at hnext
  refine Eq.trans ?_ hnext.symm
  exact (update_eq_self_iff.2 hgone.symm).symm

theorem closed_write (hclosed : Closed p) (original text : String) :
    Closed (p.write index original text) := by
  rw [write_eq]
  split
  · exact hclosed
  · split <;> exact hclosed

/-- **The open edit is flushed into its rule.** -/
theorem Core.commitPendingEdit (h : Core start p) (hflush : Flushable start p) :
    Core start p.commitPendingEdit ∧ Closed p.commitPendingEdit := by
  rw [Page.commitPendingEdit]
  rcases hflush with hclosed | ⟨index, k, editor, object, howns, hat⟩
  · rw [hclosed.1]
    exact ⟨h, hclosed⟩
  · have hinput : (p.inlineInput.bind fun editor ↦ p.editors[editor]?.map (editor, ·.value)) =
        some (k, editor.value) := by
      rw [howns.inlineInput, Option.bind_some, howns.made]
      rfl
    have htext : trim editor.value = trim (textOf k p.log) := congrArg trim howns.text.symm
    rw [howns.editing]
    rw [hinput]
    rcases hat with ⟨rule, hrule, hid⟩ | ⟨hnone, hgone⟩
    · dsimp only
      rw [hrule]
      exact ⟨h.commit howns.pos howns.isOpen howns.owner htext hrule hid,
        closed_write ⟨rfl, rfl⟩ _ _⟩
    · dsimp only
      rw [hnone]
      exact ⟨h.commit_gone howns.isOpen howns.owner htext hgone, rfl, rfl⟩

end Commit

/-! ### The table -/

def Tr.isRow (tr : Tr) : Bool := tr.index?.isSome

/-- The table has the rows of the rules, in some order, and the first one first. -/
structure Tabled (filters : List RuleObject) (tbody : List Tr) : Prop where
  rows : (tbody.filter Tr.isRow).Perm (Page.rows filters)
  first : tbody.head? = (Page.rows filters).head?

/-- What holds between two events. -/
structure Settled (start : Nat → Option String) (p : Page) : Prop where
  core : Core start p
  editor : (Closed p ∧ p.inlineInput = none) ∨
    ∃ index k editor object, Owns p index k editor object ∧
      ∃ rule, p.filters[index]? = some rule ∧ rule.id = object ∧ rule.address = editor.original
  table : Tabled p.filters p.tbody
  drag : ∀ drag, p.dragState = some drag → drag.row ∈ p.tbody ∧ drag.row.isRow = true ∧
    drag.row.index? ≠ some 0 ∧ drag.placeholder.isRow = false
  dropdown : ∀ index field, p.openDropdown = some (index, field) → 0 < index

section Table

variable {start : Nat → Option String} {p : Page} {filters : List RuleObject}

theorem mem_rows {tr : Tr} : tr ∈ Page.rows filters ↔
    ∃ index rule, filters[index]? = some rule ∧ tr = .row index rule.address rule.id := by
  rw [Page.rows, List.mem_mapIdx]
  constructor
  · rintro ⟨index, hlt, rfl⟩
    exact ⟨index, _, List.getElem?_eq_getElem hlt, rfl⟩
  · rintro ⟨index, rule, hrule, rfl⟩
    obtain ⟨hlt, rfl⟩ := List.getElem?_eq_some_iff.1 hrule
    exact ⟨index, hlt, rfl⟩

theorem filter_rows : (Page.rows filters).filter Tr.isRow = Page.rows filters := by
  rw [List.filter_eq_self]
  intro tr htr
  obtain ⟨index, rule, -, rfl⟩ := mem_rows.1 htr
  rfl

/-- The row of an index shows the rule that has it. -/
theorem Settled.mem_tbody (h : Settled start p) {tr : Tr} (htr : tr ∈ p.tbody)
    (hrow : tr.isRow = true) :
    ∃ index rule, p.filters[index]? = some rule ∧ tr = .row index rule.address rule.id :=
  mem_rows.1 (h.table.rows.subset (List.mem_filter.2 ⟨htr, hrow⟩))

theorem Settled.rowAt (h : Settled start p) {index : Nat} {tr : Tr}
    (htr : p.rowAt index = some tr) :
    ∃ rule, p.filters[index]? = some rule ∧ tr = .row index rule.address rule.id := by
  have hindex : tr.index? = some index := by simpa using List.find?_some htr
  obtain ⟨i, rule, hrule, rfl⟩ := h.mem_tbody (List.mem_of_find?_eq_some htr)
    (by rw [Tr.isRow, hindex]; rfl)
  cases hindex
  exact ⟨rule, hrule, rfl⟩

theorem Core.ensureDefaultRule (h : Core start p) : p.ensureDefaultRule = p := if_pos h.listed.head

/-- **A table that is built again is in order**, if what was open could be flushed. -/
theorem Core.rebuild (h : Core start p) (hclosed : Closed p) : Settled start p.rebuild :=
  ⟨⟨h.listed, h.addresses, h.justified, h.numbered⟩, Or.inl ⟨hclosed, rfl⟩,
    ⟨by rw [Page.rebuild, filter_rows], rfl⟩, nofun, nofun⟩

theorem Core.renderFilters (h : Core start p) (hflush : Flushable start p) :
    Settled start p.renderFilters ∧ Closed p.renderFilters := by
  obtain ⟨hcore, hclosed⟩ := h.commitPendingEdit hflush
  rw [Page.renderFilters, h.ensureDefaultRule]
  exact ⟨hcore.rebuild hclosed, hclosed⟩

theorem Settled.flushable (h : Settled start p) : Flushable start p := by
  rcases h.editor with ⟨hclosed, -⟩ | ⟨index, k, editor, object, howns, rule, hrule, hid, -⟩
  · exact Or.inl hclosed
  · exact Or.inr ⟨index, k, editor, object, howns, Or.inl ⟨rule, hrule, hid⟩⟩

theorem Settled.closed (h : Settled start p) (hnone : p.editingIndex = none) :
    Closed p ∧ p.inlineInput = none := by
  rcases h.editor with hclosed | ⟨index, k, editor, object, howns, -⟩
  · exact hclosed
  · cases hnone.symm.trans howns.editing

/-- The open edit is committed before another thing is done to a row. -/
theorem Settled.commitOrCancelEditing (h : Settled start p) :
    Settled start p.commitOrCancelEditing ∧ Closed p.commitOrCancelEditing := by
  rw [Page.commitOrCancelEditing]
  split
  · next hnone => exact ⟨h, (h.closed hnone).1⟩
  · obtain ⟨hcore, hclosed⟩ := h.core.commitPendingEdit h.flushable
    exact hcore.renderFilters (Or.inl hclosed)

end Table

/-! ### The events -/

section Events

variable {start : Nat → Option String} {p : Page}

theorem indexOf_eq_some {object index : Nat} (h : p.indexOf object = some index) :
    ∃ rule, p.filters[index]? = some rule ∧ rule.id = object := by
  obtain ⟨hlt, hid, -⟩ := List.findIdx?_eq_some_iff_getElem.1 h
  exact ⟨p.filters[index], List.getElem?_eq_getElem hlt, of_decide_eq_true hid⟩

variable {rule : RuleObject}

/-- **An editor is opened in the row of its object.** -/
theorem Settled.openEditor (h : Settled start p) (hclosed : Closed p) {object index : Nat}
    (hrule : p.filters[index]? = some rule) (hid : rule.id = object) :
    Settled start (p.openEditor object index) := by
  rw [Page.openEditor]
  cases hrow : p.rowAt index with
  | none => exact h
  | some tr =>
    obtain ⟨shown, hshown, rfl⟩ := h.rowAt hrow
    obtain rfl := Option.mem_unique hrule hshown
    dsimp only
    split
    · exact h
    · next hne =>
      have haddress : addressesOf start p.log object = some rule.address := by
        rw [← h.core.addresses, ← hid]
        exact h.core.listed.lookup hrule
      refine ⟨⟨h.core.listed, h.core.addresses, ⟨⟨hclosed.2, ?_, haddress⟩, h.core.justified⟩,
        fun editor hle ↦ ?_⟩, Or.inr ⟨index, p.editors.length, ⟨index, rule.address, rule.address⟩,
        object, ⟨rfl, rfl, ?_, rfl, Nat.pos_of_ne_zero hne, rfl, if_pos rfl, if_pos rfl⟩, rule,
        hrule, hid, rfl⟩, h.table, h.drag, h.dropdown⟩
      · exact h.core.numbered _ le_rfl
      · rw [List.length_append, List.length_singleton] at hle
        exact (if_neg (by omega)).trans (h.core.numbered editor (by omega))
      · rw [List.getElem?_append_right le_rfl, Nat.sub_self]
        rfl

theorem Settled.startAddressEdit (h : Settled start p) {index : Nat}
    (hrule : p.filters[index]? = some rule) : Settled start (p.startAddressEdit index rule.id) := by
  obtain ⟨hsettled, hclosed⟩ := h.commitOrCancelEditing
  rw [Page.startAddressEdit]
  split
  · exact h
  · rw [hrule]
    dsimp only
    cases hindex : p.commitOrCancelEditing.indexOf rule.id with
    | none => exact hsettled
    | some live =>
      obtain ⟨found, hfound, hid⟩ := indexOf_eq_some hindex
      exact hsettled.openEditor hclosed hfound hid

/-- `commit`, of the editor that is open. -/
theorem Settled.commit (h : Settled start p) {k : Nat}
    (hown : ∀ editor, p.editors[k]? = some editor → p.editingIndex = some editor.index →
      p.inlineInput = some k) : Settled start (p.commit k) := by
  rw [Page.commit]
  cases hk : p.editors[k]? with
  | none => exact h
  | some made =>
    dsimp only
    split
    · next hediting =>
      rcases h.editor with ⟨hclosed, -⟩ |
        ⟨index, k', editor, object, howns, rule, hrule, hid, haddress⟩
      · cases hclosed.1.symm.trans hediting
      · obtain rfl := Option.some.inj (howns.inlineInput.symm.trans (hown made hk hediting))
        obtain rfl := Option.mem_unique howns.made hk
        obtain rfl := Option.mem_unique howns.editing hediting
        rw [← haddress]
        have hcore := h.core.commit howns.pos howns.isOpen howns.owner
          (congrArg trim howns.text.symm) hrule hid
        exact (hcore.renderFilters (Or.inl (closed_write ⟨rfl, rfl⟩ _ _))).1
    · exact h

/-- `cancel`, of the editor that is open. -/
theorem Settled.cancel (h : Settled start p) {k : Nat} (hk : p.inlineInput = some k) :
    Settled start (p.cancel k) := by
  rcases h.editor with ⟨-, hnone⟩ | ⟨index, k', editor, object, howns, rule, hrule, hid, haddress⟩
  · cases hnone.symm.trans hk
  · obtain rfl := Option.mem_unique howns.inlineInput hk
    have hediting : p.editingIndex = some editor.index := howns.captured ▸ howns.editing
    have hshown : addressesOf start p.log object = some rule.address := by
      rw [← h.core.addresses, ← hid]
      exact h.core.listed.lookup hrule
    have hnext : addressesOf start (.cancelled k' :: p.log) = _ := addressesOf_cancelled howns.owner
    rw [hshown, ← h.core.addresses, ← hid] at hnext
    have hjustified : Justified (Grounds start) (.cancelled k' :: p.log) :=
      ⟨howns.isOpen, h.core.justified⟩
    rw [Page.cancel, howns.made]
    dsimp only
    rw [if_pos hediting, howns.captured]
    split
    · next hempty =>
      have hgone : (some rule.address).filter (· ≠ "") = none := by
        rw [haddress, hempty]
        rfl
      rw [hgone] at hnext
      have herased : addressOf (p.filters.eraseIdx index) =
          update (addressOf p.filters) rule.id none :=
        Keyed.lookup_eraseIdx h.core.listed.nodup hrule
      have hcore : Core start
          (({ p with editingIndex := none }.record (.cancelled k')).splice index) :=
        ⟨h.core.listed.eraseIdx howns.pos, herased.trans hnext.symm, hjustified, h.core.numbered⟩
      exact (hcore.renderFilters (Or.inl ⟨rfl, rfl⟩)).1
    · next hfull =>
      have hstays : (some rule.address).filter (· ≠ "") = some rule.address := by
        rw [Option.filter_some, if_pos (by simpa [haddress] using hfull)]
      rw [hstays, update_eq_self_iff.2 (h.core.listed.lookup hrule).symm] at hnext
      have hcore : Core start ({ p with editingIndex := none }.record (.cancelled k')) :=
        ⟨h.core.listed, hnext.symm, hjustified, h.core.numbered⟩
      exact (hcore.renderFilters (Or.inl ⟨rfl, rfl⟩)).1

theorem Settled.typeText (h : Settled start p) (text : String) :
    Settled start (p.typeText text) := by
  rw [Page.typeText]
  rcases h.editor with ⟨-, hnone⟩ | ⟨index, k, editor, object, howns, hrule⟩
  · rw [hnone]
    exact h
  · rw [howns.inlineInput]
    refine ⟨⟨h.core.listed, h.core.addresses, ⟨howns.isOpen, h.core.justified⟩,
      fun editor hle ↦ ?_⟩, Or.inr ⟨index, k, { editor with value := text }, object,
      ⟨howns.editing, rfl, ?_, howns.captured, howns.pos, howns.isOpen, howns.owner, if_pos rfl⟩,
      hrule⟩, h.table, h.drag, h.dropdown⟩
    · rw [List.length_modify] at hle
      exact h.core.numbered editor hle
    · rw [List.getElem?_modify_eq, howns.made]
      rfl

/-- An open editor stays that of its rule where the list changes and the rule keeps its index. -/
theorem Owns.flushable {q : Page} {index k object : Nat} {editor : Editor}
    (h : Owns p index k editor object) (hediting : q.editingIndex = p.editingIndex)
    (hinput : q.inlineInput = p.inlineInput) (heditors : q.editors = p.editors)
    (hopen : openOf q.log = openOf p.log) (howner : ownerOf k q.log = ownerOf k p.log)
    (htext : textOf k q.log = textOf k p.log)
    (hat : (∃ rule, q.filters[index]? = some rule ∧ rule.id = object) ∨
      (q.filters[index]? = none ∧ addressesOf start q.log object = none)) : Flushable start q :=
  Or.inr ⟨index, k, editor, object, ⟨hediting.trans h.editing, hinput.trans h.inlineInput,
    (congrArg (·[k]?) heditors).trans h.made, h.captured, h.pos, hopen.trans h.isOpen,
    howner.trans h.owner, htext.trans h.text⟩, hat⟩

/-- **The rule whose delete button is clicked is removed**, and no row above that of the open editor
is. -/
theorem Settled.deleteRule (h : Settled start p) {index : Nat}
    (hrule : p.filters[index]? = some rule) (hpos : 0 < index)
    (hbelow : ∀ e, p.editingIndex = some e →
      e < index ∨ (e = index ∧ index + 1 = p.filters.length)) :
    Settled start ((p.record (.deleted rule.id)).deleteRule index) := by
  have herased : addressOf (p.filters.eraseIdx index) =
      update (addressOf p.filters) rule.id none :=
    Keyed.lookup_eraseIdx h.core.listed.nodup hrule
  have hhere : (addressesOf start p.log rule.id).isSome := by
    rw [← h.core.addresses, h.core.listed.lookup hrule]
    rfl
  have hnext : addressOf (p.filters.eraseIdx index) =
      addressesOf start (.deleted rule.id :: p.log) := by
    rw [herased, h.core.addresses]
    rfl
  have hcore : Core start ((p.record (.deleted rule.id)).splice index) :=
    ⟨h.core.listed.eraseIdx hpos, hnext, ⟨hhere, h.core.justified⟩, h.core.numbered⟩
  rw [Page.deleteRule, if_neg (Nat.ne_of_gt hpos)]
  refine (hcore.renderFilters ?_).1
  rcases h.editor with ⟨hclosed, -⟩ | ⟨e, k, editor, object, howns, shown, hshown, hid, -⟩
  · exact Or.inl hclosed
  · refine howns.flushable rfl rfl rfl rfl rfl rfl ?_
    rcases hbelow e howns.editing with hlt | ⟨rfl, hlast⟩
    · exact Or.inl ⟨shown, (List.getElem?_eraseIdx_of_lt hlt).trans hshown, hid⟩
    · have hnone : (p.filters.eraseIdx e)[e]? = none := by
        rw [List.getElem?_eraseIdx_of_ge le_rfl, List.getElem?_eq_none_iff]
        omega
      refine Or.inr ⟨hnone, ?_⟩
      obtain rfl := Option.mem_unique hshown hrule
      rw [← hid]
      exact Function.update_self _ _ _

theorem Settled.choose (h : Settled start p) (choice : Choice) :
    Settled start (p.choose choice) := by
  have hassign {index : Nat} (hpos : 0 < index) (f : RuleObject → RuleObject)
      (hid : ∀ rule, (f rule).id = rule.id) (haddress : ∀ rule, (f rule).address = rule.address) :
      Settled start ((p.assign index f).renderFilters) := by
    have hsame : addressOf (p.filters.modify index f) = addressOf p.filters :=
      Keyed.lookup_modify_of_eq hid haddress _ _
    have hcore : Core start (p.assign index f) :=
      ⟨h.core.listed.modify hpos hid, hsame.trans h.core.addresses, h.core.justified,
        h.core.numbered⟩
    refine (hcore.renderFilters ?_).1
    rcases h.editor with ⟨hclosed, -⟩ | ⟨e, k, editor, object, howns, shown, hshown, hobject, -⟩
    · exact Or.inl hclosed
    · refine howns.flushable rfl rfl rfl rfl rfl rfl (Or.inl ?_)
      rw [Page.assign]
      by_cases heq : index = e
      · rw [heq, List.getElem?_modify_eq, hshown]
        exact ⟨f shown, rfl, (hid shown).trans hobject⟩
      · rw [List.getElem?_modify_ne _ _ heq]
        exact ⟨shown, hshown, hobject⟩
  rw [Page.choose]
  rcases hopen : p.openDropdown with - | ⟨index, field⟩
  · exact h
  · have hpos := h.dropdown index field hopen
    cases field with
    | matching =>
      cases choice with
      | matching value =>
        exact hassign hpos (fun rule ↦ { rule with matching := value }) (fun _ ↦ rfl) fun _ ↦ rfl
      | action value => exact h
    | action =>
      cases choice with
      | matching value => exact h
      | action value =>
        exact hassign hpos (fun rule ↦ { rule with action := value }) (fun _ ↦ rfl) fun _ ↦ rfl

theorem tbody_renderFilters (p : Page) :
    p.renderFilters.tbody = Page.rows p.renderFilters.filters := rfl

/-- A new rule has no address yet. -/
theorem Settled.push (h : Settled start p) {rule : FilterRule} (hempty : rule.address = "") :
    Settled start (p.push rule).renderFilters := by
  have hfresh : addressesOf start p.log p.fresh = none :=
    h.core.addresses ▸ h.core.listed.lookup_fresh
  have hnew : addressOf (p.filters ++ [p.alloc rule]) =
      update (addressOf p.filters) p.fresh (some rule.address) :=
    Keyed.lookup_concat h.core.listed.nodup (Keyed.lookup_eq_none.1 h.core.listed.lookup_fresh)
  have hnext : addressOf (p.filters ++ [p.alloc rule]) =
      addressesOf start (.added p.fresh :: p.log) := by
    rw [hnew, h.core.addresses, hempty]
    rfl
  have hcore : Core start (p.push rule) :=
    ⟨h.core.listed.concat rfl, hnext, ⟨hfresh, h.core.justified⟩, fun editor hle ↦
      h.core.numbered editor hle⟩
  refine (hcore.renderFilters ?_).1
  rcases h.editor with ⟨hclosed, -⟩ | ⟨e, k, editor, object, howns, shown, hshown, hid, -⟩
  · exact Or.inl hclosed
  · refine howns.flushable rfl rfl rfl rfl rfl rfl (Or.inl ⟨shown, ?_, hid⟩)
    exact (List.getElem?_append_left (List.getElem?_eq_some_iff.1 hshown).1).trans hshown

theorem Settled.addRule (h : Settled start p) : Settled start p.addRule := by
  have hadded : Settled start (p.push ⟨"", .wildcard, .proxy⟩).renderFilters := h.push rfl
  have htable := tbody_renderFilters (p.push ⟨"", .wildcard, .proxy⟩)
  rw [Page.addRule, h.core.ensureDefaultRule]
  generalize (p.push ⟨"", .wildcard, .proxy⟩).renderFilters = added at hadded htable ⊢
  cases hlast : added.tbody.getLast? with
  | none => exact hadded
  | some tr =>
    rw [htable, Page.rows, List.getLast?_eq_getElem?, List.getElem?_mapIdx,
      List.length_mapIdx] at hlast
    obtain ⟨rule, hrule, rfl⟩ := Option.map_eq_some_iff.1 hlast
    dsimp only
    split
    · exact hadded
    · exact hadded.startAddressEdit hrule

end Events

/-! ### The drag -/

section Drag

variable {filters : List RuleObject} {tbody : List Tr} {row placeholder : Tr}

theorem nodup_rows (filters : List RuleObject) : (Page.rows filters).Nodup := by
  refine List.Nodup.of_map Tr.index? ?_
  have hmap : (Page.rows filters).map Tr.index? = (List.range filters.length).map some := by
    refine List.ext_getElem? fun i ↦ ?_
    rw [List.getElem?_map, Page.rows, List.getElem?_mapIdx, Option.map_map, List.getElem?_map]
    by_cases hlt : i < filters.length
    · rw [List.getElem?_eq_getElem hlt, List.getElem?_range hlt]
      rfl
    · rw [List.getElem?_eq_none (Nat.le_of_not_lt hlt), List.getElem?_eq_none (by simpa using hlt)]
      rfl
  rw [hmap]
  exact List.nodup_range.map fun _ _ ↦ Option.some.inj

/-- The first child is the row of the first rule, and no other child is. -/
theorem Tabled.head (h : Tabled filters tbody) {fresh : Nat} (hlisted : Listed fresh filters) :
    ∃ first rest, tbody = first :: rest ∧ first.index? = some 0 ∧ first ∉ rest := by
  obtain ⟨rule, hrule, -⟩ := Option.map_eq_some_iff.1 hlisted.head
  cases filters with
  | nil => cases hrule
  | cons rule' rules =>
    have hfirst := h.first
    have hrows := h.rows
    rw [Page.rows, List.mapIdx_cons, List.head?_cons] at hfirst
    cases tbody with
    | nil => cases hfirst
    | cons first rest =>
      cases hfirst
      refine ⟨_, rest, rfl, rfl, fun hmem ↦ ?_⟩
      have hnodup := hrows.nodup_iff.2 (nodup_rows _)
      rw [List.filter_cons_of_pos rfl] at hnodup
      exact (List.nodup_cons.1 hnodup).1 (List.mem_filter.2 ⟨hmem, rfl⟩)

/-- A row that is lifted stays in the table, at its end, and the first one stays first. -/
theorem Tabled.lift (h : Tabled filters tbody) {fresh : Nat} (hlisted : Listed fresh filters)
    (hrow : row ∈ tbody) (hisRow : row.isRow = true) (hindex : row.index? ≠ some 0)
    (hplaceholder : placeholder.isRow = false) {ref : Option Tr}
    (href : ref ≠ tbody.head?) :
    Tabled filters (Siblings.appendChild row (Siblings.insertBefore placeholder ref tbody)) ∧
      row ∈ Siblings.appendChild row (Siblings.insertBefore placeholder ref tbody) := by
  obtain ⟨first, rest, hcons, hzero, -⟩ := h.head hlisted
  have hhead : tbody.head? = some first := by rw [hcons]; rfl
  have hne : first ≠ placeholder := by
    rintro rfl
    rw [Tr.isRow, hzero] at hplaceholder
    cases hplaceholder
  have hmoved : row ∈ Siblings.insertBefore placeholder ref tbody := by
    have hkept : row ∈ tbody.filter Tr.isRow := List.mem_filter.2 ⟨hrow, hisRow⟩
    have hperm := Siblings.filter_insertBefore hplaceholder ref tbody
    exact (List.mem_filter.1 (hperm.symm.subset hkept)).1
  have hlast := Siblings.insertBefore_perm hmoved none
  refine ⟨⟨?_, ?_⟩, hlast.symm.subset hmoved⟩
  · exact (hlast.filter _).trans
      ((Siblings.filter_insertBefore hplaceholder ref tbody).trans h.rows)
  · rw [← h.first, hhead]
    have hrowNe : first ≠ row := by
      rintro rfl
      exact hindex hzero
    have hfirst : (Siblings.insertBefore placeholder ref tbody).head? = some first :=
      Siblings.head?_insertBefore hhead hne (hhead ▸ href)
    have hnone : (none : Option Tr) ≠ some first := nofun
    exact Siblings.head?_insertBefore hfirst hrowNe hnone

/-- A placeholder is never put before the first row. -/
theorem dropTarget_ne {p : Page} (h : Tabled filters p.tbody) {fresh : Nat}
    (hlisted : Listed fresh filters) {drag : DragState} (hindex : drag.row.index? ≠ some 0)
    (hplaceholder : drag.placeholder.isRow = false) (target : Nat) :
    p.dropTarget drag target ≠ p.tbody.head? := by
  obtain ⟨first, rest, hcons, hzero, hnot⟩ := h.head hlisted
  have hkept : (first ≠ drag.row ∧ first ≠ drag.placeholder) := by
    refine ⟨?_, ?_⟩
    · rintro rfl
      exact hindex hzero
    · intro heq
      rw [← heq, Tr.isRow, hzero] at hplaceholder
      cases hplaceholder
  have hnext {tr : Tr} : Siblings.nextSibling tr p.tbody ≠ some first := by
    intro heq
    have hmem := Siblings.mem_tail_of_nextSibling heq
    rw [hcons] at hmem
    exact hnot hmem
  have hhead : (p.tbody.filter fun tr ↦ tr ≠ drag.row ∧ tr ≠ drag.placeholder).head? =
      some first := by
    rw [hcons, List.filter_cons, if_pos (decide_eq_true hkept)]
    rfl
  have hfirst : p.tbody.head? = some first := by rw [hcons]; rfl
  rw [Page.dropTarget, hhead, hfirst]
  dsimp only
  split
  · split
    · exact hnext
    · exact hnext
  · next hother => exact fun heq ↦ hother ⟨hzero, heq⟩

/-- The rows in their new order, which the first one starts. -/
theorem Tabled.dropped {p : Page} (h : Tabled filters p.tbody) {fresh : Nat}
    (hlisted : Listed fresh filters) {drag : DragState} (hrow : drag.row ∈ p.tbody)
    (hindex : drag.row.index? ≠ some 0) (hplaceholder : drag.placeholder.isRow = false) :
    Tabled filters (p.dropped drag) := by
  obtain ⟨first, rest, hcons, hzero, -⟩ := h.head hlisted
  have hhead : p.tbody.head? = some first := by rw [hcons]; rfl
  have hrowNe : first ≠ drag.row := by
    rintro rfl
    exact hindex hzero
  have hne : first ≠ drag.placeholder := by
    intro heq
    rw [← heq, Tr.isRow, hzero] at hplaceholder
    cases hplaceholder
  refine ⟨?_, ?_⟩
  · rw [Page.dropped, Siblings.filter_erase hplaceholder]
    exact ((Siblings.insertBefore_perm hrow _).filter _).trans h.rows
  · rw [← h.first, hhead]
    exact Siblings.head?_erase (Siblings.head?_insertBefore hhead hrowNe
      fun heq ↦ hne (Option.some.inj heq).symm) hne

/-- The rules of rows. -/
def rulesOf (filters : List RuleObject) (tr : Tr) : Option RuleObject :=
  tr.index?.bind (filters[·]?)

theorem filterMap_rows (filters : List RuleObject) :
    (Page.rows filters).filterMap (rulesOf filters) = filters := by
  have hmap : (Page.rows filters).map (rulesOf filters) = filters.map some := by
    refine List.ext_getElem? fun i ↦ ?_
    rw [List.getElem?_map, Page.rows, List.getElem?_mapIdx, Option.map_map, List.getElem?_map]
    cases hrule : filters[i]? with
    | none => rfl
    | some rule => exact congrArg some hrule
  calc (Page.rows filters).filterMap (rulesOf filters)
      = ((Page.rows filters).map (rulesOf filters)).filterMap id := by
        rw [List.filterMap_map]
        rfl
    _ = (filters.map some).filterMap id := by rw [hmap]
    _ = filters := by rw [List.filterMap_map]; exact List.filterMap_some

/-- **A drag moves the rules as it moved the rows**, and the first one stays. -/
theorem Tabled.reordered (h : Tabled filters tbody) :
    (tbody.filterMap (rulesOf filters)).Perm filters ∧
      (tbody.filterMap (rulesOf filters)).head? = filters.head? := by
  have hrows : (tbody.filter Tr.isRow).filterMap (rulesOf filters) =
      tbody.filterMap (rulesOf filters) := by
    rw [List.filterMap_filter]
    refine List.filterMap_congr fun tr _ ↦ ?_
    cases tr <;> rfl
  have hperm := h.rows.filterMap (rulesOf filters)
  rw [hrows, filterMap_rows] at hperm
  refine ⟨hperm, ?_⟩
  have hfirst := h.first
  cases filters with
  | nil =>
    rw [List.perm_nil.1 hperm]
  | cons rule rules =>
    rw [Page.rows, List.mapIdx_cons, List.head?_cons] at hfirst
    cases tbody with
    | nil => cases hfirst
    | cons first rest =>
      cases hfirst
      rfl

/-- A rule whose row kept its place keeps its own. -/
theorem getElem?_filterMap {l : List Nat} (hl : ∀ i ∈ l, i < filters.length) (n : Nat) :
    (l.filterMap (filters[·]?))[n]? = l[n]?.bind (filters[·]?) := by
  induction l generalizing n with
  | nil => rfl
  | cons i l ih =>
    obtain ⟨hi, hl⟩ := List.forall_mem_cons.1 hl
    have hsome : filters[i]? = some filters[i] := List.getElem?_eq_getElem hi
    rw [List.filterMap_cons_some hsome]
    cases n with
    | zero => exact hsome.symm
    | succ n => exact ih hl n

theorem Tabled.index_lt (h : Tabled filters tbody) {index : Nat}
    (hindex : index ∈ tbody.filterMap Tr.index?) : index < filters.length := by
  obtain ⟨tr, htr, heq⟩ := List.mem_filterMap.1 hindex
  have hrow : tr.isRow = true := by rw [Tr.isRow, heq]; rfl
  obtain ⟨i, rule, hrule, rfl⟩ := mem_rows.1 (h.rows.subset (List.mem_filter.2 ⟨htr, hrow⟩))
  cases heq
  exact (List.getElem?_eq_some_iff.1 hrule).1

variable {start : Nat → Option String} {p : Page}

/-- What is open does not change as children of the table are moved. -/
theorem Settled.moved (h : Settled start p) {drag : Option DragState}
    {dropdown : Option (Nat × Field)} (placeholders : Nat) (htable : Tabled p.filters tbody)
    (hdrag : ∀ d, drag = some d → d.row ∈ tbody ∧ d.row.isRow = true ∧ d.row.index? ≠ some 0 ∧
      d.placeholder.isRow = false)
    (hdropdown : ∀ index field, dropdown = some (index, field) → 0 < index) :
    Settled start { p with tbody := tbody
                           openDropdown := dropdown
                           dragState := drag
                           placeholders := placeholders } := by
  obtain ⟨hlisted, haddresses, hjustified, hnumbered⟩ := h.core
  refine ⟨⟨hlisted, haddresses, hjustified, hnumbered⟩, ?_, htable, hdrag, hdropdown⟩
  rcases h.editor with hclosed | ⟨index, k, editor, object, howns, hrule⟩
  · exact Or.inl hclosed
  · exact Or.inr ⟨index, k, editor, object, ⟨howns.editing, howns.inlineInput, howns.made,
      howns.captured, howns.pos, howns.isOpen, howns.owner, howns.text⟩, hrule⟩

theorem Settled.startDrag (h : Settled start p) (hrow : row ∈ p.tbody) (hisRow : row.isRow = true)
    (hindex : row.index? ≠ some 0) : Settled start (p.startDrag row) := by
  have href : some row ≠ p.tbody.head? := by
    obtain ⟨first, rest, hcons, hzero, -⟩ := h.table.head h.core.listed
    rw [hcons]
    intro heq
    cases heq
    exact hindex hzero
  have hplaceholder : (Tr.placeholder p.placeholders).isRow = false := rfl
  obtain ⟨htable, hmem⟩ := h.table.lift h.core.listed hrow hisRow hindex hplaceholder href
  refine h.moved _ htable (fun drag hdrag ↦ ?_) nofun
  cases hdrag
  exact ⟨hmem, hisRow, hindex, hplaceholder⟩

theorem Settled.onTbodyPointerDown (h : Settled start p) (index : Nat) :
    Settled start (p.onTbodyPointerDown index) := by
  have hcommitted := h.commitOrCancelEditing.1
  rw [Page.onTbodyPointerDown]
  split
  · exact h
  · generalize p.commitOrCancelEditing = committed at hcommitted ⊢
    cases p.filters[index]? with
    | none => exact hcommitted
    | some rule =>
      dsimp only
      rcases committed.indexOf rule.id with - | - | live
      · exact hcommitted
      · exact hcommitted
      · dsimp only
        cases hrow : committed.rowAt (live + 1) with
        | none => exact hcommitted
        | some row =>
          obtain ⟨shown, -, heq⟩ := hcommitted.rowAt hrow
          refine hcommitted.startDrag (List.mem_of_find?_eq_some hrow) ?_ ?_
          · rw [heq]
            rfl
          · rw [heq]
            exact fun hzero ↦ nomatch Option.some.inj hzero

theorem Settled.onDragMove (h : Settled start p) (target : Nat) :
    Settled start (p.onDragMove target) := by
  rw [Page.onDragMove]
  rcases hdrag : p.dragState with - | drag
  · exact h
  · obtain ⟨hrow, hisRow, hindex, hplaceholder⟩ := h.drag drag hdrag
    obtain ⟨htable, hmem⟩ := h.table.lift h.core.listed hrow hisRow hindex hplaceholder
      (dropTarget_ne h.table h.core.listed hindex hplaceholder target)
    dsimp only
    split
    · exact h
    · refine h.moved _ htable (fun d hd ↦ ?_) h.dropdown
      cases hd
      exact ⟨hmem, hisRow, hindex, hplaceholder⟩

/-- **The end of a drag keeps the addresses**, and the open editor if its row kept its place. -/
theorem Settled.onDragEnd (h : Settled start p)
    (hplace : ∀ drag, p.dragState = some drag → ∀ e, p.editingIndex = some e →
      ((p.dropped drag).filterMap Tr.index?)[e]? = some e) : Settled start p.onDragEnd := by
  rw [Page.onDragEnd]
  rcases hdrag : p.dragState with - | drag
  · exact h
  · obtain ⟨hrow, -, hindex, hplaceholder⟩ := h.drag drag hdrag
    have htable := h.table.dropped h.core.listed hrow hindex hplaceholder
    obtain ⟨hperm, hhead⟩ := htable.reordered
    have hsame : addressOf ((p.dropped drag).filterMap (rulesOf p.filters)) = addressOf p.filters :=
      (Keyed.lookup_perm h.core.listed.nodup hperm.symm).symm
    have hcore : Core start { p with filters := (p.dropped drag).filterMap (rulesOf p.filters)
                                     tbody := p.dropped drag
                                     dragState := none } :=
      ⟨h.core.listed.perm hperm hhead, hsame.trans h.core.addresses, h.core.justified,
        h.core.numbered⟩
    refine (hcore.renderFilters ?_).1
    rcases h.editor with ⟨hclosed, -⟩ | ⟨e, k, editor, object, howns, shown, hshown, hid, -⟩
    · exact Or.inl hclosed
    · refine howns.flushable rfl rfl rfl rfl rfl rfl (Or.inl ⟨shown, ?_, hid⟩)
      have hindices : (p.dropped drag).filterMap (rulesOf p.filters) =
          ((p.dropped drag).filterMap Tr.index?).filterMap (p.filters[·]?) :=
        List.filterMap_filterMap.symm
      rw [hindices, getElem?_filterMap (fun i ↦ htable.index_lt), hplace drag hdrag e howns.editing]
      exact hshown

end Drag

/-! ### The runs -/

/-- Where the code's index of the open editor stays that of its rule, and that of an editor whose
timer fires is its own: no rule above the open editor's is deleted, nor its own unless it is the
last one; a drag leaves its row in its place; and the timer of an editor that is not open finds no
other editor at its index. -/
def Allowed (p : Page) : Event → Prop
  | .clickDelete index => ∀ e, p.editingIndex = some e →
      e < index ∨ (e = index ∧ index + 1 = p.filters.length)
  | .blurCommit k => ∀ editor, p.editors[k]? = some editor →
      p.editingIndex = some editor.index → p.inlineInput = some k
  | .dragEnd => ∀ drag, p.dragState = some drag → ∀ e, p.editingIndex = some e →
      ((p.dropped drag).filterMap Tr.index?)[e]? = some e
  | .clickAddress _ | .typeText _ | .enter | .escape | .addRule | .toggleDropdown _ _
  | .closeDropdown | .choose _ | .pointerDown _ | .dragMove _ | .render => True

/-- Every event of a run is allowed. -/
def AllAllowed (p : Page) : List Event → Prop
  | [] => True
  | e :: events => Allowed p e ∧ AllAllowed (p.on e) events

/-- **An address edit lands on the rule that was opened, and on no other.** -/
structure Landed (start : Nat → Option String) (p : Page) : Prop where
  default : p.filters.head?.map RuleObject.toFilterRule = some defaultRule
  nodup : (p.filters.map RuleObject.id).Nodup
  addresses : addressOf p.filters = addressesOf start p.log
  justified : Justified (Grounds start) p.log
  /-- Every other editor has ended. -/
  isOpen : openOf p.log = p.inlineInput

section Runs

variable {start : Nat → Option String} {p : Page}

theorem Settled.landed (h : Settled start p) : Landed start p := by
  refine ⟨h.core.listed.head, h.core.listed.nodup, h.core.addresses, h.core.justified, ?_⟩
  rcases h.editor with ⟨hclosed, hnone⟩ | ⟨index, k, editor, object, howns, -⟩
  · exact hclosed.2.trans hnone.symm
  · exact howns.isOpen.trans howns.inlineInput.symm

/-- **What an event keeps.** -/
theorem Settled.on (h : Settled start p) {e : Event} (hallowed : Allowed p e) :
    Settled start (p.on e) := by
  cases e with
  | clickAddress index =>
    rw [Page.on]
    cases hrow : p.rowAt index with
    | none => exact h
    | some tr =>
      obtain ⟨rule, hrule, rfl⟩ := h.rowAt hrow
      dsimp only
      split
      · exact h
      · exact h.startAddressEdit hrule
  | typeText text => exact h.typeText text
  | enter =>
    rw [Page.on]
    cases hinput : p.inlineInput with
    | none => exact h
    | some k => exact h.commit fun _ _ _ ↦ hinput
  | escape =>
    rw [Page.on]
    cases hinput : p.inlineInput with
    | none => exact h
    | some k => exact h.cancel hinput
  | blurCommit k => exact h.commit hallowed
  | clickDelete index =>
    rw [Page.on]
    cases hrow : p.rowAt index with
    | none => exact h
    | some tr =>
      obtain ⟨rule, hrule, rfl⟩ := h.rowAt hrow
      dsimp only
      split
      · exact h
      · next hne => exact h.deleteRule hrule (Nat.pos_of_ne_zero hne) hallowed
  | addRule => exact h.addRule
  | toggleDropdown index field =>
    rw [Page.on]
    cases hrow : p.rowAt index with
    | none => exact h
    | some tr =>
      obtain ⟨rule, hrule, rfl⟩ := h.rowAt hrow
      dsimp only
      split
      · exact h
      · next hne =>
        refine h.moved p.placeholders h.table h.drag fun i f hopen ↦ ?_
        split at hopen
        · cases hopen
        · rw [← (Prod.mk.inj (Option.some.inj hopen)).1]
          exact Nat.pos_of_ne_zero hne
  | closeDropdown => exact h.moved p.placeholders h.table h.drag nofun
  | choose choice => exact h.choose choice
  | pointerDown index =>
    rw [Page.on]
    split
    · exact h.onTbodyPointerDown index
    · exact h
  | dragMove target => exact h.onDragMove target
  | dragEnd => exact h.onDragEnd hallowed
  | render => exact (h.core.renderFilters h.flushable).1

theorem Settled.run {events : List Event} (h : Settled start p) (hallowed : AllAllowed p events) :
    Settled start (p.run events) := by
  induction events generalizing p with
  | nil => exact h
  | cons e events ih => exact ih (h.on hallowed.1) hallowed.2

theorem map_id_raw (rules : List FilterRule) :
    (Page.raw rules).filters.map RuleObject.id = List.range rules.length := by
  refine List.ext_getElem? fun i ↦ ?_
  rw [Page.raw, List.getElem?_map, List.getElem?_mapIdx, Option.map_map]
  by_cases hlt : i < rules.length
  · rw [List.getElem?_eq_getElem hlt, List.getElem?_range hlt]
    rfl
  · rw [List.getElem?_eq_none (Nat.le_of_not_lt hlt), List.getElem?_eq_none (by simpa using hlt)]
    rfl

theorem listed_ensureDefaultRule (rules : List FilterRule) :
    Listed (Page.raw rules).ensureDefaultRule.fresh (Page.raw rules).ensureDefaultRule.filters := by
  have hids := map_id_raw rules
  have hfresh (object : RuleObject) (hobject : object ∈ (Page.raw rules).filters) :
      object.id < rules.length := by
    have hmem := List.mem_map_of_mem (f := RuleObject.id) hobject
    rw [hids] at hmem
    exact List.mem_range.1 hmem
  have hnodup : ((Page.raw rules).filters.map RuleObject.id).Nodup := hids ▸ List.nodup_range
  rw [Page.ensureDefaultRule]
  split
  · next hhead => exact ⟨hhead, hnodup, hfresh⟩
  · refine ⟨rfl, List.nodup_cons.2 ⟨?_, hnodup⟩, List.forall_mem_cons.2
      ⟨Nat.lt_succ_self _, fun object hobject ↦ Nat.lt_succ_of_lt (hfresh object hobject)⟩⟩
    rw [hids, List.mem_range]
    exact Nat.lt_irrefl _

theorem untouched_ensureDefaultRule (p : Page) : p.ensureDefaultRule.editingIndex = p.editingIndex ∧
    p.ensureDefaultRule.log = p.log := by
  rw [Page.ensureDefaultRule]
  split <;> exact ⟨rfl, rfl⟩

theorem settled_init (rules : List FilterRule) :
    Settled (addressOf (Page.init rules).filters) (Page.init rules) := by
  obtain ⟨hediting, hlog⟩ := untouched_ensureDefaultRule (Page.raw rules)
  have hflushed : (Page.raw rules).ensureDefaultRule.commitPendingEdit =
      (Page.raw rules).ensureDefaultRule := by
    rw [Page.commitPendingEdit, hediting]
    rfl
  have hinit : Page.init rules = (Page.raw rules).ensureDefaultRule.rebuild := by
    rw [Page.init, Page.renderFilters, hflushed]
  rw [hinit]
  refine Core.rebuild ⟨listed_ensureDefaultRule rules, ?_, ?_, fun editor _ ↦ ?_⟩ ⟨hediting, ?_⟩
  · rw [hlog]
    rfl
  · rw [hlog]
    trivial
  · rw [hlog]
    rfl
  · rw [hlog]
    rfl

/-- **In every run whose events are allowed an address edit lands on the rule that was opened, and
on no other**, from any list of rules. -/
theorem edits_land (rules : List FilterRule) (events : List Event)
    (hallowed : AllAllowed (Page.init rules) events) :
    Landed (addressOf (Page.init rules).filters) ((Page.init rules).run events) :=
  ((settled_init rules).run hallowed).landed

end Runs

def sampleRules : List FilterRule :=
  ["a.example", "b.example", "c.example"].map (⟨·, .exactly, .block⟩)

/-- A rule is edited, and the one below it is deleted as the editor is open. -/
theorem edits_land_sample : Landed (addressOf (Page.init sampleRules).filters)
    ((Page.init sampleRules).run [.clickAddress 2, .typeText "x.example", .clickDelete 3]) := by
  refine edits_land sampleRules _ ⟨trivial, trivial, ?_, trivial⟩
  intro e he
  cases he
  exact Or.inl (by decide)

/-- The one above is deleted: the text lands on the rule below. -/
theorem not_landed_sample : ¬∀ rules events,
    Landed (addressOf (Page.init rules).filters) ((Page.init rules).run events) := by
  intro h
  have haddress := congrFun (h sampleRules
    [.clickAddress 2, .typeText "x.example", .clickDelete 1]).addresses 2
  exact absurd haddress (by decide)

/-- A row is dragged past that of the editor: the text lands on the rule that was dragged. -/
example : (addressOf ((Page.init sampleRules).run [.pointerDown 1, .clickAddress 2,
    .typeText "x.example", .dragMove 2, .dragEnd]).filters) 0 = some "x.example" := by decide

/-- The timer of an editor that ended ends the one that is open at its index, whose text is lost. -/
example : (addressOf ((Page.init sampleRules).run [.clickAddress 1, .typeText "x.example",
    .clickAddress 2, .clickAddress 1, .typeText "y.example", .blurCommit 0, .render]).filters) 0 =
      some "x.example" := by decide

end Hole.Gui.AddressEdit
