import Hole.Gui.PowerButton

/-!
# The button follows the cell

What holds of the button and the cell after any run (`Inv`), and what it gives: a button on the
wrong side is one observation from the right one.
-/

namespace Hole.Gui

open ProxyStateCell
open Function (update update_of_ne update_self)

/-! ### Sides -/

/-- Unless the cell is on this side, it is ahead of what was applied. -/
def Due (applied : Int) (cell : ProxyStateCell) (on : Bool) : Prop :=
  on ≠ cell.snap.running → applied < cell.snap.seq

theorem Due.advances {applied : Int} {cell c : ProxyStateCell} {on : Bool}
    (h : Due applied cell on) (hle : applied ≤ cell.snap.seq) (hadvances : Advances cell c) :
    Due applied c on := by
  intro hne
  by_cases hsame : c.snap.running = cell.snap.running
  · have hlt := h (hsame ▸ hne)
    have hseq := hadvances.seq_le
    omega
  · have hseq := hadvances.seq_lt hsame
    omega

theorem due_running (applied : Int) (cell : ProxyStateCell) : Due applied cell cell.snap.running :=
  fun hne ↦ absurd rfl hne

namespace ConnectionState

theorem leansOn_of_idle {state : ConnectionState} (h : state ∈ idleStates) :
    state.leansOn = state.isEffectivelyOn := by
  revert h
  cases state <;> decide

theorem leansOn_forToggleOutcome (o : ToggleOutcome) :
    (forToggleOutcome o).leansOn = decide (o = .running) := by
  cases o <;> rfl

theorem leansOn_forPolledRunning (running : Bool) :
    (forPolledRunning running).leansOn = running := by
  cases running <;> rfl

end ConnectionState

theorem World.step_observe (w : World) (s : ProxySnapshot) :
    w.step (.observe s) = if s ∈ w.cell.published then
      { w with button := w.button.applyProxyStateObservation s.seq s.running s.error } else w := rfl

/-! ### Operations -/

/-- The states that an operation is in while it awaits. -/
def Awaits.Owns : Awaits → ConnectionState → Prop
  | .toggle true, state => state = .connecting ∨ state = .cancelling
  | .toggle false, state => state = .disconnecting
  | .followUp, state => state = .disconnecting
  | .mark, _ => True

/-- What an operation awaits in an idle state writes no state. -/
theorem Awaits.Owns.of_idle {awaits : Awaits} {state : ConnectionState} (h : awaits.Owns state)
    (hidle : state ∈ ConnectionState.idleStates) : awaits = .mark := by
  cases awaits with
  | toggle goingToConnect =>
    cases goingToConnect with
    | true => rcases h with rfl | rfl <;> exact absurd hidle (by decide)
    | false =>
      obtain rfl := h
      exact absurd hidle (by decide)
  | followUp =>
    obtain rfl := h
    exact absurd hidle (by decide)
  | mark => rfl

/-- The deaths that were shown. -/
def Toast.death? : Toast → Option (Nat × String)
  | .death seq reason => some (seq, reason)
  | .message _ => none

def PowerButton.deaths (b : PowerButton) : List (Nat × String) := b.toasts.filterMap Toast.death?

@[simp] theorem deaths_showToast_message (b : PowerButton) (text : String) :
    (b.showToast (.message text)).deaths = b.deaths := by
  rw [PowerButton.deaths, PowerButton.showToast, List.filterMap_append]
  exact List.append_nil _

theorem deaths_showToast_death (b : PowerButton) (seq : Nat) (reason : String) :
    (b.showToast (.death seq reason)).deaths = b.deaths ++ [(seq, reason)] := by
  rw [PowerButton.deaths, PowerButton.showToast, List.filterMap_append]
  rfl

/-- What holds after each event. -/
structure Inv (w : World) : Prop where
  ordered : w.cell.Ordered
  applied : w.button.lastAppliedSeq ≤ w.cell.snap.seq
  leaning : Due w.button.lastAppliedSeq w.cell w.button.currentState.leansOn
  later : ∀ op, w.button.generation < op → w.button.calls op = none
  owned : ∀ awaits stage, w.button.calls w.button.generation = some ⟨awaits, stage⟩ →
    awaits.Owns w.button.currentState
  /-- A reply that would be written agreed with the cell when it was given. -/
  answers : ∀ awaits outcome,
    w.button.calls w.button.generation = some ⟨awaits, .answered (.ok outcome)⟩ → awaits ≠ .mark →
    Due w.button.lastAppliedSeq w.cell (decide (outcome = .running))
  shown : ∀ x ∈ w.button.deaths, (x.1 : Int) ≤ w.button.lastAppliedSeq ∧
    ∃ s ∈ w.cell.published, s.seq = x.1 ∧ s.running = false ∧ s.error = some x.2
  once : (w.button.deaths.map Prod.fst).Pairwise (· < ·)

namespace Inv

variable {w : World}

theorem new : Inv .new where
  ordered := ordered_new
  applied := by decide
  leaning := due_running _ _
  later _ _ := rfl
  owned := nofun
  answers := nofun
  shown := nofun
  once := .nil

/-- The cell moves on. -/
theorem advances (h : Inv w) {c : ProxyStateCell} (hadvances : Advances w.cell c) :
    Inv { w with cell := c } where
  ordered := h.ordered.advances hadvances
  applied := by
    have hle := h.applied
    have hseq := hadvances.seq_le
    change w.button.lastAppliedSeq ≤ c.snap.seq
    omega
  leaning := h.leaning.advances h.applied hadvances
  later := h.later
  owned := h.owned
  answers awaits outcome hcall hne :=
  (h.answers awaits outcome hcall hne).advances h.applied hadvances
  shown x hx := by
    obtain ⟨hle, s, hs, hof⟩ := h.shown x hx
    exact ⟨hle, s, hadvances.published hs, hof⟩
  once := h.once

/-- The backend goes on with a call. -/
theorem setStage (h : Inv w) {op : Nat} {awaits : Awaits} {stage stage' : Stage}
    (hcall : w.button.calls op = some ⟨awaits, stage⟩) {c : ProxyStateCell}
    (hadvances : Advances w.cell c)
    (hanswer : ∀ outcome, stage' = .answered (.ok outcome) → awaits ≠ .mark →
      Due w.button.lastAppliedSeq c (decide (outcome = .running))) :
    Inv (w.setStage op awaits stage' c) := by
  have h' := h.advances hadvances
  have hother {k : Nat} (hne : k ≠ op) :
      update w.button.calls op (some ⟨awaits, stage'⟩) k = w.button.calls k :=
    update_of_ne hne ..
  have hself : update w.button.calls op (some ⟨awaits, stage'⟩) op =
      some ⟨awaits, stage'⟩ := update_self ..
  constructor
  case ordered => exact h'.ordered
  case applied => exact h'.applied
  case leaning => exact h'.leaning
  case later =>
    intro k hk
    refine (hother ?_).trans (h.later k hk)
    rintro rfl
    rw [h.later k hk] at hcall
    cases hcall
  case owned =>
    intro awaits₁ stage₁ hcall₁
    by_cases heq : w.button.generation = op
    · subst heq
      obtain ⟨rfl, -⟩ := Call.mk.inj (Option.mem_unique hself hcall₁)
      exact h.owned awaits stage hcall
    · exact h.owned awaits₁ stage₁ ((hother heq).symm.trans hcall₁)
  case answers =>
    intro awaits₁ outcome hcall₁ hne
    by_cases heq : w.button.generation = op
    · subst heq
      obtain ⟨rfl, hstage⟩ := Call.mk.inj (Option.mem_unique hself hcall₁)
      exact hanswer outcome hstage hne
    · exact h'.answers awaits₁ outcome ((hother heq).symm.trans hcall₁) hne
  case shown => exact h'.shown
  case once => exact h'.once

/-- The button changes, and neither what was applied nor what was shown of deaths. -/
theorem button (h : Inv w) {b : PowerButton} (hseq : b.lastAppliedSeq = w.button.lastAppliedSeq)
    (hdeaths : b.deaths = w.button.deaths)
    (hleaning : Due w.button.lastAppliedSeq w.cell b.currentState.leansOn)
    (hlater : ∀ op, b.generation < op → b.calls op = none)
    (howned : ∀ awaits stage, b.calls b.generation = some ⟨awaits, stage⟩ →
      awaits.Owns b.currentState)
    (hanswers : ∀ awaits outcome,
      b.calls b.generation = some ⟨awaits, .answered (.ok outcome)⟩ → awaits ≠ .mark →
      Due w.button.lastAppliedSeq w.cell (decide (outcome = .running))) :
    Inv { w with button := b } where
  ordered := h.ordered
  applied := hseq ▸ h.applied
  leaning := hseq ▸ hleaning
  later := hlater
  owned := howned
  answers := hseq ▸ hanswers
  shown := by
    change ∀ x ∈ b.deaths, _
    rw [hdeaths, hseq]
    exact h.shown
  once := by
    change (b.deaths.map Prod.fst).Pairwise _
    rw [hdeaths]
    exact h.once

/-- An operation is superseded, and none goes on. -/
theorem begins (h : Inv w) {state : ConnectionState}
    (hleaning : Due w.button.lastAppliedSeq w.cell state.leansOn) (text : String) :
    Inv { w with button := (w.button.begin.setState state).showToast (.message text) } := by
  have hnone : w.button.calls (w.button.generation + 1) = none := h.later _ (Nat.lt_succ_self _)
  refine h.button rfl (deaths_showToast_message _ _) hleaning
    (fun op hop ↦ h.later op (Nat.lt_of_succ_lt hop)) (fun awaits stage hcall ↦ ?_)
    fun awaits outcome hcall ↦ ?_
  · cases hnone.symm.trans hcall
  · cases hnone.symm.trans hcall

/-- One supersedes what there was, and awaits a reply. -/
theorem asks (h : Inv w) {state : ConnectionState} {awaits : Awaits}
    (hleaning : Due w.button.lastAppliedSeq w.cell state.leansOn) (howns : awaits.Owns state) :
    Inv { w with
      button := (w.button.begin.setState state).invoke (w.button.generation + 1) awaits } := by
  have hself : update w.button.calls (w.button.generation + 1) (some ⟨awaits, .asked⟩)
      (w.button.generation + 1) = some ⟨awaits, .asked⟩ := update_self ..
  refine h.button rfl rfl hleaning (fun op hop ↦ ?_) (fun awaits₁ stage hcall ↦ ?_)
    fun awaits₁ outcome hcall ↦ ?_
  · exact (update_of_ne (Nat.ne_of_gt hop) ..).trans (h.later op (Nat.lt_of_succ_lt hop))
  · obtain ⟨rfl, -⟩ := Call.mk.inj (Option.mem_unique hself hcall)
    exact howns
  · obtain ⟨-, hstage⟩ := Call.mk.inj (Option.mem_unique hself hcall)
    cases hstage

theorem toggleFromIdle_eq (b : PowerButton) (goingToConnect : Bool) :
    b.toggleFromIdle goingToConnect =
      (b.begin.setState (if goingToConnect then .connecting else .disconnecting)).invoke
        (b.generation + 1) (.toggle goingToConnect) := by
  rw [PowerButton.toggleFromIdle, PowerButton.settle]
  exact congrArg (PowerButton.invoke · _ _) (if_pos rfl)

theorem click (h : Inv w) : Inv { w with button := w.button.handlePowerClick } := by
  have hleaning := h.leaning
  -- An idle state is left for a transition that leans to the same side.
  have hidle (hidle : w.button.currentState ∈ ConnectionState.idleStates) : Inv { w with
        button := w.button.toggleFromIdle (!w.button.currentState.isEffectivelyOn) } := by
    rw [ConnectionState.leansOn_of_idle hidle] at hleaning
    rw [toggleFromIdle_eq]
    cases hon : w.button.currentState.isEffectivelyOn with
    | true =>
      rw [hon] at hleaning
      exact h.asks hleaning rfl
    | false =>
      rw [hon] at hleaning
      exact h.asks hleaning (.inl rfl)
  unfold PowerButton.handlePowerClick
  split
  · next hstate =>
    rw [hstate] at hleaning
    refine h.button rfl rfl hleaning h.later (fun awaits stage hcall ↦ ?_) h.answers
    have howns := h.owned awaits stage hcall
    rw [hstate] at howns
    cases awaits with
    | toggle goingToConnect =>
      cases goingToConnect with
      | true => exact .inr rfl
      | false => cases howns
    | followUp => cases howns
    | mark => trivial
  · next hstate =>
    rw [hstate] at hleaning
    exact @begins w h .connectionFailed hleaning _
  · next hstate =>
    rw [hstate] at hleaning
    exact @begins w h .disconnectionFailed hleaning _
  · next hconnecting hcancelling hdisconnecting =>
    refine hidle ?_
    revert hconnecting hcancelling hdisconnecting
    cases w.button.currentState <;> simp [ConnectionState.idleStates]

/-! ### Replies -/

/-- What is written by the operation that is current, once its call is over. -/
theorem writes (h : Inv w) {b : PowerButton} (hseq : b.lastAppliedSeq = w.button.lastAppliedSeq)
    (hdeaths : b.deaths = w.button.deaths) (hgeneration : b.generation = w.button.generation)
    (hcalls : b.calls = update w.button.calls w.button.generation none)
    (hleaning : Due w.button.lastAppliedSeq w.cell b.currentState.leansOn) :
    Inv { w with button := b } := by
  have hself : b.calls b.generation = none := by
    rw [hcalls, hgeneration]
    exact update_self ..
  refine h.button hseq hdeaths hleaning (fun op hop ↦ ?_) (fun awaits stage hcall ↦ ?_)
    fun awaits outcome hcall ↦ ?_
  · rw [hgeneration] at hop
    rw [hcalls, update_of_ne (Nat.ne_of_gt hop)]
    exact h.later op hop
  · cases hself.symm.trans hcall
  · cases hself.symm.trans hcall

/-- The current operation goes on to the mark. -/
theorem marks (h : Inv w) : Inv { w with button := w.button.invoke w.button.generation .mark } := by
  have hself : update w.button.calls w.button.generation (some ⟨.mark, .asked⟩)
      w.button.generation = some ⟨.mark, .asked⟩ := update_self ..
  refine h.button rfl rfl h.leaning (fun op hop ↦ ?_) (fun awaits stage hcall ↦ ?_)
    fun awaits outcome hcall ↦ ?_
  · exact (update_of_ne (Nat.ne_of_gt hop) ..).trans (h.later op hop)
  · obtain ⟨rfl, -⟩ := Call.mk.inj (Option.mem_unique hself hcall)
    trivial
  · obtain ⟨-, hstage⟩ := Call.mk.inj (Option.mem_unique hself hcall)
    cases hstage

/-- A superseded operation writes nothing. -/
theorem deliver_of_superseded (b : PowerButton) {op : Nat} (hne : op ≠ b.generation)
    (selected : Bool) :
    b.deliver op selected = b ∨
      b.deliver op selected = { b with calls := update b.calls op none } := by
  unfold PowerButton.deliver
  split
  · next awaits result hcall =>
    refine .inr ?_
    have hsettle (write : PowerButton → PowerButton) :
        ({ b with calls := update b.calls op none } : PowerButton).settle op write =
          { b with calls := update b.calls op none } := if_neg hne
    unfold PowerButton.resume
    split
    · exact hsettle _
    · rw [if_neg fun hrace ↦ hne hrace.1]
      rw [hsettle, if_neg fun hmark ↦ hne hmark.2.2.2]
    · exact hsettle _
    · exact hsettle _
    · rfl
    · exact hsettle _
  · exact .inl rfl

theorem deliver (h : Inv w) (op : Nat) (selected : Bool) :
    Inv { w with button := w.button.deliver op selected } := by
  by_cases hop : op = w.button.generation
  · subst hop
    unfold PowerButton.deliver
    split
    · next awaits result hcall =>
      have hsettle (write : PowerButton → PowerButton) : ({ w.button with
            calls := update w.button.calls w.button.generation none } :
              PowerButton).settle w.button.generation write =
            write { w.button with
              calls := update w.button.calls w.button.generation none } := if_pos rfl
      have howns := h.owned awaits _ hcall
      unfold PowerButton.resume
      split
      · next goingToConnect message =>
        rw [hsettle]
        refine h.writes rfl (deaths_showToast_message _ _) rfl rfl ?_
        -- The state that it failed from leans to the same side.
        have hleaning := h.leaning
        cases goingToConnect with
        | true => rcases howns with hstate | hstate <;> rwa [hstate] at hleaning
        | false =>
          have hstate : w.button.currentState = .disconnecting := howns
          rwa [hstate] at hleaning
      · next goingToConnect outcome =>
        have hdue := h.answers _ outcome hcall nofun
        split
        · next hrace =>
          -- The follow-up stop leaves a side that the cell has agreed with.
          obtain ⟨-, -, rfl⟩ := hrace
          have h₁ := h.writes (b := { w.button with
            calls := update w.button.calls w.button.generation none }) rfl rfl rfl rfl
            h.leaning
          have hasks := @asks _ h₁ .disconnecting .followUp hdue rfl
          dsimp only
          rw [PowerButton.settle, if_pos rfl]
          exact hasks
        · rw [hsettle]
          have h₁ := h.writes (b := ({ w.button with
              calls := update w.button.calls w.button.generation none } :
                PowerButton).setState (.forToggleOutcome outcome)) rfl rfl rfl rfl
            ((ConnectionState.leansOn_forToggleOutcome outcome).symm ▸ hdue)
          dsimp only
          split
          · exact h₁.marks
          · exact h₁
      · next outcome =>
        rw [hsettle]
        refine h.writes rfl rfl rfl rfl ?_
        exact (ConnectionState.leansOn_forToggleOutcome outcome).symm ▸
          h.answers _ outcome hcall nofun
      · next message =>
        rw [hsettle]
        refine h.writes rfl (deaths_showToast_message _ _) rfl rfl ?_
        have hleaning := h.leaning
        have hstate : w.button.currentState = .disconnecting := howns
        rwa [hstate] at hleaning
      · exact h.writes rfl rfl rfl rfl h.leaning
      · rw [hsettle]
        exact h.writes rfl (deaths_showToast_message _ _) rfl rfl h.leaning
    · exact h
  · rcases deliver_of_superseded w.button hop selected with heq | heq
    · rw [heq]
      exact h
    · rw [heq]
      have hother : update w.button.calls op none w.button.generation =
          w.button.calls w.button.generation := update_of_ne (Ne.symm hop) ..
      refine h.button rfl rfl h.leaning (fun k hk ↦ ?_) (fun awaits stage hcall ↦ ?_)
        fun awaits outcome hcall ↦ ?_
      · by_cases heq : k = op
        · rw [heq]
          exact update_self ..
        · exact (update_of_ne heq ..).trans (h.later k hk)
      · exact h.owned awaits stage (hother.symm.trans hcall)
      · exact h.answers awaits outcome (hother.symm.trans hcall)

/-! ### Observations -/

section Observe

variable {s : ProxySnapshot} (h : Inv w) (hs : s ∈ w.cell.published)
  (hnew : ¬(s.seq : Int) ≤ w.button.lastAppliedSeq)

include h hs in
/-- What the cell has published it was ahead of, or is. -/
theorem due_of_published : Due s.seq w.cell s.running := by
  intro hne
  have hle := h.ordered.le s hs
  have hlt : s.seq ≠ w.cell.snap.seq := fun heq ↦
    hne (congrArg ProxySnapshot.running (h.ordered.inj s hs _ h.ordered.last heq))
  omega

include h hs hnew in
/-- An observation is applied in an idle state, and shows no death. -/
theorem applies (hidle : w.button.currentState ∈ ConnectionState.idleStates) {b : PowerButton}
    (hseq : b.lastAppliedSeq = s.seq) (hdeaths : b.deaths = w.button.deaths)
    (hcalls : b.calls = w.button.calls) (hgeneration : b.generation = w.button.generation)
    (hstate : b.currentState = .forPolledRunning s.running) : Inv { w with button := b } := by
  -- A call that is out writes no state.
  have hmark {awaits : Awaits} {stage : Stage}
      (hcall : b.calls b.generation = some ⟨awaits, stage⟩) : awaits = .mark := by
    rw [hcalls, hgeneration] at hcall
    exact (h.owned awaits stage hcall).of_idle hidle
  constructor
  case ordered => exact h.ordered
  case applied =>
    have hle := h.ordered.le s hs
    change b.lastAppliedSeq ≤ w.cell.snap.seq
    omega
  case leaning =>
    change Due b.lastAppliedSeq w.cell b.currentState.leansOn
    rw [hseq, hstate, ConnectionState.leansOn_forPolledRunning]
    exact h.due_of_published hs
  case later =>
    intro op hop
    change b.calls op = none
    rw [hcalls]
    exact h.later op (hgeneration ▸ hop)
  case owned =>
    intro awaits stage hcall
    rw [hmark hcall]
    trivial
  case answers => exact fun awaits outcome hcall hne ↦ absurd (hmark hcall) hne
  case shown =>
    change ∀ x ∈ b.deaths, _
    rw [hdeaths]
    intro x hx
    obtain ⟨hle, hof⟩ := h.shown x hx
    refine ⟨?_, hof⟩
    change (x.1 : Int) ≤ b.lastAppliedSeq
    omega
  case once =>
    change (b.deaths.map Prod.fst).Pairwise _
    rw [hdeaths]
    exact h.once

/-- A death that is shown is newer than any that was. -/
theorem dies {b : PowerButton} (h : Inv { w with button := b }) (hs : s ∈ w.cell.published)
    (hseq : b.lastAppliedSeq = s.seq) (hbefore : ∀ x ∈ b.deaths, x.1 < s.seq) {reason : String}
    (hdead : s.running = false) (hreason : s.error = some reason) :
    Inv { w with button := b.showToast (.death s.seq reason) } :=
  { h with
    shown := by
      rw [deaths_showToast_death]
      intro x hx
      rcases List.mem_append.1 hx with hx | hx
      · exact h.shown x hx
      · rw [List.mem_singleton.1 hx]
        exact ⟨Int.le_of_eq hseq.symm, s, hs, rfl, hdead, hreason⟩
    once := by
      rw [deaths_showToast_death, List.map_append]
      refine List.pairwise_append.2 ⟨h.once, List.pairwise_singleton _ _, fun n hn m hm ↦ ?_⟩
      obtain ⟨x, hx, rfl⟩ := List.mem_map.1 hn
      rw [List.mem_singleton.1 hm]
      exact hbefore x hx }

include h hs in
theorem observe :
    Inv { w with button := w.button.applyProxyStateObservation s.seq s.running s.error } := by
  rw [PowerButton.applyProxyStateObservation]
  split
  · exact h
  · next hnew =>
    split
    · exact h
    · next hidle =>
      have hidle := not_not.1 hidle
      dsimp only
      split
      · next hsame => exact h.applies hs hnew hidle rfl rfl rfl rfl hsame.symm
      · have happlied := h.applies hs hnew hidle
          (b := ({ w.button with lastAppliedSeq := s.seq } : PowerButton).setState
            (.forPolledRunning s.running)) rfl rfl rfl rfl rfl
        split
        · next reason hreason =>
          split
          · next hcue =>
            have hdead : s.running = false := by
              by_contra hon
              rw [Bool.not_eq_false] at hon
              rw [hon] at hcue
              cases hcue.1
            refine dies happlied hs rfl (fun x hx ↦ ?_) hdead hreason
            have hle := (h.shown x hx).1
            omega
          · exact happlied
        · exact happlied

end Observe

/-! ### Runs -/

/-- What a start answers is what its exchange has committed. -/
theorem start_agrees (r : Report) {outcome : ToggleOutcome}
    (h : outcomeForStartResponse r.result = .outcome outcome) (cell : ProxyStateCell) :
    (cell.exchange .start r).snap.running = decide (outcome = .running) := by
  have hcommit {running : Bool}
      (hobserved : observedRunning .start r.result (r.decision = .mask) = some running) :
      (cell.exchange .start r).snap.running = running := by
    rw [exchange, hobserved]
    exact running_commitObservation running r
  cases hresult : r.result with
  | error e => rw [hresult] at h; cases e <;> cases h
  | ok response =>
    rw [hresult] at h hcommit
    cases response with
    | ack => cases h; exact hcommit rfl
    | startFailed e =>
      cases e with
      | cancelled => cases h; exact hcommit rfl
      | alreadyRunning => cases h; exact hcommit rfl
      | networkBlocked => cases h
      | failed message => cases h
    | _ => cases h

/-- So is what a stop answers. -/
theorem stop_agrees (r : Report) {outcome : ToggleOutcome}
    (h : outcomeForStopResponse r.result = .outcome outcome) (cell : ProxyStateCell) :
    (cell.exchange .stop r).snap.running = decide (outcome = .running) := by
  cases hresult : r.result with
  | error e => rw [hresult] at h; cases e <;> cases h
  | ok response =>
    rw [hresult] at h
    cases response with
    | ack =>
      cases h
      rw [exchange, hresult]
      exact running_commitObservation false r
    | _ => cases h

/-- The stage that a reply leads to. -/
theorem reply (h : Inv w) {op : Nat} {awaits : Awaits}
    (hcall : w.button.calls op = some ⟨awaits, .asked⟩) (kind : ReqKind) (r : Report)
    (externallySupervised : Bool) {decision : StartDecision}
    (hagrees : ∀ outcome, decision = .outcome outcome →
      (w.cell.exchange kind r).snap.running = decide (outcome = .running)) :
    Inv (w.setStage op awaits (.ofDecision externallySupervised decision)
      (w.cell.exchange kind r)) := by
  refine h.setStage hcall (advances_exchange kind r) fun outcome hstage _ ↦ ?_
  cases decision with
  | outcome o =>
    obtain rfl := Except.ok.inj (Stage.answered.inj hstage)
    rw [← hagrees o rfl]
    exact due_running _ _
  | needsElevation =>
    rw [Stage.ofDecision] at hstage
    split at hstage <;> cases hstage
  | fail message => cases hstage

theorem step (h : Inv w) (e : Event) : Inv (w.step e) := by
  cases e with
  | click => exact h.click
  | exchange kind r => exact h.advances (advances_exchange kind r)
  | reply op r externallySupervised =>
    unfold World.step
    dsimp only
    split
    · next hcall => exact h.reply hcall .start r _ fun _ ho ↦ start_agrees r ho w.cell
    · next hcall => exact h.reply hcall .stop r _ fun _ ho ↦ stop_agrees r ho w.cell
    · next hcall => exact h.reply hcall .stop r _ fun _ ho ↦ stop_agrees r ho w.cell
    · exact h
  | elevated op result r =>
    unfold World.step
    dsimp only
    split
    · next awaits hcall =>
      split
      · refine h.setStage hcall (advances_exchange .status r) fun outcome hstage _ ↦ ?_
        -- The outcome is read from the cell.
        obtain rfl := Except.ok.inj (Stage.answered.inj hstage)
        have hread : decide ((if (w.cell.exchange .status r).snap.running then
            ToggleOutcome.running else .stopped) = .running) =
            (w.cell.exchange .status r).snap.running := by
          cases (w.cell.exchange .status r).snap.running <;> rfl
        rw [hread]
        exact due_running _ _
      · next hnot =>
        refine h.setStage hcall .refl fun outcome hstage _ ↦ ?_
        cases result with
        | success => exact absurd rfl hnot
        | _ => cases hstage
    · exact h
  | follow op r =>
    unfold World.step
    dsimp only
    split
    · next hcall => exact h.setStage hcall (advances_exchange .status r) nofun
    · exact h
  | refuse op message =>
    unfold World.step
    dsimp only
    split
    · next hcall => exact h.setStage hcall .refl nofun
    · exact h
  | marked op result =>
    unfold World.step
    dsimp only
    split
    · next hcall => exact h.setStage hcall .refl fun _ _ hne ↦ absurd rfl hne
    · exact h
  | deliver op selected => exact h.deliver op selected
  | observe s =>
    rw [World.step_observe]
    split
    · next hs => exact h.observe hs
    · exact h

theorem run (h : Inv w) (events : List Event) : Inv (w.run events) := by
  induction events generalizing w with
  | nil => exact h
  | cons e events ih => exact ih (h.step e)

end Inv

/-- What the button owes to the cell. -/
structure World.Reconciles (w : World) : Prop where
  /-- On the wrong side, the button has not seen the newest snapshot, and that one repairs it. -/
  repairs : w.button.currentState ∈ ConnectionState.idleStates →
    w.button.currentState.isEffectivelyOn ≠ w.cell.snap.running →
    w.button.lastAppliedSeq < w.cell.snap.seq ∧
      (w.step (.observe w.cell.snap)).button.currentState ∈ ConnectionState.idleStates ∧
      (w.step (.observe w.cell.snap)).button.currentState.isEffectivelyOn = w.cell.snap.running
  /-- A superseded operation writes nothing. -/
  superseded : ∀ op selected, op ≠ w.button.generation →
    let w' := w.step (.deliver op selected)
    w'.button.currentState = w.button.currentState ∧ w'.button.generation = w.button.generation ∧
      w'.button.lastAppliedSeq = w.button.lastAppliedSeq ∧ w'.button.toasts = w.button.toasts
  monotone : ∀ e, w.button.lastAppliedSeq ≤ (w.step e).button.lastAppliedSeq
  /-- A snapshot that is not newer than one that was applied is not shown. -/
  older : ∀ s : ProxySnapshot, (s.seq : Int) ≤ w.button.lastAppliedSeq → w.step (.observe s) = w
  transition : ∀ s, w.button.currentState ∉ ConnectionState.idleStates → w.step (.observe s) = w
  /-- Each `seq` is of one snapshot. -/
  seqs : ∀ s ∈ w.cell.published, ∀ s' ∈ w.cell.published, s.seq = s'.seq → s = s'
  /-- A death that is shown is of a snapshot, with its reason. -/
  deaths : ∀ x ∈ w.button.deaths, ∃ s ∈ w.cell.published, s.seq = x.1 ∧ s.running = false ∧
    s.error = some x.2
  once : (w.button.deaths.map Prod.fst).Pairwise (· < ·)

namespace PowerButton

variable (b : PowerButton)

theorem lastAppliedSeq_settle (op : Nat) {write : PowerButton → PowerButton}
    (hwrite : ∀ b, (write b).lastAppliedSeq = b.lastAppliedSeq) :
    (b.settle op write).lastAppliedSeq = b.lastAppliedSeq := by
  rw [settle]
  split
  · exact hwrite b
  · rfl

theorem lastAppliedSeq_handlePowerClick : b.handlePowerClick.lastAppliedSeq = b.lastAppliedSeq := by
  unfold handlePowerClick
  split
  · rfl
  · rfl
  · rfl
  · rw [toggleFromIdle]
    exact lastAppliedSeq_settle b.begin _ fun _ ↦ rfl

theorem lastAppliedSeq_resume (op : Nat) (selected : Bool) (awaits : Awaits)
    (result : Except String ToggleOutcome) :
    (b.resume op selected awaits result).lastAppliedSeq = b.lastAppliedSeq := by
  unfold resume
  split
  · exact lastAppliedSeq_settle b op fun _ ↦ rfl
  · split
    · exact lastAppliedSeq_settle b.begin _ fun _ ↦ rfl
    · dsimp only
      split
      · exact lastAppliedSeq_settle b op fun _ ↦ rfl
      · exact lastAppliedSeq_settle b op fun _ ↦ rfl
  · exact lastAppliedSeq_settle b op fun _ ↦ rfl
  · exact lastAppliedSeq_settle b op fun _ ↦ rfl
  · rfl
  · exact lastAppliedSeq_settle b op fun _ ↦ rfl

theorem lastAppliedSeq_deliver (op : Nat) (selected : Bool) :
    (b.deliver op selected).lastAppliedSeq = b.lastAppliedSeq := by
  unfold deliver
  split
  · exact lastAppliedSeq_resume ..
  · rfl

/-- What was applied is not taken back. -/
theorem lastAppliedSeq_le_observation (seq : Nat) (running : Bool) (error : Option String) :
    b.lastAppliedSeq ≤ (b.applyProxyStateObservation seq running error).lastAppliedSeq := by
  rw [applyProxyStateObservation]
  split
  · exact Int.le_refl _
  · next hnew =>
    split
    · exact Int.le_refl _
    · have hle : b.lastAppliedSeq ≤ seq := by omega
      dsimp only
      split
      · exact hle
      · split
        · split
          · exact hle
          · exact hle
        · exact hle

end PowerButton

theorem World.lastAppliedSeq_le_step (w : World) (e : Event) :
    w.button.lastAppliedSeq ≤ (w.step e).button.lastAppliedSeq := by
  have hkeep {b : PowerButton} (h : b.lastAppliedSeq = w.button.lastAppliedSeq) :
      w.button.lastAppliedSeq ≤ b.lastAppliedSeq := Int.le_of_eq h.symm
  cases e with
  | click => exact hkeep w.button.lastAppliedSeq_handlePowerClick
  | deliver op selected => exact hkeep (w.button.lastAppliedSeq_deliver op selected)
  | observe s =>
    rw [World.step_observe]
    split
    · exact w.button.lastAppliedSeq_le_observation ..
    · exact Int.le_refl _
  | exchange kind r => exact Int.le_refl _
  | reply op r externallySupervised => unfold World.step; dsimp only; split <;> exact Int.le_refl _
  | elevated op result r =>
    unfold World.step
    dsimp only
    split
    · split <;> exact Int.le_refl _
    · exact Int.le_refl _
  | follow op r => unfold World.step; dsimp only; split <;> exact Int.le_refl _
  | refuse op message => unfold World.step; dsimp only; split <;> exact Int.le_refl _
  | marked op result => unfold World.step; dsimp only; split <;> exact Int.le_refl _

/-- An observation that is applied puts the button on its side. -/
theorem PowerButton.currentState_observation (b : PowerButton) {seq : Nat} {running : Bool}
    {error : Option String} (hnew : ¬(seq : Int) ≤ b.lastAppliedSeq)
    (hidle : b.currentState ∈ ConnectionState.idleStates) :
    (b.applyProxyStateObservation seq running error).currentState = .forPolledRunning running := by
  rw [applyProxyStateObservation, if_neg hnew, if_neg (not_not.2 hidle)]
  dsimp only
  split
  · next hsame => exact hsame.symm
  · split
    · split <;> rfl
    · rfl

/-- Whatever happens in whatever order, the button reconciles. -/
theorem World.reconciles_of_run (events : List Event) : (World.new.run events).Reconciles := by
  have h := Inv.new.run events
  generalize World.new.run events = w at h
  constructor
  case repairs =>
    intro hidle hside
    have hahead := h.leaning (ConnectionState.leansOn_of_idle hidle ▸ hside)
    have hstep : (w.step (.observe w.cell.snap)).button.currentState =
        .forPolledRunning w.cell.snap.running := by
      rw [World.step_observe, if_pos h.ordered.last]
      exact w.button.currentState_observation (by omega) hidle
    refine ⟨hahead, ?_, ?_⟩
    · rw [hstep]
      cases w.cell.snap.running <;> decide
    · rw [hstep]
      cases w.cell.snap.running <;> rfl
  case superseded =>
    intro op selected hne
    unfold World.step
    rcases Inv.deliver_of_superseded w.button hne selected with heq | heq
    · dsimp only
      rw [heq]
      exact ⟨rfl, rfl, rfl, rfl⟩
    · dsimp only
      rw [heq]
      exact ⟨rfl, rfl, rfl, rfl⟩
  case monotone => exact w.lastAppliedSeq_le_step
  case older =>
    intro s hle
    rw [World.step_observe, PowerButton.applyProxyStateObservation, if_pos hle]
    exact ite_self _
  case transition =>
    intro s hnot
    rw [World.step_observe, PowerButton.applyProxyStateObservation, if_pos hnot, ite_self]
    exact ite_self _
  case seqs => exact h.ordered.inj
  case deaths => exact fun x hx ↦ (h.shown x hx).2
  case once => exact h.once

end Hole.Gui
