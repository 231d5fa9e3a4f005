import Hole.Bridge.StartSlot
import Hole.Effect.History

/-!
# The scope of a cancel

A cancel names an attempt. It hits the start that is in flight under that name, or arms the slot
for it; a start of that name consumes the arm, and any other start that proceeds supersedes it.
What the slot holds is then explained by the history: the arm by a cancel, the start in flight by
its registration (`CancelInv`), and an arm that nothing superseded is still there when its start
arrives. Only this last part needs that no two starts share a name (`UniqueInv`).
-/

namespace Hole.Bridge.Ipc

open Effect

variable {κ : Type}

/-! ### Attempts -/

/-- The attempt that an event of a start names. -/
def Event.attempt : Event κ → Option String
  | registered _ id => some id
  | consumed _ id => some id
  | rejected _ id => some id
  | _ => none

/-- The non-empty attempt that a step brings. -/
def attemptOf : Label Choice (Kind κ) → Option String
  | .spawn k => k.startId.filter (· ≠ "")
  | _ => none

/-- The non-empty attempts of a run's starts. -/
def attempts (ls : List (Label Choice (Kind κ))) : List String := ls.filterMap attemptOf

/-! ### What the history explains -/

/-- The event is a cancel of the attempt. -/
def Cancels (id : String) (e : Event κ) : Prop := ∃ i outcome, e = .cancel i id outcome

/-- The event leaves an arm for the attempt in place: no start proceeds, no other cancel arms. -/
def LeavesArm (id : String) (e : Event κ) : Prop :=
  (∀ i id', e ≠ .registered i id') ∧ ∀ i id', e = .cancel i id' .armed → id' = id

/-- The start has registered under the attempt, and has not cleared since. -/
def Flying (id : String) (i : Nat) (log : List (Event κ)) : Prop :=
  Since (· ≠ .cleared i) (· = .registered i id) log

/-- What must have come before an event. -/
def Explained (older : List (Event κ)) : Event κ → Prop
  | .consumed _ id => id ≠ "" ∧ ∃ e ∈ older, Cancels id e
  | .registered _ id | .rejected _ id => id ≠ "" → ¬Since (LeavesArm id) (Cancels id) older
  | .cancel _ id outcome => id ≠ "" → ∀ i, Flying id i older → outcome = .hit i
  | _ => True

/-- The slot and the tokens, by the history. -/
structure CancelInv (s : Shared κ) : Prop where
  armed : ∀ {id}, s.startCancel.preArmed = some id → id ≠ "" ∧ ∃ e ∈ s.log, Cancels id e
  flight : ∀ {id i}, s.startCancel.inFlight = some (id, i) → .registered i id ∈ s.log
  flying : ∀ {id i}, Flying id i s.log → s.startCancel.inFlight = some (id, i)
  explained : Justified Explained s.log
  token : ∀ {i}, i ∈ s.cancelled →
    ∃ id, id ≠ "" ∧ .registered i id ∈ s.log ∧ ∃ j, .cancel j id (.hit i) ∈ s.log
  hits : ∀ {i j id}, .cancel i id (.hit j) ∈ s.log → j ∈ s.cancelled
  honoured : ∀ {id}, id ≠ "" → Since (LeavesArm id) (Cancels id) s.log →
    (∀ e ∈ s.log, e.attempt ≠ some id) → s.startCancel.preArmed = some id

/-- Events that are not of a start or a cancel. -/
def Neutral : Event κ → Prop
  | .registered _ _ => False
  | .consumed _ _ => False
  | .rejected _ _ => False
  | .cancel _ _ _ => False
  | _ => True

variable {e : Event κ}

theorem Neutral.explained (he : Neutral e) (older : List (Event κ)) : Explained older e := by
  cases e with
  | consumed i id => exact he.elim
  | registered i id => exact he.elim
  | rejected i id => exact he.elim
  | cancel i id outcome => exact he.elim
  | _ => exact trivial

theorem Neutral.not_cancels (he : Neutral e) (id : String) : ¬Cancels id e := by
  rintro ⟨i, outcome, rfl⟩
  exact he

/-- Calls that are not of a start or a cancel. -/
def OffCancel : IpcOp κ → Prop
  | .register _ => False
  | .clear _ => False
  | .cancel _ => False
  | _ => True

variable {s : Shared κ} {o : IpcOp κ} {i : Nat} {c : Choice}

theorem startCancel_next (h : OffCancel o) :
    (ipcNext s i o c).startCancel = s.startCancel ∧ (ipcNext s i o c).cancelled = s.cancelled := by
  cases o with
  | register id => exact h.elim
  | clear id => exact h.elim
  | cancel id => exact h.elim
  | _ =>
    simp only [ipcNext, Shared.storeIf]
    try split
    all_goals simp

theorem neutral_next (h : OffCancel o) : ∀ e ∈ (ipcEvent s i o c).toList, Neutral e := by
  cases o with
  | register id => exact h.elim
  | clear id => exact h.elim
  | cancel id => exact h.elim
  | reloadPath =>
    simp only [ipcEvent]
    split <;> simp [Neutral]
  | _ => rcases hok : c.ok <;> simp [ipcEvent, hok, Neutral]

/-- One more event: what it adds to the slot and to the tokens, it explains. -/
theorem CancelInv.cons {s s' : Shared κ} (h : CancelInv s) (hlog : s'.log = e :: s.log)
    (hexplained : Explained s.log e)
    (harmed : ∀ id, s'.startCancel.preArmed = some id → s.startCancel.preArmed = some id ∨
      (id ≠ "" ∧ Cancels id e))
    (hflight : ∀ id i, s'.startCancel.inFlight = some (id, i) →
      s.startCancel.inFlight = some (id, i) ∨ e = .registered i id)
    (hflying : ∀ id i, e = .registered i id ∨
      (e ≠ .cleared i ∧ s.startCancel.inFlight = some (id, i)) →
      s'.startCancel.inFlight = some (id, i))
    (htoken : ∀ i ∈ s'.cancelled, i ∈ s.cancelled ∨ ∃ id, id ≠ "" ∧ .registered i id ∈ s.log ∧
      ∃ j, e = .cancel j id (.hit i))
    (hhits : ∀ j, j ∈ s.cancelled ∨ (∃ i id, e = .cancel i id (.hit j)) → j ∈ s'.cancelled)
    (hhonoured : ∀ id, id ≠ "" → (∀ e' ∈ e :: s.log, e'.attempt ≠ some id) → Cancels id e ∨
      (LeavesArm id e ∧ s.startCancel.preArmed = some id) → s'.startCancel.preArmed = some id) :
    CancelInv s' := by
  constructor
  case armed =>
    intro id hid
    rw [hlog]
    rcases harmed id hid with hold | ⟨hne, hcancels⟩
    · obtain ⟨hne, e', he', hcancels⟩ := h.armed hold
      exact ⟨hne, e', .tail _ he', hcancels⟩
    · exact ⟨hne, e, .head _, hcancels⟩
  case flight =>
    intro id i hid
    rw [hlog]
    rcases hflight id i hid with hold | rfl
    · exact .tail _ (h.flight hold)
    · exact .head _
  case flying =>
    intro id i hid
    rw [hlog] at hid
    exact hflying id i (hid.imp_right fun hold ↦ ⟨hold.1, h.flying hold.2⟩)
  case explained =>
    rw [hlog]
    exact ⟨hexplained, h.explained⟩
  case token =>
    intro i hi
    rw [hlog]
    rcases htoken i hi with hold | ⟨id, hne, hregistered, j, rfl⟩
    · obtain ⟨id, hne, hregistered, j, hhit⟩ := h.token hold
      exact ⟨id, hne, .tail _ hregistered, j, .tail _ hhit⟩
    · exact ⟨id, hne, .tail _ hregistered, j, .head _⟩
  case hits =>
    intro i j id hhit
    rw [hlog] at hhit
    rcases List.mem_cons.1 hhit with rfl | hold
    · exact hhits j (.inr ⟨i, id, rfl⟩)
    · exact hhits j (.inl (h.hits hold))
  case honoured =>
    intro id hne hsince hunused
    rw [hlog] at hsince hunused
    refine hhonoured id hne hunused (hsince.imp_right fun holder ↦ ⟨holder.1, ?_⟩)
    exact h.honoured hne holder.2 fun e' he' ↦ hunused e' (.tail _ he')

/-- A neutral event explains nothing, and takes nothing away. -/
theorem CancelInv.neutral {s s' : Shared κ} (h : CancelInv s) (he : Neutral e)
    (hlog : s'.log = e :: s.log)
    (hflight : ∀ id i, s'.startCancel.inFlight = some (id, i) →
      s.startCancel.inFlight = some (id, i))
    (hflying : ∀ id i, e ≠ .cleared i → s.startCancel.inFlight = some (id, i) →
      s'.startCancel.inFlight = some (id, i))
    (harmed : s'.startCancel.preArmed = s.startCancel.preArmed)
    (htokens : s'.cancelled = s.cancelled) : CancelInv s' := by
  refine h.cons hlog (he.explained _) (fun id hid ↦ .inl (harmed ▸ hid))
    (fun id i hid ↦ .inl (hflight id i hid)) ?_ (fun i hi ↦ .inl (htokens ▸ hi)) ?_ ?_
  · rintro id i (rfl | ⟨hne, hold⟩)
    · exact he.elim
    · exact hflying id i hne hold
  · rintro j (hold | ⟨i, id, rfl⟩)
    · exact htokens ▸ hold
    · exact he.elim
  · intro id _ _ hold
    exact harmed ▸ (hold.resolve_left (he.not_cancels id)).2

variable {id : String}

/-- An attempt that no start brought before, and that the slot is not armed for, is not armed. -/
theorem CancelInv.unarmed (h : CancelInv s) (hunused : id ≠ "" → ∀ e ∈ s.log, e.attempt ≠ some id)
    (hnot : ¬(id ≠ "" ∧ s.startCancel.preArmed = some id)) (hne : id ≠ "") :
    ¬Since (LeavesArm id) (Cancels id) s.log :=
  fun hsince ↦ hnot ⟨hne, h.honoured hne hsince (hunused hne)⟩

theorem CancelInv.register (h : CancelInv s) (i : Nat) (id : String) (c : Choice)
    (hunused : id ≠ "" → ∀ e ∈ s.log, e.attempt ≠ some id) :
    CancelInv (ipcNext s i (.register id) c) := by
  rcases s.startCancel.register_cases id i with
    ⟨hne, harmed, hr⟩ | ⟨hnot, -, hr⟩ | ⟨hnot, hfree, hr⟩
  · simp only [ipcNext, hr, registerEvent]
    refine h.cons rfl ⟨hne, (h.armed harmed).2⟩ (by rintro _ ⟨⟩) (fun _ _ hid ↦ .inl hid)
      (fun _ _ hid ↦ (hid.resolve_left (by rintro ⟨⟩)).2) (fun _ hi ↦ .inl hi)
      (fun _ hj ↦ hj.resolve_right (by rintro ⟨_, _, ⟨⟩⟩)) ?_
    -- the arm was for this attempt, so for no other
    intro id' _ hunused hold
    obtain ⟨-, harmed'⟩ := hold.resolve_left (by simp [Cancels])
    obtain rfl := Option.mem_unique harmed harmed'
    exact absurd rfl (hunused (.consumed i id) (.head _))
  · simp only [ipcNext, hr, registerEvent]
    refine h.cons rfl (h.unarmed hunused hnot) (fun _ hid ↦ .inl hid) (fun _ _ hid ↦ .inl hid)
      (fun _ _ hid ↦ (hid.resolve_left (by rintro ⟨⟩)).2) (fun _ hi ↦ .inl hi)
      (fun _ hj ↦ hj.resolve_right (by rintro ⟨_, _, ⟨⟩⟩)) ?_
    intro id' _ _ hold
    exact (hold.resolve_left (by simp [Cancels])).2
  · simp only [ipcNext, hr, registerEvent]
    refine h.cons rfl (h.unarmed hunused hnot) (by rintro _ ⟨⟩) ?_ ?_ (fun _ hi ↦ .inl hi)
      (fun _ hj ↦ hj.resolve_right (by rintro ⟨_, _, ⟨⟩⟩)) ?_
    · rintro id' i' ⟨rfl, rfl⟩
      exact .inr rfl
    · rintro id' i' (⟨rfl, rfl⟩ | ⟨-, hold⟩)
      · rfl
      · cases hfree.symm.trans hold
    · intro id' _ _ hold
      obtain ⟨hleaves, -⟩ := hold.resolve_left (by simp [Cancels])
      exact absurd rfl (hleaves.1 i id)

theorem CancelInv.cancel (h : CancelInv s) (i : Nat) (id : String) (c : Choice) :
    CancelInv (ipcNext s i (.cancel id) c) := by
  rcases s.startCancel.cancel_cases id with
    ⟨token, hne, hflight, hr⟩ | ⟨hne, hno, hr⟩ | ⟨rfl, hr⟩
  · simp only [ipcNext, hr, CancelOutcome.tokens]
    have hregistered := h.flight hflight
    refine h.cons rfl (fun _ j hj ↦ ?_) (fun _ hid ↦ .inl hid) (fun _ _ hid ↦ .inl hid)
      (fun _ _ hid ↦ (hid.resolve_left (by rintro ⟨⟩)).2) ?_ ?_ ?_
    · obtain rfl : token = j := by simpa [hflight] using h.flying hj
      rfl
    · intro j hj
      rcases List.mem_cons.1 hj with rfl | hj
      · exact .inr ⟨id, hne, hregistered, i, rfl⟩
      · exact .inl hj
    · rintro j (hold | ⟨_, _, ⟨⟩⟩)
      · exact .tail _ hold
      · exact .head _
    · rintro id' - hunused (⟨i', outcome, houtcome⟩ | hold)
      · obtain ⟨-, rfl, -⟩ : i = i' ∧ id = id' ∧ _ := by simpa using houtcome
        exact absurd rfl (hunused _ (.tail _ hregistered))
      · exact hold.2
  · simp only [ipcNext, hr, CancelOutcome.tokens]
    refine h.cons rfl (fun _ j hj ↦ absurd (h.flying hj) (hno j)) ?_ (fun _ _ hid ↦ .inl hid)
      (fun _ _ hid ↦ (hid.resolve_left (by rintro ⟨⟩)).2) (fun _ hi ↦ .inl hi)
      (fun _ hj ↦ hj.resolve_right (by rintro ⟨_, _, ⟨⟩⟩)) ?_
    · rintro id' ⟨rfl⟩
      exact .inr ⟨hne, _, _, rfl⟩
    · rintro id' - - (⟨i', outcome, houtcome⟩ | hold)
      · obtain ⟨-, rfl, -⟩ : i = i' ∧ id = id' ∧ _ := by simpa using houtcome
        rfl
      · exact congrArg some (hold.1.2 i id rfl)
  · simp only [ipcNext, hr, CancelOutcome.tokens]
    refine h.cons rfl (fun hne ↦ absurd rfl hne) (fun _ hid ↦ .inl hid) (fun _ _ hid ↦ .inl hid)
      (fun _ _ hid ↦ (hid.resolve_left (by rintro ⟨⟩)).2) (fun _ hi ↦ .inl hi)
      (fun _ hj ↦ hj.resolve_right (by rintro ⟨_, _, ⟨⟩⟩)) ?_
    rintro id' hne - (⟨i', outcome, houtcome⟩ | hold)
    · obtain ⟨-, hid, -⟩ : i = i' ∧ "" = id' ∧ _ := by simpa using houtcome
      exact absurd hid.symm hne
    · exact hold.2

/-- Every call keeps the explanation, if a start brings an attempt that none brought before and
clears what it registered. -/
theorem CancelInv.next (h : CancelInv s) (i : Nat) (o : IpcOp κ) (c : Choice)
    (hunused : ∀ id, o = .register id → id ≠ "" → ∀ e ∈ s.log, e.attempt ≠ some id)
    (hclears : ∀ id', o = .clear id' → ∀ id j, s.startCancel.inFlight = some (id, j) → j = i) :
    CancelInv (ipcNext s i o c) := by
  have hoff (ho : OffCancel o) : CancelInv (ipcNext s i o c) := by
    obtain ⟨hslot, htokens⟩ := startCancel_next (s := s) (i := i) (c := c) ho
    have hlog := log_next s i o c
    have hneutral := neutral_next (s := s) (i := i) (c := c) ho
    rcases he : ipcEvent s i o c with - | e
    · rw [he] at hlog
      exact ⟨by rw [hslot, hlog]; exact h.armed, by rw [hslot, hlog]; exact h.flight,
        by rw [hslot, hlog]; exact h.flying, by rw [hlog]; exact h.explained,
        by rw [htokens, hlog]; exact h.token, by rw [htokens, hlog]; exact h.hits,
        by rw [hslot, hlog]; exact h.honoured⟩
    · rw [he] at hlog hneutral
      exact h.neutral (hneutral e (.head _)) hlog (by rw [hslot]; exact fun _ _ hid ↦ hid)
        (by rw [hslot]; exact fun _ _ _ hid ↦ hid) (by rw [hslot]) htokens
  cases o with
  | register id => exact h.register i id c (hunused id rfl)
  | cancel id => exact h.cancel i id c
  | clear id =>
    refine h.neutral (e := .cleared i) trivial rfl nofun (fun id' j hne hold ↦ ?_) rfl rfl
    exact absurd (congrArg Event.cleared (hclears id rfl id' j hold).symm) hne
  | _ => exact hoff trivial

theorem CancelInv.finish (h : CancelInv s) (i : Nat) (k : Kind κ) (r : Reply) :
    CancelInv (ipcFinish s i k r) := by
  unfold ipcFinish
  split
  · exact h.neutral (e := .stopped i) trivial rfl (fun _ _ hid ↦ hid) (fun _ _ _ hid ↦ hid) rfl rfl
  · exact h
  · exact ⟨h.armed, h.flight, h.flying, h.explained, h.token, h.hits, h.honoured⟩

/-! ### Unique attempts -/

/-- A start of the attempt has arrived. -/
def Used (s : Shared κ) (φ : Nat → Option (Kind κ × SlotPhase)) (id : String) : Prop :=
  (∃ i k, φ i = some (k, .first id)) ∨ ∃ e ∈ s.log, e.attempt = some id

/-- Only these attempts have arrived. -/
def UsedIn (ids : List String) (s : Shared κ) (φ : Nat → Option (Kind κ × SlotPhase)) : Prop :=
  ∀ id, id ≠ "" → Used s φ id → id ∈ ids

/-- A start that has not registered yet shares its attempt with no other. -/
def UniqueInv (s : Shared κ) (φ : Nat → Option (Kind κ × SlotPhase)) : Prop :=
  ∀ i k id, φ i = some (k, .first id) → id ≠ "" →
    (∀ j k', φ j = some (k', .first id) → j = i) ∧ ∀ e ∈ s.log, e.attempt ≠ some id

/-- Only a registration names an attempt. -/
theorem eq_register_of_attempt (he : e ∈ (ipcEvent s i o c).toList) (hid : e.attempt = some id) :
    o = .register id := by
  have hoff (ho : OffCancel o) : o = .register id := by
    have hneutral := neutral_next ho e he
    cases e with
    | registered i id => exact hneutral.elim
    | consumed i id => exact hneutral.elim
    | rejected i id => exact hneutral.elim
    | _ => cases hid
  cases o with
  | register id' =>
    obtain rfl : e = registerEvent i id' (s.startCancel.register id' i).1 := by
      simpa [ipcEvent] using he
    have hattempt : (registerEvent i id' (s.startCancel.register id' i).1 : Event κ).attempt =
        some id' := by
      cases (s.startCancel.register id' i).1 <;> rfl
    rw [Option.mem_unique hattempt hid]
  | cancel id' =>
    obtain rfl : e = .cancel i id' (s.startCancel.cancel id').1 := by simpa [ipcEvent] using he
    cases hid
  | clear id' =>
    obtain rfl : e = .cleared i := by simpa [ipcEvent] using he
    cases hid
  | _ => exact hoff trivial

/-- An attempt in the history was there, or its start makes this call. -/
theorem attempt_next (he : e ∈ (ipcNext s i o c).log) (hid : e.attempt = some id) :
    e ∈ s.log ∨ o = .register id := by
  rw [log_next] at he
  exact (List.mem_append.1 he).symm.imp_right fun he ↦ eq_register_of_attempt he hid

variable {φ : Nat → Option (Kind κ × SlotPhase)} {k : Kind κ}

/-- Who has not registered has not made a call. -/
theorem first_advanced {i fresh : Nat} {ph : SlotPhase} (hallows : slotProtocol.allows ph o)
    {j : Nat} {k' : Kind κ} (h : advanced s φ i fresh k ph o c j = some (k', .first id)) :
    j ≠ i ∧ φ j = some (k', .first id) := by
  rcases advanced_cases h with ⟨rfl, hy⟩ | ⟨closure, hy⟩ | hold
  · obtain ⟨-, hph⟩ := Prod.mk.inj hy
    rcases slotOp_cases o with ⟨id', rfl⟩ | ⟨id', rfl⟩ | ho
    · rw [after_register] at hph
      split at hph <;> cases hph
    · cases hph
    · rw [after_offSlot ho] at hph
      obtain rfl := hph
      cases o with
      | register id' => exact ho.elim
      | clear id' => exact ho.elim
      | _ => simp [slotProtocol] at hallows
  · cases (Prod.mk.inj hy).2
  · exact hold

section Advance

variable {s : Shared κ} {φ : Nat → Option (Kind κ × SlotPhase)} {i fresh : Nat} {k : Kind κ}
  {ph : SlotPhase} {o : IpcOp κ} {c : Choice}

theorem Used.of_advance {id : String} (hi : φ i = some (k, ph)) (hallows : slotProtocol.allows ph o)
    (h : Used (ipcNext s i o c) (advanced s φ i fresh k ph o c) id) : Used s φ id := by
  rcases h with ⟨j, k', hj⟩ | ⟨e, he, hid⟩
  · exact .inl ⟨j, k', (first_advanced hallows hj).2⟩
  · rcases attempt_next he hid with hold | rfl
    · exact .inr ⟨e, hold, hid⟩
    · obtain rfl : ph = .first id := hallows
      exact .inl ⟨i, k, hi⟩

theorem UniqueInv.advance (h : UniqueInv s φ) (hi : φ i = some (k, ph))
    (hallows : slotProtocol.allows ph o) :
    UniqueInv (ipcNext s i o c) (advanced s φ i fresh k ph o c) := by
  intro j k' id hj hne
  obtain ⟨hji, hj⟩ := first_advanced hallows hj
  obtain ⟨halone, hunused⟩ := h j k' id hj hne
  refine ⟨fun j' k'' hj' ↦ halone j' k'' (first_advanced hallows hj').2, fun e he hid ↦ ?_⟩
  rcases attempt_next he hid with hold | rfl
  · exact hunused e hold hid
  · obtain rfl : ph = .first id := hallows
    exact hji (halone i k hi).symm

end Advance

theorem attempts_finish {r : Reply} (he : e ∈ (ipcFinish s i k r).log) (hid : e.attempt = some id) :
    e ∈ s.log := by
  unfold ipcFinish at he
  split at he
  · rcases List.mem_cons.1 he with rfl | he
    · cases hid
    · exact he
  · exact he
  · exact he

theorem UsedIn.remove {ids : List String} {s s' : Shared κ} (h : UsedIn ids s φ) (i : Nat)
    (hlog : ∀ e ∈ s'.log, ∀ id, e.attempt = some id → e ∈ s.log) :
    UsedIn ids s' (Function.update φ i none) := by
  rintro id hne (⟨j, k, hj⟩ | ⟨e, he, hid⟩)
  · exact h id hne (.inl ⟨j, k, (of_update_none hj).2⟩)
  · exact h id hne (.inr ⟨e, hlog e he id hid, hid⟩)

theorem UniqueInv.remove {s s' : Shared κ} (h : UniqueInv s φ) (i : Nat)
    (hlog : ∀ e ∈ s'.log, ∀ id, e.attempt = some id → e ∈ s.log) :
    UniqueInv s' (Function.update φ i none) := by
  intro j k id hj hne
  obtain ⟨halone, hunused⟩ := h j k id (of_update_none hj).2 hne
  exact ⟨fun j' k' hj' ↦ halone j' k' (of_update_none hj').2,
    fun e he hid ↦ hunused e (hlog e he id hid) hid⟩

/-- A task that starts in front of its registration brings its attempt. -/
theorem attemptOf_of_enter (h : slotProtocol.enter k = .first id) (hne : id ≠ "") :
    attemptOf (.spawn k) = some id := by
  have hid : k.startId = some id := by
    have hfits := fits_enter k
    rwa [h] at hfits
  simp [attemptOf, hid, hne]

theorem UsedIn.spawn {ids : List String} (h : UsedIn ids s φ) (fresh : Nat)
    (hk : ∀ id, attemptOf (.spawn k) = some id → id ∈ ids) :
    UsedIn ids s (Function.update φ fresh (some (k, slotProtocol.enter k))) := by
  rintro id hne (⟨j, k', hj⟩ | he)
  · rcases of_update_some hj with ⟨-, hy⟩ | ⟨-, hold⟩
    · exact hk id (attemptOf_of_enter (Prod.mk.inj hy).2 hne)
    · exact h id hne (.inl ⟨j, k', hold⟩)
  · exact h id hne (.inr he)

theorem UniqueInv.spawn (h : UniqueInv s φ) (fresh : Nat)
    (hk : ∀ id, attemptOf (.spawn k) = some id → ¬Used s φ id) :
    UniqueInv s (Function.update φ fresh (some (k, slotProtocol.enter k))) := by
  intro j k' id hj hne
  rcases of_update_some hj with ⟨rfl, hy⟩ | ⟨-, hold⟩
  · have hunused := hk id (attemptOf_of_enter (Prod.mk.inj hy).2 hne)
    refine ⟨fun j' k'' hj' ↦ ?_, fun e he hid ↦ hunused (.inr ⟨e, he, hid⟩)⟩
    rcases of_update_some hj' with ⟨hjj, -⟩ | ⟨-, hold'⟩
    · exact hjj
    · exact absurd (.inl ⟨j', k'', hold'⟩) hunused
  · obtain ⟨halone, hunused⟩ := h j k' id hold hne
    refine ⟨fun j' k'' hj' ↦ ?_, hunused⟩
    rcases of_update_some hj' with ⟨-, hy⟩ | ⟨-, hold'⟩
    · exact absurd (.inl ⟨j, k', hold⟩) (hk id (attemptOf_of_enter (Prod.mk.inj hy).2 hne))
    · exact halone j' k'' hold'

/-! ### Runs -/

/-- `Used`, of a pool. -/
def UsedBy (p : IpcPool κ) (id : String) : Prop :=
  (∃ i t, p.tasks i = some t ∧ t.prog.head? = some (.register id)) ∨
    ∃ e ∈ p.shared.log, e.attempt = some id

variable {p : IpcPool κ}

theorem usedBy_iff (h : Tracked slotProtocol p φ) (id : String) :
    UsedBy p id ↔ Used p.shared φ id := by
  refine or_congr_left ⟨?_, ?_⟩
  · rintro ⟨i, ⟨k, prog⟩, ht, hhead⟩
    obtain ⟨ph, hφ, hobeys⟩ := h.here ht
    cases prog with
    | pure r => cases hhead
    | call o f =>
      obtain rfl : o = .register id := Option.some.inj hhead
      obtain rfl : ph = .first id := hobeys.1
      exact ⟨i, k, hφ⟩
  · rintro ⟨i, k, hφ⟩
    obtain ⟨prog, ht, hobeys⟩ := h.task hφ
    refine ⟨i, _, ht, ?_⟩
    cases prog with
    | pure r => rcases hobeys with h | h <;> cases h
    | call o f =>
      have hallows := hobeys.1
      cases o with
      | register id' =>
        obtain rfl : id = id' := by simpa [slotProtocol] using hallows
        rfl
      | clear id' => cases hallows
      | _ => simp [slotProtocol] at hallows

/-- The attempts that have arrived are those of the run. -/
theorem keeps_usedIn (ids : List String) :
    (ipc κ).Keeps slotProtocol (UsedIn ids) fun _ l ↦ ∀ id, attemptOf l = some id → id ∈ ids where
  follows := obeys_slot
  spawn _ hJ _ hC _ := hJ.spawn _ hC
  advance _ hJ _ _ hi hallows _ _ _ id hne hused := hJ id hne (hused.of_advance hi hallows)
  finish _ hJ _ _ _ _ := hJ.remove _ fun _ he _ hid ↦ attempts_finish he hid
  drop _ hJ _ _ _ _ _ := hJ.remove _ fun _ he _ _ ↦ he

/-- Slot, attempts and history, while no step brings an attempt again. -/
theorem keeps_cancelInv :
    (ipc κ).Keeps slotProtocol (fun s φ ↦ SlotInv s φ ∧ UniqueInv s φ ∧ CancelInv s)
      fun p l ↦ ∀ id, attemptOf l = some id → ¬UsedBy p id where
  follows := obeys_slot
  spawn htracked hJ _ hC _ := by
    refine ⟨hJ.1.spawn _ _, hJ.2.1.spawn _ fun id hid hused ↦ ?_, hJ.2.2⟩
    exact hC id hid ((usedBy_iff htracked id).2 hused)
  advance _ hJ _ _ hi hallows _ _ _ := by
    refine ⟨hJ.1.advance hi hallows, hJ.2.1.advance hi hallows, hJ.2.2.next _ _ _ ?_ ?_⟩
    · rintro id rfl hne
      obtain rfl := hallows
      exact (hJ.2.1 _ _ _ hi hne).2
    · rintro id' rfl id j hflight
      obtain rfl := hallows
      exact (Prod.mk.inj (Option.some.inj (hflight.symm.trans (hJ.1.own hi)))).2
  finish _ hJ _ _ _ _ := by
    refine ⟨hJ.1.remove _ (startCancel_finish _ _ _ _), hJ.2.1.remove _ ?_, hJ.2.2.finish _ _ _⟩
    exact fun _ he _ hid ↦ attempts_finish he hid
  drop _ hJ _ _ _ _ _ := by
    refine ⟨hJ.1.remove _ rfl, hJ.2.1.remove _ fun _ he _ _ ↦ he, ?_⟩
    exact { hJ.2.2 with }

/-- In a run without repeated attempts no step brings one again. -/
theorem along_of_nodup (hs : s.log = []) {ls : List (Label Choice (Kind κ))}
    (hls : (attempts ls).Nodup) :
    (ipc κ).Along (fun p l ↦ ∀ id, attemptOf l = some id → ¬UsedBy p id) (Pool.idle s) ls := by
  refine System.along_of_split _ fun before l after hsplit id hid hused ↦ ?_
  have hbefore : (ipc κ).Along (fun _ l ↦ ∀ id, attemptOf l = some id → id ∈ attempts before)
      (Pool.idle s) before := by
    refine System.along_of_split _ fun before' l' after' hsplit' id' hid' ↦ ?_
    exact List.mem_filterMap.2 ⟨l', by simp [hsplit'], hid'⟩
  have hidle : System.Holds slotProtocol (UsedIn (attempts before)) (Pool.idle s : IpcPool κ) := by
    refine ⟨_, tracked_idle _, ?_⟩
    rintro id' - (⟨j, k, hj⟩ | ⟨e, he, -⟩)
    · cases hj
    · rw [show (Pool.idle s : IpcPool κ).shared.log = [] from hs] at he
      cases he
  obtain ⟨φ, htracked, hused'⟩ := System.exec_of_keeps (keeps_usedIn _) hidle hbefore
  have hne : id ≠ "" := by
    rintro rfl
    cases l with
    | spawn k => simp [attemptOf, Option.filter_eq_some_iff] at hid
    | _ => cases hid
  have hmem := hused' id hne ((usedBy_iff htracked id).1 hused)
  rw [hsplit, attempts, List.filterMap_append, List.filterMap_cons, hid] at hls
  exact (List.nodup_append.1 hls).2.2 id hmem id (.head _) rfl

/-- A handler whose next call is `o`. -/
def Poised (p : IpcPool κ) (i : Nat) (o : IpcOp κ) : Prop :=
  ∃ t, p.tasks i = some t ∧ t.prog.head? = some o

/-- What the next call does, for a call that never waits. -/
theorem Poised.shared_step (h : Poised p i o) (ho : ipcEnabled p.shared p.live i o = true)
    (c : Choice) : ((ipc κ).step p (.advance i c)).shared = ipcNext p.shared i o c := by
  obtain ⟨⟨k, prog⟩, ht, hhead⟩ := h
  cases prog with
  | pure r => cases hhead
  | call o' f =>
    obtain rfl : o' = o := Option.some.inj hhead
    exact System.shared_advance _ ht ho

/-- How far a start or a cancel has come, by the history. -/
def Handled (s : Shared κ) (i : Nat) (k : Kind κ) (q : IpcM κ Reply) : Prop :=
  match k with
  | .request (.cancel id) => q = handleCancel id ∨ ∃ outcome, .cancel i id outcome ∈ s.log
  | .request (.start id onStartup config) =>
    q = handleStart id onStartup config ∨ (.consumed i id ∈ s.log ∧ q = .pure .cancelled) ∨
      (.rejected i id ∈ s.log ∧ q = .pure .conflict) ∨
      (.registered i id ∈ s.log ∧ q.Returns fun r ↦ r = .ok ∨ r = .failed)
  | _ => True

theorem Handled.mono {s s' : Shared κ} {q : IpcM κ Reply} (h : Handled s i k q)
    (hlog : ∀ e ∈ s.log, e ∈ s'.log) : Handled s' i k q := by
  cases k with
  | blocking closure => exact trivial
  | request r =>
    cases r with
    | cancel id => exact h.imp_right fun ⟨outcome, hcancel⟩ ↦ ⟨outcome, hlog _ hcancel⟩
    | start id onStartup config =>
      refine h.imp_right fun h ↦ ?_
      exact h.imp (.imp_left (hlog _)) (.imp (.imp_left (hlog _)) (.imp_left (hlog _)))
    | _ => exact trivial

theorem returns_startRegistered (id : String) (onStartup : Option StartupBehavior) (config : κ) :
    (startRegistered id onStartup config).Returns fun r ↦ r = .ok ∨ r = .failed := by
  refine fun _ _ _ succeeded _ _ _ _ ↦ ?_
  cases succeeded with
  | false => exact .inr rfl
  | true => exact .inl rfl

/-- The own calls of a handler. -/
theorem Handled.own {i fresh : Nat} {f : o.Ans → IpcM κ Reply} (h : Handled s i k (.call o f)) :
    Handled (ipcNext s i o c) i k (f (ipcAnswer s i fresh o c)) := by
  have hlog (e : Event κ) (he : e ∈ s.log) : e ∈ (ipcNext s i o c).log := by
    rw [log_next]
    exact List.mem_append_right _ he
  cases k with
  | blocking closure => exact trivial
  | request r =>
    cases r with
    | cancel id =>
      rcases h with hfirst | ⟨outcome, hcancel⟩
      · cases hfirst
        exact .inr ⟨_, .head _⟩
      · exact .inr ⟨outcome, hlog _ hcancel⟩
    | start id onStartup config =>
      rcases h with hfirst | ⟨-, hdone⟩ | ⟨-, hdone⟩ | ⟨hregistered, hrest⟩
      · cases hfirst
        have hevent : registerEvent i id (s.startCancel.register id i).1 ∈
            (ipcNext s i (.register id) c).log := .head _
        dsimp only [ipcAnswer]
        cases h : (s.startCancel.register id i).1 <;> rw [h] at hevent
        case consumed => exact .inr (.inl ⟨hevent, rfl⟩)
        case concurrent => exact .inr (.inr (.inl ⟨hevent, rfl⟩))
        case registered =>
          exact .inr (.inr (.inr ⟨hevent, returns_startRegistered id onStartup config⟩))
      · cases hdone
      · cases hdone
      · exact .inr (.inr (.inr ⟨hlog _ hregistered, hrest _⟩))
    | _ => exact trivial

theorem log_finish {r : Reply} (he : e ∈ s.log) : e ∈ (ipcFinish s i k r).log := by
  unfold ipcFinish
  split
  · exact .tail _ he
  · exact he
  · exact he

theorem carries_handled {J : Shared κ → (Nat → Option (Kind κ × SlotPhase)) → Prop}
    {C : IpcPool κ → Label Choice (Kind κ) → Prop} :
    (ipc κ).Carries slotProtocol J C fun s _ i k _ q ↦ Handled s i k q where
  enter s φ i k := by
    cases k with
    | blocking closure => exact trivial
    | request r => cases r <;> first | exact .inl rfl | exact trivial
  spawn _ _ _ := id
  own _ _ _ _ _ _ _ _ _ := Handled.own
  advance _ _ _ _ _ _ _ _ _ _ h := h.mono fun e he ↦ by
    rw [show ((ipc κ).next _ _ _ _ _).log = _ from log_next ..]
    exact List.mem_append_right _ he
  finish _ _ _ _ _ _ _ _ h := h.mono fun _ ↦ log_finish
  drop _ _ _ _ _ _ _ _ _ h := h.mono fun _ ↦ id

/-- Cancels are scoped to their attempts. -/
structure CancelScoped (p : IpcPool κ) : Prop where
  /-- A start that was refused through an arm was named by an earlier cancel. -/
  consumed : ∀ newer older i id, p.shared.log = newer ++ Event.consumed i id :: older →
    id ≠ "" ∧ ∃ e ∈ older, Cancels id e
  /-- So was a start whose token is cancelled. -/
  token : ∀ i ∈ p.shared.cancelled,
    ∃ id, id ≠ "" ∧ .registered i id ∈ p.shared.log ∧ ∃ j, .cancel j id (.hit i) ∈ p.shared.log
  /-- A cancel without an id changes nothing. -/
  emptyCancel : ∀ i c, Poised p i (.cancel "") →
    ((ipc κ).step p (.advance i c)).shared.startCancel = p.shared.startCancel ∧
      ((ipc κ).step p (.advance i c)).shared.cancelled = p.shared.cancelled
  /-- A start without an id consumes nothing, arms nothing and cancels nothing. -/
  emptyStart : ∀ i c, Poised p i (.register "") →
    (p.shared.startCancel.register "" i).1 ≠ .consumed ∧
      (∀ id, ((ipc κ).step p (.advance i c)).shared.startCancel.preArmed = some id →
        p.shared.startCancel.preArmed = some id) ∧
      ((ipc κ).step p (.advance i c)).shared.cancelled = p.shared.cancelled
  /-- A rejected start leaves the slot as it was. -/
  rejected : ∀ i id c, Poised p i (.register id) →
    (p.shared.startCancel.register id i).1 = .concurrent →
    ((ipc κ).step p (.advance i c)).shared.startCancel = p.shared.startCancel
  /-- A cancel of a start in progress cancels its token. -/
  inFlight : ∀ i j id c t, Poised p i (.cancel id) → id ≠ "" → p.tasks j = some t →
    InProgress id t → j ∈ ((ipc κ).step p (.advance i c)).shared.cancelled
  /-- A cancel request that is about to be answered was processed. If a start of its attempt was in
  flight then, the token of that start is cancelled. -/
  processed : ∀ i id r, p.tasks i = some ⟨.request (.cancel id), .pure r⟩ →
    ∃ newer outcome older, p.shared.log = newer ++ Event.cancel i id outcome :: older ∧
      (id ≠ "" → ∀ j, Flying id j older → j ∈ p.shared.cancelled)
  /-- So was a start: through its registration, or its refusal. -/
  answered : ∀ i id onStartup config r,
    p.tasks i = some ⟨.request (.start id onStartup config), .pure r⟩ →
    (.consumed i id ∈ p.shared.log ∧ r = .cancelled) ∨
      (.rejected i id ∈ p.shared.log ∧ r = .conflict) ∨
      (.registered i id ∈ p.shared.log ∧ (r = .ok ∨ r = .failed))
  /-- A start that was cancelled before it arrived is refused for that, unless another start
  proceeded or another cancel armed since. -/
  honoured : ∀ newer older e id, p.shared.log = newer ++ e :: older → e.attempt = some id →
    id ≠ "" → Since (LeavesArm id) (Cancels id) older → ∃ i, e = .consumed i id

/-- Who is in progress is in the slot. -/
theorem inFlight_of_inProgress (htracked : Tracked slotProtocol p φ) (hJ : SlotInv p.shared φ)
    {t : Task (IpcOp κ) IpcOp.Ans (Kind κ) Reply} (ht : p.tasks i = some t)
    (hprogress : InProgress id t) : p.shared.startCancel.inFlight = some (id, i) := by
  obtain ⟨hid, o, hhead, ho⟩ := hprogress
  obtain ⟨ph, hφ, hobeys⟩ := htracked.here ht
  obtain ⟨k, prog⟩ := t
  cases prog with
  | pure r => cases hhead
  | call o' f =>
    obtain rfl : o' = o := Option.some.inj hhead
    have hfits : ph.Fits (some id) := hid ▸ hJ.fits hφ
    have hallows := hobeys.1
    cases ph with
    | out => cases hfits
    | held id' =>
      obtain rfl : id = id' := Option.some.inj hfits
      exact hJ.own hφ
    | first id' =>
      cases o' with
      | register id'' => exact absurd rfl (ho id'')
      | clear id'' => cases hallows
      | _ => simp [slotProtocol] at hallows
    | done =>
      cases o' with
      | register id'' => exact absurd rfl (ho id'')
      | clear id'' => cases hallows
      | _ => simp [slotProtocol] at hallows

theorem cancelScoped_of_holds (htracked : Tracked slotProtocol p φ)
    (hJ : SlotInv p.shared φ ∧ UniqueInv p.shared φ ∧ CancelInv p.shared)
    (hhandled : Attended (fun s _ i k _ q ↦ Handled s i k q) p φ) : CancelScoped p := by
  obtain ⟨hslot, hunique, hcancel⟩ := hJ
  have hexplained {newer older : List (Event κ)} {e : Event κ}
      (hlog : p.shared.log = newer ++ e :: older) : Explained older e :=
    Justified.of_split (hlog ▸ hcancel.explained)
  have hanswer {i : Nat} {k : Kind κ} {r : Reply} (ht : p.tasks i = some ⟨k, .pure r⟩) :
      Handled p.shared i k (.pure r) := by
    obtain ⟨ph, hφ, -⟩ := htracked.here ht
    exact hhandled i _ ph ht hφ
  constructor
  case consumed =>
    intro newer older i id hlog
    exact hexplained hlog
  case token => exact fun i hi ↦ hcancel.token hi
  case emptyCancel =>
    intro i c hi
    rw [hi.shared_step rfl]
    rcases p.shared.startCancel.cancel_cases "" with ⟨-, hne, -⟩ | ⟨hne, -⟩ | ⟨-, hr⟩
    · exact absurd rfl hne
    · exact absurd rfl hne
    · simp [ipcNext, hr, CancelOutcome.tokens]
  case emptyStart =>
    intro i c hi
    rw [hi.shared_step rfl]
    rcases p.shared.startCancel.register_cases "" i with ⟨hne, -⟩ | ⟨-, -, hr⟩ | ⟨-, -, hr⟩
    · exact absurd rfl hne
    · simp [ipcNext, hr]
    · simp [ipcNext, hr]
  case rejected =>
    intro i id c hi hconcurrent
    rw [hi.shared_step rfl]
    rcases p.shared.startCancel.register_cases id i with ⟨-, -, hr⟩ | ⟨-, -, hr⟩ | ⟨-, -, hr⟩
    · simp [hr] at hconcurrent
    · simp [ipcNext, hr]
    · simp [hr] at hconcurrent
  case inFlight =>
    intro i j id c t hi hne ht hprogress
    have hflight := inFlight_of_inProgress htracked hslot ht hprogress
    rw [hi.shared_step rfl]
    rcases p.shared.startCancel.cancel_cases id with ⟨token, -, htoken, hr⟩ | ⟨-, hno, -⟩ | ⟨hid, -⟩
    · obtain rfl : token = j := by simpa [hflight] using htoken.symm
      simp [ipcNext, hr, CancelOutcome.tokens]
    · exact absurd hflight (hno j)
    · exact absurd hid hne
  case processed =>
    intro i id r ht
    obtain ⟨outcome, hmem⟩ := (hanswer ht).resolve_left (by rintro ⟨⟩)
    obtain ⟨newer, older, hlog⟩ := List.append_of_mem hmem
    refine ⟨newer, outcome, older, hlog, fun hne j hflying ↦ ?_⟩
    have hhit : outcome = .hit j := hexplained hlog hne j hflying
    exact hcancel.hits (hhit ▸ hmem)
  case answered =>
    intro i id onStartup config r ht
    rcases (hanswer ht).resolve_left (by rintro ⟨⟩) with ⟨he, hr⟩ | ⟨he, hr⟩ | ⟨he, hr⟩
    · exact .inl ⟨he, Prog.pure.inj hr⟩
    · exact .inr (.inl ⟨he, Prog.pure.inj hr⟩)
    · exact .inr (.inr ⟨he, hr⟩)
  case honoured =>
    intro newer older e id hlog hid hne hsince
    have he := hexplained hlog
    cases e with
    | consumed i id' => exact ⟨i, by rw [Option.some.inj hid]⟩
    | registered i id' =>
      cases hid
      exact absurd hsince (he hne)
    | rejected i id' =>
      cases hid
      exact absurd hsince (he hne)
    | _ => cases hid

/-- **Cancellation is scoped to its attempt**, in every run whose starts carry different attempts
or none. -/
theorem cancelScoped_of_run (target : Target κ) (preference : StartupPreference κ)
    (intent : FailClosed.Intent) (ls : List (Label Choice (Kind κ)))
    (hls : (attempts ls).Nodup) :
    CancelScoped ((ipc κ).exec (Pool.idle (Shared.init target preference intent)) ls) := by
  obtain ⟨φ, htracked, hJ, hhandled⟩ := System.exec_of_carries keeps_cancelInv carries_handled
    (tracked_idle (Shared.init target preference intent))
    ⟨⟨nofun, nofun⟩, nofun, nofun, nofun, False.elim, trivial, nofun, nofun,
      fun _ hsince ↦ hsince.elim⟩
    nofun (along_of_nodup rfl hls)
  exact cancelScoped_of_holds htracked hJ hhandled

/-- A cancel in front of its start, and a start of another attempt that is cancelled in flight. -/
def cancelBothWays : List (Label Choice (Kind Unit)) :=
  [.spawn (.request (.start "a" none ())), .advance 0 ⟨true, .start⟩,
    .spawn (.request (.cancel "a")), .advance 1 ⟨true, .start⟩,
    .spawn (.request (.cancel "b")), .advance 2 ⟨true, .start⟩,
    .spawn (.request (.start "b" none ()))]

theorem cancelScoped_cancelBothWays :
    (attempts cancelBothWays).Nodup ∧
      CancelScoped ((ipc Unit).exec (Pool.idle (Shared.init .off ⟨.doNotConnect, none⟩ .off))
        cancelBothWays) := by
  have hls : (attempts cancelBothWays).Nodup := by decide
  exact ⟨hls, cancelScoped_of_run .off ⟨.doNotConnect, none⟩ .off cancelBothWays hls⟩

end Hole.Bridge.Ipc
