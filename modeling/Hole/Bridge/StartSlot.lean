import Hole.Bridge.Ipc

/-!
# The start slot

`in_flight` is set under one lock before the awaits of a start and cleared by a plain statement
after them. A registered handler always finds its own attempt in the slot when it clears
(`holds_of_clear`), whatever is dropped; but a handler dropped at one of those awaits leaves its
attempt behind, and every later start is refused. The slot is never stranded exactly as long as no
start handler is dropped (`slotSound_of_run`).
-/

namespace Hole.Bridge.Ipc

open Effect
open Function (update update_of_ne)
open Prog (perform_bind only_call call_bind)

variable {κ : Type}

/-- The attempt of a start handler. -/
def Kind.startId : Kind κ → Option String
  | .request (.start id _ _) => some id
  | _ => none

/-- How far a handler has come with the slot. -/
inductive SlotPhase
  | out
  /-- A start, before its registration. -/
  | first (id : String)
  /-- A start, between its registration and its clear. -/
  | held (id : String)
  | done

/-- A phase of a handler. -/
def SlotPhase.Fits : SlotPhase → Option String → Prop
  | out, startId => startId = none
  | first id, startId => startId = some id
  | held id, startId => startId = some id
  | done, startId => startId ≠ none

/-- A start registers first and clears what it registered. -/
def slotProtocol : Protocol (IpcOp κ) IpcOp.Ans (Kind κ) Reply SlotPhase where
  enter
    | .request (.start id _ _) => .first id
    | _ => .out
  allows ph
    | .register id => ph = .first id
    | .clear id => ph = .held id
    | _ => ph = .out ∨ ∃ id, ph = .held id
  after ph
    | .register id => fun (a : RegisterOutcome) ↦ if a = .registered then .held id else .done
    | .clear _ => fun _ ↦ .done
    | _ => fun _ ↦ ph
  leaves ph _ := ph = .out ∨ ph = .done

/-- Calls that leave the slot alone. -/
def OffSlot : IpcOp κ → Prop
  | .register _ => False
  | .clear _ => False
  | _ => True

variable {ph : SlotPhase}

/-- A program that leaves the slot alone keeps the phase. -/
theorem follows_offSlot {α : Type} {p : IpcM κ α} (hp : p.Only OffSlot)
    (hph : ph = .out ∨ ∃ id, ph = .held id) : p.Follows slotProtocol (fun _ ph' ↦ ph' = ph) ph := by
  induction p with
  | pure a => exact rfl
  | call o k ih =>
    obtain ⟨ho, hk⟩ := hp
    cases o with
    | register id => exact ho.elim
    | clear id => exact ho.elim
    | _ => exact ⟨hph, fun a ↦ ih a (hk a)⟩

theorem only_stopWith (event : SessionEvent) : (stopWith event : IpcM κ Bool).Only OffSlot := by
  simp [stopWith, blocking, OffSlot]

theorem only_reload (config : κ) : (reload config).Only OffSlot := by
  simp only [reload, perform, perform_bind, only_call]
  refine ⟨trivial, fun path ↦ ?_⟩
  cases path with
  | start => simp [OffSlot]
  | hotSwap => simp
  | restart =>
    refine (only_stopWith .blipped).bind fun stopped ↦ ?_
    cases stopped <;> simp [OffSlot]

theorem only_settleHealth : (settleHealth : IpcM κ Unit).Only OffSlot := by
  simp only [settleHealth, perform, perform_bind, only_call]
  refine ⟨trivial, fun gaveUp ↦ ?_⟩
  cases gaveUp with
  | false => simp
  | true => exact (only_stopWith .gaveUp).bind fun _ ↦ by simp

/-- Only starts touch the slot. -/
theorem only_request {r : Request κ} (h : r.isStart = false) : r.body.Only OffSlot := by
  cases r with
  | start id onStartup config => cases h
  | cancel id => simp [Request.body, handleCancel, OffSlot]
  | stop => simp [Request.body, handleStop, lockProxy, stopWith, blocking, OffSlot]
  | reload config =>
    simp only [Request.body, handleReload, lockProxy, perform, perform_bind, only_call,
      call_bind]
    refine ⟨trivial, fun _ ↦ ⟨trivial, fun _ ↦ ⟨trivial, fun _ ↦ ?_⟩⟩⟩
    refine (only_reload config).bind fun succeeded ↦ ?_
    simp [persistAfterStart, blocking, OffSlot]
  | status =>
    simp only [Request.body, handleStatus, lockProxy, perform, perform_bind, only_call,
      call_bind]
    refine ⟨trivial, fun _ ↦ ⟨trivial, fun _ ↦ only_settleHealth.bind fun _ ↦ ?_⟩⟩
    simp [blocking, OffSlot]
  | metrics =>
    simp only [Request.body, handleMetrics, lockProxy, perform, perform_bind, only_call,
      call_bind]
    refine ⟨trivial, fun _ ↦ ⟨trivial, fun _ ↦ only_settleHealth.bind fun _ ↦ ?_⟩⟩
    simp [OffSlot]
  | unblock =>
    simp only [Request.body, handleUnblock, perform, perform_bind, only_call]
    refine ⟨trivial, fun released ↦ ?_⟩
    cases released <;> simp [blocking, OffSlot]

theorem only_closure (c : Closure κ) : c.body.Only OffSlot := by
  have hunder {body : IpcM κ Bool} (h : body.Only OffSlot) : (underPersist body).Only OffSlot := by
    simp only [underPersist, perform, perform_bind, only_call]
    exact ⟨trivial, fun _ ↦ h.bind fun stored ↦ by simp [OffSlot]⟩
  cases c with
  | records config onStartup succeeded snapshot =>
    refine hunder ?_
    cases succeeded with
    | true =>
      simp only [writeRecords, if_true, perform, perform_bind, only_call]
      refine ⟨trivial, fun generation ↦ ?_⟩
      cases generation != snapshot with
      | true => simp [writeStartRecords, writeConnected, OffSlot]
      | false =>
        simp only [writeStartRecords, writeConnected, perform, Bool.false_eq_true, if_false,
          perform_bind, only_call]
        refine ⟨trivial, fun stored ↦ ?_⟩
        cases stored <;> simp [OffSlot]
    | false => cases onStartup <;> simp [writeRecords, OffSlot]
  | session event => simp [Closure.body, OffSlot]
  | unblock =>
    refine hunder ?_
    simp only [writeUnblock, perform, perform_bind, only_call]
    refine ⟨trivial, fun saved ↦ ?_⟩
    cases saved with
    | false => simp
    | true =>
      simp only [if_true, only_call]
      refine ⟨trivial, fun _ ↦ ⟨trivial, fun off ↦ ?_⟩⟩
      cases off <;> simp [OffSlot]
  | presence => simp [Closure.body]

/-- A start registers, and clears what it registered. -/
theorem obeys_handleStart (id : String) (onStartup : Option StartupBehavior) (config : κ) :
    (handleStart id onStartup config).Obeys slotProtocol (.first id) := by
  refine And.intro rfl fun outcome ↦ ?_
  cases outcome with
  | consumed => exact .inr rfl
  | concurrent => exact .inr rfl
  | registered =>
    show (startRegistered id onStartup config).Obeys slotProtocol (.held id)
    simp [Prog.Obeys, startRegistered, lockProxy, persistAfterStart, blocking, slotProtocol]

theorem obeys_slot (k : Kind κ) : ((ipc κ).body k).Obeys slotProtocol (slotProtocol.enter k) := by
  have hout {p : IpcM κ Reply} (hp : p.Only OffSlot) : p.Obeys slotProtocol .out :=
    (follows_offSlot hp (.inl rfl)).mono fun _ _ h ↦ .inl h
  cases k with
  | request r =>
    cases r with
    | start id onStartup config => exact obeys_handleStart id onStartup config
    | cancel id => exact hout (only_request (r := .cancel id) rfl)
    | stop => exact hout (only_request (r := .stop) rfl)
    | reload config => exact hout (only_request (r := .reload config) rfl)
    | status => exact hout (only_request (r := .status) rfl)
    | metrics => exact hout (only_request (r := .metrics) rfl)
    | unblock => exact hout (only_request (r := .unblock) rfl)
  | blocking c => exact hout (only_closure c)

/-! ### The invariant -/

/-- Every handler is in a phase of its own, and who has registered is in the slot. -/
structure SlotInv (s : Shared κ) (φ : Nat → Option (Kind κ × SlotPhase)) : Prop where
  fits : ∀ {i k ph}, φ i = some (k, ph) → ph.Fits k.startId
  own : ∀ {i k id}, φ i = some (k, .held id) → s.startCancel.inFlight = some (id, i)

/-- Who is in the slot is a handler that has registered. -/
def Busy (s : Shared κ) (φ : Nat → Option (Kind κ × SlotPhase)) : Prop :=
  ∀ i id, s.startCancel.inFlight = some (id, i) → ∃ k, φ i = some (k, .held id)

theorem fits_enter (k : Kind κ) : (slotProtocol.enter k).Fits k.startId := by
  cases k with
  | request r => cases r <;> rfl
  | blocking c => rfl

theorem enter_ne_held (k : Kind κ) (id : String) : slotProtocol.enter k ≠ .held id := by
  cases k with
  | request r => cases r <;> exact nofun
  | blocking c => exact nofun

variable {s : Shared κ}

/-- No call but these changes who is in the slot. -/
theorem inFlight_next {i : Nat} {o : IpcOp κ} {c : Choice} (h : OffSlot o) :
    (ipcNext s i o c).startCancel.inFlight = s.startCancel.inFlight := by
  cases o with
  | register id => exact h.elim
  | clear id => exact h.elim
  | cancel id =>
    show (s.startCancel.cancel id).2.inFlight = _
    rcases s.startCancel.cancel_cases id with ⟨token, -, -, h⟩ | ⟨-, -, h⟩ | ⟨-, h⟩ <;> rw [h]
  | _ =>
    simp only [ipcNext, Shared.storeIf]
    try split <;> rfl

theorem after_offSlot {o : IpcOp κ} (h : OffSlot o) (a : o.Ans) :
    slotProtocol.after ph o a = ph := by
  cases o with
  | register id => exact h.elim
  | clear id => exact h.elim
  | _ => rfl

section Advance

variable {s : Shared κ} {φ : Nat → Option (Kind κ × SlotPhase)} {i fresh : Nat} {k : Kind κ}
  {ph : SlotPhase} {o : IpcOp κ} {c : Choice}

/-- The phases after a call. -/
def advanced (s : Shared κ) (φ : Nat → Option (Kind κ × SlotPhase)) (i fresh : Nat) (k : Kind κ)
    (ph : SlotPhase) (o : IpcOp κ) (c : Choice) : Nat → Option (Kind κ × SlotPhase) :=
  update (slotProtocol.start φ fresh (ipcFork o)) i
    (some (k, slotProtocol.after ph o (ipcAnswer s i fresh o c)))

/-- A call registers, clears or leaves the slot alone. -/
theorem slotOp_cases (o : IpcOp κ) :
    (∃ id, o = .register id) ∨ (∃ id, o = .clear id) ∨ OffSlot o := by
  cases o with
  | register id => exact .inl ⟨id, rfl⟩
  | clear id => exact .inr (.inl ⟨id, rfl⟩)
  | _ => exact .inr (.inr trivial)

/-- The phase after a registration. -/
theorem after_register (id : String) :
    slotProtocol.after ph (.register id) (ipcAnswer s i fresh (.register id) c) =
      if (s.startCancel.register id i).1 = .registered then .held id else .done :=
  rfl

/-- A phase after a call: the caller's own, that of a closure, or an old one. -/
theorem advanced_cases {j : Nat} {y : Kind κ × SlotPhase}
    (h : advanced s φ i fresh k ph o c j = some y) :
    (j = i ∧ y = (k, slotProtocol.after ph o (ipcAnswer s i fresh o c))) ∨
      (∃ closure, y = (.blocking closure, .out)) ∨ (j ≠ i ∧ φ j = some y) := by
  rcases Protocol.start_cases h with ⟨hj, hy⟩ | ⟨-, k', hfork, rfl⟩ | hother
  · exact .inl ⟨hj, (Option.some.inj hy).symm⟩
  · refine .inr (.inl ?_)
    cases o with
    | spawnBlocking closure =>
      cases hfork
      exact ⟨closure, rfl⟩
    | _ => cases hfork
  · exact .inr (.inr hother)

/-- The caller stays in a phase of its own. -/
theorem fits_after (hfits : ph.Fits k.startId) (hallows : slotProtocol.allows ph o) :
    (slotProtocol.after ph o (ipcAnswer s i fresh o c)).Fits k.startId := by
  rcases slotOp_cases o with ⟨id, rfl⟩ | ⟨id, rfl⟩ | ho
  · obtain rfl : ph = .first id := hallows
    have hid : k.startId = some id := hfits
    rw [after_register, hid]
    split
    · exact rfl
    · exact nofun
  · obtain rfl : ph = .held id := hallows
    have hid : k.startId = some id := hfits
    show k.startId ≠ none
    simp [hid]
  · rwa [after_offSlot ho]

theorem SlotInv.advance (h : SlotInv s φ) (hi : φ i = some (k, ph))
    (hallows : slotProtocol.allows ph o) :
    SlotInv (ipcNext s i o c) (advanced s φ i fresh k ph o c) := by
  -- who has registered is in the slot, so there is only one of them
  have halone {j : Nat} {k' : Kind κ} {id id' : String} (hheld : ph = .held id)
      (hj : φ j = some (k', .held id')) : j = i := by
    have hown := h.own hj
    rw [h.own (hheld ▸ hi)] at hown
    exact (Prod.mk.inj (Option.some.inj hown)).2.symm
  constructor
  case fits =>
    intro j k' ph' hj
    rcases advanced_cases hj with ⟨rfl, hy⟩ | ⟨closure, hy⟩ | ⟨-, hold⟩
    · cases hy
      exact fits_after (h.fits hi) hallows
    · cases hy
      exact rfl
    · exact h.fits hold
  case own =>
    intro j k' id hj
    rcases advanced_cases hj with ⟨rfl, hy⟩ | ⟨closure, hy⟩ | ⟨hne, hold⟩
    · obtain ⟨rfl, hph⟩ := Prod.mk.inj hy
      rcases slotOp_cases o with ⟨id', rfl⟩ | ⟨id', rfl⟩ | ho
      · rw [after_register] at hph
        rcases s.startCancel.register_cases id' j with ⟨-, -, hr⟩ | ⟨-, -, hr⟩ | ⟨-, -, hr⟩
        · simp [hr] at hph
        · simp [hr] at hph
        · obtain rfl : id = id' := by simpa [hr] using hph
          simp [ipcNext, hr]
      · cases hph
      · rw [after_offSlot ho] at hph
        rw [inFlight_next ho]
        exact h.own (hph ▸ hi)
    · cases (Prod.mk.inj hy).2
    · rcases slotOp_cases o with ⟨id', rfl⟩ | ⟨id', rfl⟩ | ho
      · have hown := h.own hold
        rcases s.startCancel.register_cases id' i with ⟨-, -, hr⟩ | ⟨-, -, hr⟩ | ⟨-, hnone, -⟩
        · simpa [ipcNext, hr] using hown
        · simpa [ipcNext, hr] using hown
        · cases hnone.symm.trans hown
      · exact absurd (halone hallows hold) hne
      · rw [inFlight_next ho]
        exact h.own hold

theorem Busy.advance (h : Busy s φ) (hi : φ i = some (k, ph)) (hfresh : φ fresh = none)
    (hallows : slotProtocol.allows ph o) :
    Busy (ipcNext s i o c) (advanced s φ i fresh k ph o c) := by
  intro j id hflight
  -- the slot as it was: its handler kept its phase
  have hkept (hold : s.startCancel.inFlight = some (id, j)) (hne : j ≠ i ∨ OffSlot o) :
      ∃ k', advanced s φ i fresh k ph o c j = some (k', .held id) := by
    obtain ⟨k', hj⟩ := h j id hold
    rcases eq_or_ne j i with rfl | hji
    · have ho := hne.resolve_left (by simp)
      obtain ⟨rfl, rfl⟩ := Prod.mk.inj (Option.mem_unique hi hj)
      exact ⟨k, by simp [advanced, after_offSlot ho]⟩
    · exact ⟨k', Protocol.start_of_ne hji hfresh hj⟩
  rcases slotOp_cases o with ⟨id', rfl⟩ | ⟨id', rfl⟩ | ho
  · obtain rfl : ph = .first id' := hallows
    have hstill (hold : s.startCancel.inFlight = some (id, j)) : j ≠ i := by
      rintro rfl
      obtain ⟨k', hj⟩ := h j id hold
      simp [hi] at hj
    rcases s.startCancel.register_cases id' i with ⟨-, -, hr⟩ | ⟨-, -, hr⟩ | ⟨-, -, hr⟩
    · have hold : s.startCancel.inFlight = some (id, j) := by simpa [ipcNext, hr] using hflight
      exact hkept hold (.inl (hstill hold))
    · have hold : s.startCancel.inFlight = some (id, j) := by simpa [ipcNext, hr] using hflight
      exact hkept hold (.inl (hstill hold))
    · obtain ⟨rfl, rfl⟩ : id' = id ∧ i = j := by simpa [ipcNext, hr] using hflight
      refine ⟨k, ?_⟩
      rw [advanced, Function.update_self, after_register, hr, if_pos rfl]
  · cases hflight
  · exact hkept (by rwa [inFlight_next ho] at hflight) (.inr ho)

end Advance

variable {φ : Nat → Option (Kind κ × SlotPhase)}

theorem SlotInv.spawn (h : SlotInv s φ) (k : Kind κ) (fresh : Nat) :
    SlotInv s (update φ fresh (some (k, slotProtocol.enter k))) := by
  constructor
  case fits =>
    intro j k' ph hj
    rcases of_update_some hj with ⟨-, hy⟩ | ⟨-, hold⟩
    · cases hy
      exact fits_enter k
    · exact h.fits hold
  case own =>
    intro j k' id hj
    rcases of_update_some hj with ⟨-, hy⟩ | ⟨-, hold⟩
    · exact absurd (Prod.mk.inj hy).2 (enter_ne_held k id)
    · exact h.own hold

/-- A handler that ends, one way or the other, leaves what the others have registered. -/
theorem SlotInv.remove {s s' : Shared κ} (h : SlotInv s φ) (i : Nat)
    (hs : s'.startCancel = s.startCancel) : SlotInv s' (update φ i none) :=
  ⟨fun hj ↦ h.fits (of_update_none hj).2, fun hj ↦ hs ▸ h.own (of_update_none hj).2⟩

theorem startCancel_finish (s : Shared κ) (i : Nat) (k : Kind κ) (r : Reply) :
    (ipcFinish s i k r).startCancel = s.startCancel := by
  unfold ipcFinish
  split <;> rfl

theorem Busy.spawn (h : Busy s φ) {x : Option (Kind κ × SlotPhase)} {fresh : Nat}
    (hfresh : φ fresh = none) : Busy s (update φ fresh x) := by
  intro j id hflight
  obtain ⟨k, hj⟩ := h j id hflight
  have hne : j ≠ fresh := by
    rintro rfl
    cases hfresh.symm.trans hj
  exact ⟨k, by rwa [update_of_ne hne]⟩

/-- A handler outside the slot can end. -/
theorem Busy.remove {s s' : Shared κ} (h : Busy s φ) {i : Nat} {k : Kind κ}
    (hi : φ i = some (k, ph)) (hph : ∀ id, ph ≠ .held id) (hs : s'.startCancel = s.startCancel) :
    Busy s' (update φ i none) := by
  intro j id hflight
  obtain ⟨k', hj⟩ := h j id (hs ▸ hflight)
  have hne : j ≠ i := by
    rintro rfl
    obtain ⟨-, rfl⟩ := Prod.mk.inj (Option.mem_unique hi hj)
    exact hph id rfl
  exact ⟨k', by rwa [update_of_ne hne]⟩

/-! ### Runs -/

/-- A step that does not drop a start handler. -/
def KeepsStarts (p : IpcPool κ) : Label Choice (Kind κ) → Prop
  | .drop i => ∀ t, p.tasks i = some t → t.kind.startId = none
  | _ => True

/-- Whatever is dropped, who has registered is in the slot. -/
theorem keeps_slotInv : (ipc κ).Keeps slotProtocol SlotInv fun _ _ ↦ True where
  follows := obeys_slot
  spawn _ hJ _ _ _ := hJ.spawn _ _
  advance _ hJ _ _ hi hallows _ _ _ := hJ.advance hi hallows
  finish _ hJ _ _ _ _ := hJ.remove _ (startCancel_finish _ _ _ _)
  drop _ hJ _ _ _ _ _ := hJ.remove _ rfl

/-- While no start handler is dropped, who is in the slot still runs. -/
theorem keeps_busy : (ipc κ).Keeps slotProtocol (fun s φ ↦ SlotInv s φ ∧ Busy s φ) KeepsStarts where
  follows := obeys_slot
  spawn _ hJ _ _ hfresh := ⟨hJ.1.spawn _ _, hJ.2.spawn hfresh⟩
  advance _ hJ _ _ hi hallows _ hfresh _ :=
    ⟨hJ.1.advance hi hallows, hJ.2.advance hi hfresh hallows⟩
  finish {p} _ i k r _ _ hJ _ _ hi hleaves := by
    have hkept := startCancel_finish p.shared i k r
    refine ⟨hJ.1.remove _ hkept, hJ.2.remove hi ?_ hkept⟩
    rintro id rfl
    rcases hleaves with h | h <;> cases h
  drop _ hJ hC ht hi _ _ := by
    refine ⟨hJ.1.remove _ rfl, hJ.2.remove hi ?_ rfl⟩
    -- who holds the slot is a start, and no start is dropped
    rintro id rfl
    have hid := hJ.1.fits hi
    cases hid.symm.trans (hC _ ht)

/-- A start of an attempt that has registered and not yet cleared. -/
def InProgress (id : String) (t : Task (IpcOp κ) IpcOp.Ans (Kind κ) Reply) : Prop :=
  t.kind.startId = some id ∧ ∃ o, t.prog.head? = some o ∧ ∀ id', o ≠ .register id'

/-- The start slot is not stranded. -/
structure SlotSound (p : IpcPool κ) : Prop where
  /-- Without a start handler the slot is free. -/
  free : (∀ i t, p.tasks i = some t → t.kind.startId = none) → p.shared.startCancel.inFlight = none
  /-- A start is about to be refused only while another is in progress. -/
  refused : ∀ i id t, p.tasks i = some t → t.prog.head? = some (.register id) →
    (p.shared.startCancel.register id i).1 = .concurrent →
    ∃ j t' id', j ≠ i ∧ p.tasks j = some t' ∧ InProgress id' t'
  /-- The assertion of a clear holds. -/
  asserted : ∀ i id t, p.tasks i = some t → t.prog.head? = some (.clear id) →
    p.shared.startCancel.holds id = true

variable {p : IpcPool κ}

/-- A registered handler finds its own attempt when it clears. -/
theorem holds_of_clear (hp : System.Holds slotProtocol SlotInv p) {i : Nat} {id : String}
    {t : Task (IpcOp κ) IpcOp.Ans (Kind κ) Reply} (ht : p.tasks i = some t)
    (hhead : t.prog.head? = some (.clear id)) : p.shared.startCancel.holds id = true := by
  obtain ⟨φ, htracked, hJ⟩ := hp
  obtain ⟨ph, hφ, hobeys⟩ := htracked.here ht
  obtain ⟨k, prog⟩ := t
  cases prog with
  | pure r => cases hhead
  | call o f =>
    obtain rfl : o = .clear id := Option.some.inj hhead
    obtain rfl : ph = .held id := hobeys.1
    simp [StartCancelState.holds, hJ.own hφ]

/-- Who is in the slot is in progress. -/
theorem inProgress_of_inFlight (hp : System.Holds slotProtocol (fun s φ ↦ SlotInv s φ ∧ Busy s φ) p)
    {i : Nat} {id : String} (hflight : p.shared.startCancel.inFlight = some (id, i)) :
    ∃ t, p.tasks i = some t ∧ InProgress id t := by
  obtain ⟨φ, htracked, hJ⟩ := hp
  obtain ⟨k, hφ⟩ := hJ.2 i id hflight
  obtain ⟨prog, ht, hobeys⟩ := htracked.task hφ
  refine ⟨_, ht, hJ.1.fits hφ, ?_⟩
  cases prog with
  | pure r => rcases hobeys with h | h <;> cases h
  | call o f =>
    refine ⟨o, rfl, ?_⟩
    rintro id'' rfl
    cases hobeys.1

theorem slotSound_of_holds (hp : System.Holds slotProtocol (fun s φ ↦ SlotInv s φ ∧ Busy s φ) p) :
    SlotSound p := by
  constructor
  case free =>
    intro hnone
    rcases hflight : p.shared.startCancel.inFlight with - | ⟨id, i⟩
    · rfl
    · obtain ⟨t, ht, hstart, -⟩ := inProgress_of_inFlight hp hflight
      cases (hnone i t ht).symm.trans hstart
  case refused =>
    intro i id t ht hhead hconcurrent
    rcases p.shared.startCancel.register_cases id i with ⟨-, -, hr⟩ | ⟨-, hsome, -⟩ | ⟨-, -, hr⟩
    · simp [hr] at hconcurrent
    · obtain ⟨⟨id', j⟩, hflight⟩ := Option.ne_none_iff_exists'.1 hsome
      obtain ⟨t', ht', hprogress⟩ := inProgress_of_inFlight hp hflight
      refine ⟨j, t', id', ?_, ht', hprogress⟩
      rintro rfl
      obtain rfl := Option.mem_unique ht ht'
      obtain ⟨o, ho, hregister⟩ := hprogress.2
      exact hregister id (Option.mem_unique ho hhead)
    · simp [hr] at hconcurrent
  case asserted =>
    intro i id t ht hhead
    obtain ⟨φ, htracked, hJ⟩ := hp
    exact holds_of_clear ⟨φ, htracked, hJ.1⟩ ht hhead

/-- The assertion of a clear never fires, in any run. -/
theorem asserted_of_run (target : Target κ) (preference : StartupPreference κ)
    (intent : FailClosed.Intent) (ls : List (Label Choice (Kind κ))) {i : Nat} {id : String}
    {t : Task (IpcOp κ) IpcOp.Ans (Kind κ) Reply}
    (ht : ((ipc κ).exec (Pool.idle (Shared.init target preference intent)) ls).tasks i = some t)
    (hhead : t.prog.head? = some (.clear id)) :
    ((ipc κ).exec (Pool.idle (Shared.init target preference intent)) ls).shared.startCancel.holds
      id = true := by
  refine holds_of_clear (System.exec_of_keeps keeps_slotInv ?_ (System.along_true _ _)) ht hhead
  exact ⟨_, tracked_idle _, nofun, nofun⟩

/-- A start that is about to clear its slot. -/
def startToClear : List (Label Choice (Kind Unit)) :=
  .spawn (.request (.start "a" none ())) :: (List.replicate 6 (.advance 0 ⟨true, .start⟩) ++
    List.replicate 5 (.advance 1 ⟨true, .start⟩) ++ [.finish 1] ++
    List.replicate 2 (.advance 0 ⟨true, .start⟩))

theorem asserted_startToClear : ((ipc Unit).exec
    (Pool.idle (Shared.init .off ⟨.doNotConnect, none⟩ .off)) startToClear).shared.startCancel.holds
      "a" = true :=
  asserted_of_run .off ⟨.doNotConnect, none⟩ .off startToClear (i := 0) rfl rfl

/-- **The start slot is never stranded** in a run that drops no start handler. -/
theorem slotSound_of_run (target : Target κ) (preference : StartupPreference κ)
    (intent : FailClosed.Intent) (ls : List (Label Choice (Kind κ)))
    (hls : (ipc κ).Along KeepsStarts (Pool.idle (Shared.init target preference intent)) ls) :
    SlotSound ((ipc κ).exec (Pool.idle (Shared.init target preference intent)) ls) := by
  refine slotSound_of_holds (System.exec_of_keeps keeps_busy ?_ hls)
  exact ⟨_, tracked_idle _, ⟨nofun, nofun⟩, nofun⟩

/-- A start in flight, and a second one behind it. -/
def startAndRetry : List (Label Choice (Kind Unit)) :=
  [.spawn (.request (.start "a" none ())), .advance 0 ⟨true, .start⟩, .advance 0 ⟨true, .start⟩,
    .advance 0 ⟨true, .start⟩, .spawn (.request (.start "b" none ()))]

theorem slotSound_startAndRetry :
    (ipc Unit).Along KeepsStarts (Pool.idle (Shared.init .off ⟨.doNotConnect, none⟩ .off))
        startAndRetry ∧
      SlotSound ((ipc Unit).exec (Pool.idle (Shared.init .off ⟨.doNotConnect, none⟩ .off))
        startAndRetry) := by
  have hls : (ipc Unit).Along KeepsStarts
      (Pool.idle (Shared.init .off ⟨.doNotConnect, none⟩ .off)) startAndRetry :=
    ⟨trivial, trivial, trivial, trivial, trivial, trivial⟩
  exact ⟨hls, slotSound_of_run .off ⟨.doNotConnect, none⟩ .off startAndRetry hls⟩

/-- A start that registers, lines up for the proxy lock, and is dropped there. -/
def startAndClose : List (Label Choice (Kind Unit)) :=
  [.spawn (.request (.start "a" none ())), .advance 0 ⟨true, .start⟩, .advance 0 ⟨true, .start⟩,
    .advance 0 ⟨true, .start⟩, .drop 0]

/-- The dropped start stays in the slot, and no handler is left to clear it. -/
theorem not_slotSound_startAndClose :
    ¬SlotSound ((ipc Unit).exec (Pool.idle (Shared.init .off ⟨.doNotConnect, none⟩ .off))
      startAndClose) := by
  intro h
  have hnone : ∀ i, ((ipc Unit).exec
      (Pool.idle (Shared.init .off ⟨.doNotConnect, none⟩ .off)) startAndClose).tasks i = none := by
    intro i
    cases i with
    | zero => rfl
    | succ i => rfl
  have hfree := h.free fun i t ht ↦ nomatch (hnone i).symm.trans ht
  cases (rfl : _ = some ("a", 0)).symm.trans hfree

end Hole.Bridge.Ipc
