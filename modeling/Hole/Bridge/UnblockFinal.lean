import Hole.Bridge.CancelScope
import Hole.Bridge.StopFinal

/-!
# An unblock is never undone by an older start

The records of a start (target, then startup candidate) and those of an unblock (target, kill-switch
intent, candidate) are separate files, written one after the other in a **section** under
`intent_persist`. The target may be moved by a session event at any time, under no lock but its
own. A start compares the generation it read before it touched the proxy with the one it finds in
its section, and declines its records if an unblock committed in between.

The invariant says what each phase of the section in progress leaves on disk; outside every section
the disk is as the last effective section left it (`Settled`), up to stops.

What a request has to leave on disk before it answers `Ok` is its duty (`Duty`). A closure does it,
and the handler, which waits for the closure, may not answer earlier (`servingProtocol`).

* `keeps_sectionInv`: every step of a run keeps the invariant.
* `carries_attends`: every step keeps how far each handler has come with its duty.
* `unblockFinal_of_run`: what holds in every run.
-/

namespace Hole.Bridge.Ipc

open Effect
open Function (update update_self update_of_ne)

variable {κ : Type}

/-! ### Sections in the history -/

/-- A section that writes target and candidate. -/
def Section.isEffective : Section κ → Bool
  | records _ _ declined => !declined
  | unblock => true

/-- The last effective section. -/
def lastEffective : List (Event κ) → Option (Section κ)
  | [] => none
  | .settled what :: log => if what.isEffective then some what else lastEffective log
  | _ :: log => lastEffective log

/-- A session event that moves the target to off. -/
def Event.stops : Event κ → Bool
  | .sessionEvent .userStopped => true
  | .sessionEvent .gaveUp => true
  | _ => false

/-- No stop since the start with this snapshot wrote its target. -/
def Unstopped (snapshot : Nat) (config : κ) (log : List (Event κ)) : Prop :=
  Since (fun e ↦ e.stops = false) (· = .wroteConnected snapshot config) log

/-- What the last effective section left on disk. -/
def Settled (s : Shared κ) : Prop :=
  match lastEffective s.log with
  | none => True
  | some .unblock => s.target = .off ∧ s.preference.candidate = none
  | some (.records snapshot config _) =>
    s.preference.candidate = some config ∧ (s.target = .connected config ∨ s.target = .off) ∧
      (Unstopped snapshot config s.log → s.target = .connected config)

/-- The bump of an unblock. -/
def Event.isBump : Event κ → Bool
  | .bumped _ => true
  | _ => false

/-- What must have come before an event. -/
def InTime (older : List (Event κ)) : Event κ → Prop
  | .wroteConnected snapshot _ => ∀ n, .bumped n ∈ older → n ≤ snapshot
  | .settled (.records snapshot config false) =>
    (∀ n, .bumped n ∈ older → n ≤ snapshot) ∧ .wroteConnected snapshot config ∈ older
  | .settled (.records snapshot _ true) => ∃ n, .bumped n ∈ older ∧ snapshot < n
  | .bumped n => n = older.countP Event.isBump + 1
  | _ => True

/-! ### Phases -/

/-- How far a task has come with a section. -/
inductive SectionPhase (κ : Type)
  | plain
  /-- A start or reload that has read the generation. -/
  | snap (snapshot : Nat)
  /-- The records of a success: before the section, in it, with the generations compared, with the
  target written. -/
  | ready (snapshot : Nat) (config : κ)
  | locked (snapshot : Nat) (config : κ)
  | compared (snapshot : Nat) (config : κ) (declined : Bool)
  | connected (snapshot : Nat) (config : κ)
  | recorded
  /-- An unblock: before the section, in it, and after each of its writes. -/
  | unblockReady
  | unblockLocked
  | unblockOff
  | unblockBumped
  | unblockIntent
  | unblockCleared
  /-- The records of a failure: before the section and in it. -/
  | otherReady
  | otherLocked
  | failed

/-- In a section. -/
def SectionPhase.inSection : SectionPhase κ → Bool
  | plain | snap _ | ready _ _ | unblockReady | otherReady => false
  | _ => true

/-- A phase of a request handler. -/
def SectionPhase.ofHandler : SectionPhase κ → Bool
  | plain | snap _ => true
  | _ => false

/-- The generation that a start has read. -/
def SectionPhase.snapshot? : SectionPhase κ → Option Nat
  | snap snapshot => some snapshot
  | ready snapshot _ => some snapshot
  | locked snapshot _ => some snapshot
  | compared snapshot _ _ => some snapshot
  | _ => none

/-- The writes of a section come in their order. -/
def sectionProtocol : Protocol (IpcOp κ) IpcOp.Ans (Kind κ) Reply (SectionPhase κ) where
  enter
    | .request _ => .plain
    | .blocking (.records config _ true snapshot) => .ready snapshot config
    | .blocking (.records _ _ false _) => .otherReady
    | .blocking .unblock => .unblockReady
    | .blocking _ => .plain
  allows ph
    | .lockPersist =>
      (∃ snapshot config, ph = .ready snapshot config) ∨ ph = .unblockReady ∨ ph = .otherReady
    | .unlockPersist =>
      ph = .recorded ∨ ph = .unblockCleared ∨ ph = .otherLocked ∨ ph = .failed
    | .generation => ph.ofHandler = true ∨ ∃ snapshot config, ph = .locked snapshot config
    | .spawnBlocking (.records _ _ true snapshot) => ph = .snap snapshot
    | .applyConnected snapshot config => ph = .compared snapshot config false
    | .applyRecord _ snapshot config true => ph = .compared snapshot config true
    | .applyRecord _ snapshot config false => ph = .connected snapshot config
    | .applyOnStartup _ => ph = .otherLocked
    | .applyOff => ph = .unblockLocked
    | .bumpGeneration => ph = .unblockOff
    | .intentOff => ph = .unblockBumped
    | .clearCandidate => ph = .unblockIntent
    | _ => True
  after ph
    | .lockPersist => fun _ ↦
      match ph with
      | .ready snapshot config => .locked snapshot config
      | .unblockReady => .unblockLocked
      | _ => .otherLocked
    | .unlockPersist => fun _ ↦ .plain
    | .generation => fun (generation : Nat) ↦
      match ph with
      | .locked snapshot config => .compared snapshot config (generation != snapshot)
      | _ => .snap generation
    | .applyConnected snapshot config => fun (ok : Bool) ↦
      if ok then .connected snapshot config else .failed
    | .applyRecord _ _ _ _ => fun (ok : Bool) ↦ if ok then .recorded else .failed
    | .applyOff => fun (ok : Bool) ↦ if ok then .unblockOff else .failed
    | .bumpGeneration => fun _ ↦ .unblockBumped
    | .intentOff => fun (ok : Bool) ↦ if ok then .unblockIntent else .failed
    | .clearCandidate => fun (ok : Bool) ↦ if ok then .unblockCleared else .failed
    | _ => fun _ ↦ ph
  leaves ph _ := ph.ofHandler = true

/-! ### The programs follow the protocol -/

/-- Calls that the protocol does not watch. -/
def OffSection : IpcOp κ → Prop
  | .lockPersist | .unlockPersist | .generation | .spawnBlocking (.records _ _ true _)
  | .applyConnected _ _ | .applyRecord _ _ _ _ | .applyOnStartup _ | .applyOff | .bumpGeneration
  | .intentOff | .clearCandidate => False
  | _ => True

variable {o : IpcOp κ}

theorem after_offSection (ho : OffSection o) (ph : SectionPhase κ) (a : o.Ans) :
    sectionProtocol.after ph o a = ph := by
  cases o <;> first | exact ho.elim | rfl

variable {onStartup : Option StartupBehavior}

/-- What a section may have come to when it is left. -/
def SectionPhase.isOver : SectionPhase κ → Prop
  | recorded | unblockCleared | otherLocked | failed => True
  | _ => False

variable {ph : SectionPhase κ}

/-- The calls of a task in a phase, and the phase after, where every file update succeeds. -/
inductive SectionStep (s : Shared κ) : SectionPhase κ → IpcOp κ → SectionPhase κ → Prop
  | lock (snapshot : Nat) (config : κ) :
    SectionStep s (.ready snapshot config) .lockPersist (.locked snapshot config)
  | lockUnblock : SectionStep s .unblockReady .lockPersist .unblockLocked
  | lockOther : SectionStep s .otherReady .lockPersist .otherLocked
  | unlock {ph : SectionPhase κ} (hph : ph.isOver) : SectionStep s ph .unlockPersist .plain
  | snapshot {ph : SectionPhase κ} (hph : ph.ofHandler = true) :
    SectionStep s ph .generation (.snap s.generation)
  | compare (snapshot : Nat) (config : κ) : SectionStep s (.locked snapshot config) .generation
      (.compared snapshot config (s.generation != snapshot))
  | connect (snapshot : Nat) (config : κ) :
    SectionStep s (.compared snapshot config false) (.applyConnected snapshot config)
      (.connected snapshot config)
  | record (onStartup : Option StartupBehavior) (snapshot : Nat) (config : κ) :
    SectionStep s (.connected snapshot config) (.applyRecord onStartup snapshot config false)
      .recorded
  | decline (onStartup : Option StartupBehavior) (snapshot : Nat) (config : κ) :
    SectionStep s (.compared snapshot config true) (.applyRecord onStartup snapshot config true)
      .recorded
  | onStartup (onStartup : Option StartupBehavior) :
    SectionStep s .otherLocked (.applyOnStartup onStartup) .otherLocked
  | off : SectionStep s .unblockLocked .applyOff .unblockOff
  | bump : SectionStep s .unblockOff .bumpGeneration .unblockBumped
  | intent : SectionStep s .unblockBumped .intentOff .unblockIntent
  | clear : SectionStep s .unblockIntent .clearCandidate .unblockCleared
  | hand (config : κ) (onStartup : Option StartupBehavior) (snapshot : Nat) :
    SectionStep s (.snap snapshot) (.spawnBlocking (.records config onStartup true snapshot))
      (.snap snapshot)
  | unwatched {o : IpcOp κ} (ho : OffSection o) (ph : SectionPhase κ) : SectionStep s ph o ph

/-- The protocol, call by call. -/
theorem sectionStep (s : Shared κ) (i fresh : Nat) {c : Choice}
    (hallows : sectionProtocol.allows ph o) (hok : o.isWrite = true → c.ok = true) :
    SectionStep s ph o (sectionProtocol.after ph o (ipcAnswer s i fresh o c)) := by
  have hplain (ho : OffSection o) :
      SectionStep s ph o (sectionProtocol.after ph o (ipcAnswer s i fresh o c)) := by
    rw [after_offSection ho]
    exact .unwatched ho ph
  -- a file update answers that it was stored
  have hstored {α : Type} (hwrite : o.isWrite = true) (x y : α) : (if c.ok then x else y) = x :=
    if_pos (hok hwrite)
  cases o with
  | lockPersist =>
    rcases hallows with ⟨snapshot, config, rfl⟩ | rfl | rfl
    · exact .lock snapshot config
    · exact .lockUnblock
    · exact .lockOther
  | unlockPersist => rcases hallows with rfl | rfl | rfl | rfl <;> exact .unlock trivial
  | generation =>
    rcases hallows with hph | ⟨snapshot, config, rfl⟩
    · cases ph with
      | plain => exact .snapshot rfl
      | snap snapshot => exact .snapshot rfl
      | _ => cases hph
    · exact .compare snapshot config
  | applyConnected snapshot config =>
    obtain rfl : ph = .compared snapshot config false := hallows
    show SectionStep s _ _ (if c.ok then _ else _)
    rw [hstored rfl]
    exact .connect snapshot config
  | applyRecord onStartup snapshot config declined =>
    show SectionStep s _ _ (if c.ok then _ else _)
    rw [hstored rfl]
    cases declined with
    | true =>
      obtain rfl : ph = .compared snapshot config true := hallows
      exact .decline onStartup snapshot config
    | false =>
      obtain rfl : ph = .connected snapshot config := hallows
      exact .record onStartup snapshot config
  | applyOnStartup onStartup =>
    obtain rfl : ph = .otherLocked := hallows
    exact .onStartup onStartup
  | applyOff =>
    obtain rfl : ph = .unblockLocked := hallows
    show SectionStep s _ _ (if c.ok then _ else _)
    rw [hstored rfl]
    exact .off
  | bumpGeneration =>
    obtain rfl : ph = .unblockOff := hallows
    exact .bump
  | intentOff =>
    obtain rfl : ph = .unblockBumped := hallows
    show SectionStep s _ _ (if c.ok then _ else _)
    rw [hstored rfl]
    exact .intent
  | clearCandidate =>
    obtain rfl : ph = .unblockIntent := hallows
    show SectionStep s _ _ (if c.ok then _ else _)
    rw [hstored rfl]
    exact .clear
  | spawnBlocking closure =>
    cases closure with
    | records config onStartup succeeded snapshot =>
      cases succeeded with
      | true =>
        obtain rfl : ph = .snap snapshot := hallows
        exact .hand config onStartup snapshot
      | false => exact hplain trivial
    | _ => exact hplain trivial
  | _ => exact hplain trivial

/-! ### The invariant -/

/-- What a section in progress has left on disk. -/
def SectionFact (s : Shared κ) : SectionPhase κ → Prop
  | .compared snapshot _ declined => Settled s ∧ declined = (s.generation != snapshot)
  | .connected snapshot config =>
    (s.target = .connected config ∨ s.target = .off) ∧
      (Unstopped snapshot config s.log → s.target = .connected config) ∧
      .wroteConnected snapshot config ∈ s.log ∧ s.generation = snapshot
  | .unblockOff | .unblockBumped | .unblockIntent => s.target = .off
  | .failed => False
  | _ => Settled s

/-- Who is in a section holds `intent_persist`, and outside every section the disk is settled. -/
structure SectionInv (s : Shared κ) (φ : Nat → Option (Kind κ × SectionPhase κ)) : Prop where
  handlers : ∀ {i r ph}, φ i = some (.request r, ph) → ph.ofHandler = true
  holder : ∀ {i k ph}, φ i = some (k, ph) → ph.inSection = true →
    s.persist = some i ∧ SectionFact s ph
  held : ∀ {i}, s.persist = some i → ∃ k ph, φ i = some (k, ph) ∧ ph.inSection = true
  free : s.persist = none → Settled s
  snaps : ∀ {i k ph snapshot}, φ i = some (k, ph) → ph.snapshot? = some snapshot →
    snapshot ≤ s.generation
  counted : s.generation = s.log.countP Event.isBump
  numbered : ∀ {n}, .bumped n ∈ s.log → n ≤ s.generation
  latest : s.generation = 0 ∨ .bumped s.generation ∈ s.log
  inTime : Justified InTime s.log

/-- A step outside the sections: the target may only be stopped. -/
structure Fades (s s' : Shared κ) : Prop where
  persist : s'.persist = s.persist
  generation : s'.generation = s.generation
  candidate : s'.preference.candidate = s.preference.candidate
  effective : lastEffective s'.log = lastEffective s.log
  unstopped : ∀ {snapshot config}, Unstopped snapshot config s'.log →
    Unstopped snapshot config s.log ∧ s'.target = s.target
  target : s'.target = s.target ∨ s'.target = .off
  log : ∀ {e}, e ∈ s.log → e ∈ s'.log
  bumped : ∀ {n}, .bumped n ∈ s'.log → .bumped n ∈ s.log
  bumps : s'.log.countP Event.isBump = s.log.countP Event.isBump
  inTime : Justified InTime s.log → Justified InTime s'.log

section Fades

variable {s s' : Shared κ}

theorem Fades.off (h : Fades s s') (hoff : s.target = .off) : s'.target = .off := by
  rcases h.target with heq | hoff'
  · exact heq.trans hoff
  · exact hoff'

theorem Fades.connected (h : Fades s s') {config : κ}
    (hs : s.target = .connected config ∨ s.target = .off) :
    s'.target = .connected config ∨ s'.target = .off := by
  rcases h.target with heq | hoff
  · rwa [heq]
  · exact .inr hoff

theorem Settled.fades (hs : Settled s) (h : Fades s s') : Settled s' := by
  unfold Settled at hs ⊢
  rw [h.effective]
  rcases hlast : lastEffective s.log with - | ⟨snapshot, config, declined⟩ | - <;> rw [hlast] at hs
  · exact trivial
  · -- A stop may have come since, and then the target is off.
    obtain ⟨hcandidate, htarget, hunstopped⟩ := hs
    refine ⟨h.candidate.trans hcandidate, h.connected htarget, fun hnew ↦ ?_⟩
    obtain ⟨hold, heq⟩ := h.unstopped hnew
    exact heq.trans (hunstopped hold)
  · exact ⟨h.off hs.1, h.candidate.trans hs.2⟩

theorem SectionFact.fades {ph : SectionPhase κ} (hs : SectionFact s ph) (h : Fades s s') :
    SectionFact s' ph := by
  cases ph with
  | compared snapshot config declined => exact ⟨hs.1.fades h, h.generation ▸ hs.2⟩
  | connected snapshot config =>
    obtain ⟨htarget, hunstopped, hwrote, hgeneration⟩ := hs
    refine ⟨h.connected htarget, fun hnew ↦ ?_, h.log hwrote, h.generation.trans hgeneration⟩
    obtain ⟨hold, heq⟩ := h.unstopped hnew
    exact heq.trans (hunstopped hold)
  | unblockOff => exact h.off hs
  | unblockBumped => exact h.off hs
  | unblockIntent => exact h.off hs
  | failed => exact hs
  | _ => exact Settled.fades hs h

/-- Outside the sections nothing happens to them. -/
theorem SectionInv.fades {φ φ' : Nat → Option (Kind κ × SectionPhase κ)} (h : SectionInv s φ)
    (hs : Fades s s')
    (hback : ∀ {j k ph}, φ' j = some (k, ph) → φ j = some (k, ph) ∨
      (ph.inSection = false ∧ (∀ r, k = .request r → ph.ofHandler = true) ∧
        ∀ snapshot, ph.snapshot? = some snapshot → snapshot ≤ s.generation))
    (hkeep : ∀ {j k ph}, φ j = some (k, ph) → ph.inSection = true → φ' j = some (k, ph)) :
    SectionInv s' φ' := by
  constructor
  case handlers =>
    intro j r ph hj
    rcases hback hj with hold | ⟨-, hhandler, -⟩
    · exact h.handlers hold
    · exact hhandler r rfl
  case holder =>
    intro j k ph hj hin
    rcases hback hj with hold | ⟨hout, -, -⟩
    · obtain ⟨hpersist, hfact⟩ := h.holder hold hin
      exact ⟨hs.persist.trans hpersist, hfact.fades hs⟩
    · cases hout.symm.trans hin
  case held =>
    intro j hj
    obtain ⟨k, ph, hold, hin⟩ := h.held (hs.persist ▸ hj)
    exact ⟨k, ph, hkeep hold hin, hin⟩
  case free => exact fun hnone ↦ (h.free (hs.persist ▸ hnone)).fades hs
  case snaps =>
    intro j k ph snapshot hj hsnap
    rw [hs.generation]
    rcases hback hj with hold | ⟨-, -, hle⟩
    · exact h.snaps hold hsnap
    · exact hle snapshot hsnap
  case counted => rw [hs.generation, hs.bumps, h.counted]
  case numbered =>
    intro n hn
    rw [hs.generation]
    exact h.numbered (hs.bumped hn)
  case latest =>
    rw [hs.generation]
    exact h.latest.imp_right hs.log
  case inTime => exact hs.inTime h.inTime

end Fades

/-- Events that the sections do not watch. -/
def Passing : Event κ → Prop
  | .bumped _ | .wroteConnected _ _ | .settled _ | .wroteOff => False
  | _ => True

variable {s s' : Shared κ}

theorem fades_of_event {e : Event κ} (he : Passing e) (hpersist : s'.persist = s.persist)
    (hgeneration : s'.generation = s.generation)
    (hcandidate : s'.preference.candidate = s.preference.candidate)
    (htarget : s'.target = s.target ∨ (e.stops = true ∧ s'.target = .off))
    (hlog : s'.log = e :: s.log) : Fades s s' := by
  have hwrote (snapshot : Nat) (config : κ) : e ≠ .wroteConnected snapshot config := by
    rintro rfl
    exact he
  constructor
  case persist => exact hpersist
  case generation => exact hgeneration
  case candidate => exact hcandidate
  case effective =>
    rw [hlog]
    cases e with
    | settled what => exact he.elim
    | _ => rfl
  case unstopped =>
    intro snapshot config hnew
    rw [hlog] at hnew
    obtain ⟨hstops, hold⟩ := hnew.resolve_left (hwrote snapshot config)
    refine ⟨hold, htarget.resolve_right fun hoff ↦ ?_⟩
    cases hstops.symm.trans hoff.1
  case target => exact htarget.imp_right fun hoff ↦ hoff.2
  case log => exact fun hold ↦ hlog ▸ .tail _ hold
  case bumped =>
    intro n hn
    rw [hlog] at hn
    rcases List.mem_cons.1 hn with rfl | hn
    · exact he.elim
    · exact hn
  case bumps =>
    rw [hlog]
    cases e with
    | bumped n => exact he.elim
    | _ => exact List.countP_cons_of_neg nofun
  case inTime =>
    intro hold
    rw [hlog]
    refine ⟨?_, hold⟩
    cases e with
    | wroteConnected snapshot config => exact he.elim
    | settled what => exact he.elim
    | bumped n => exact he.elim
    | _ => exact trivial

theorem fades_of_log (hpersist : s'.persist = s.persist)
    (hgeneration : s'.generation = s.generation)
    (hcandidate : s'.preference.candidate = s.preference.candidate) (htarget : s'.target = s.target)
    (hlog : s'.log = s.log) : Fades s s' :=
  ⟨hpersist, hgeneration, hcandidate, by rw [hlog], fun hnew ↦ ⟨hlog ▸ hnew, htarget⟩,
    .inl htarget, fun hold ↦ hlog ▸ hold, fun hn ↦ hlog ▸ hn, by rw [hlog],
    fun hold ↦ hlog ▸ hold⟩

theorem fades_next {s : Shared κ} {i : Nat} {c : Choice}
    (ho : OffSection o ∨ o = .generation ∨
      ∃ config onStartup snapshot, o = .spawnBlocking (.records config onStartup true snapshot)) :
    Fades s (ipcNext s i o c) := by
  rcases ho with ho | rfl | ⟨config, onStartup, snapshot, rfl⟩
  · cases o with
    | register id =>
      refine fades_of_event (e := registerEvent i id (s.startCancel.register id i).1) ?_
        rfl rfl rfl (.inl rfl) rfl
      cases (s.startCancel.register id i).1 <;> exact trivial
    | clear id => exact fades_of_event (e := .cleared i) trivial rfl rfl rfl (.inl rfl) rfl
    | cancel id =>
      exact fades_of_event (e := .cancel i id (s.startCancel.cancel id).1) trivial rfl rfl rfl
        (.inl rfl) rfl
    | queueProxy => exact fades_of_event (e := .queued i) trivial rfl rfl rfl (.inl rfl) rfl
    | startCancellable config =>
      simp only [ipcNext, Shared.storeIf]
      split
      · exact fades_of_event (e := .succeeded i) trivial rfl rfl rfl (.inl rfl) rfl
      · exact fades_of_log rfl rfl rfl rfl rfl
    | reloadPath =>
      simp only [ipcNext, Shared.storeIf]
      split
      · exact fades_of_event (e := .succeeded i) trivial rfl rfl rfl (.inl rfl) rfl
      · exact fades_of_log rfl rfl rfl rfl rfl
    | releaseAllCovers =>
      simp only [ipcNext, Shared.storeIf]
      split
      · exact fades_of_event (e := .released i) trivial rfl rfl rfl (.inl rfl) rfl
      · exact fades_of_log rfl rfl rfl rfl rfl
    | applyEvent event =>
      simp only [ipcNext, Shared.storeIf]
      split
      · refine fades_of_event (e := .sessionEvent event) trivial rfl rfl rfl ?_ rfl
        cases event with
        | userStopped => exact .inr ⟨rfl, rfl⟩
        | gaveUp => exact .inr ⟨rfl, rfl⟩
        | _ => exact .inl rfl
      · exact fades_of_log rfl rfl rfl rfl rfl
    | _ => first | exact ho.elim | exact fades_of_log rfl rfl rfl rfl rfl
  · exact fades_of_log rfl rfl rfl rfl rfl
  · exact fades_of_log rfl rfl rfl rfl rfl

section Step

variable {s s' : Shared κ} {φ : Nat → Option (Kind κ × SectionPhase κ)} {i : Nat} {k : Kind κ}
  {ph ph' : SectionPhase κ}

/-- The section in progress takes a step, or one begins or ends. -/
theorem SectionInv.set (h : SectionInv s φ) (hhandler : ∀ r, k = .request r → ph'.ofHandler = true)
    (halone : ∀ j k' ph, j ≠ i → φ j = some (k', ph) → ph.inSection = false)
    (hsection : (s'.persist = some i ∧ ph'.inSection = true ∧ SectionFact s' ph') ∨
      (s'.persist = none ∧ ph'.inSection = false ∧ Settled s'))
    (hgeneration : s.generation ≤ s'.generation)
    (hsnap : ∀ snapshot, ph'.snapshot? = some snapshot → snapshot ≤ s'.generation)
    (hcounted : s'.generation = s'.log.countP Event.isBump)
    (hnumbered : ∀ n, .bumped n ∈ s'.log → n ≤ s'.generation)
    (hlatest : s'.generation = 0 ∨ .bumped s'.generation ∈ s'.log)
    (hinTime : Justified InTime s'.log) :
    SectionInv s' (update φ i (some (k, ph'))) := by
  constructor
  case handlers =>
    intro j r ph hj
    rcases of_update_some hj with ⟨-, hy⟩ | ⟨-, hold⟩
    · obtain ⟨hk, rfl⟩ := Prod.mk.inj hy
      exact hhandler r hk
    · exact h.handlers hold
  case holder =>
    intro j k' ph hj hin
    rcases of_update_some hj with ⟨rfl, ⟨⟩⟩ | ⟨hne, hold⟩
    · rcases hsection with ⟨hpersist, -, hfact⟩ | ⟨-, hout, -⟩
      · exact ⟨hpersist, hfact⟩
      · cases hout.symm.trans hin
    · cases (halone j k' ph hne hold).symm.trans hin
  case held =>
    intro j hj
    rcases hsection with ⟨hpersist, hin, -⟩ | ⟨hnone, -, -⟩
    · obtain rfl := Option.mem_unique hpersist hj
      exact ⟨k, ph', update_self _ _ _, hin⟩
    · cases hnone.symm.trans hj
  case free =>
    intro hnone
    rcases hsection with ⟨hpersist, -, -⟩ | ⟨-, -, hsettled⟩
    · cases hnone.symm.trans hpersist
    · exact hsettled
  case snaps =>
    intro j k' ph snapshot hj hsnapshot
    rcases of_update_some hj with ⟨-, ⟨⟩⟩ | ⟨-, hold⟩
    · exact hsnap snapshot hsnapshot
    · exact Nat.le_trans (h.snaps hold hsnapshot) hgeneration
  case counted => exact hcounted
  case numbered => exact fun hn ↦ hnumbered _ hn
  case latest => exact hlatest
  case inTime => exact hinTime

/-- Only the holder of `intent_persist` is in a section. -/
theorem SectionInv.alone (h : SectionInv s φ) (hpersist : ∀ j, s.persist = some j → j = i)
    (j : Nat) (k' : Kind κ) (ph : SectionPhase κ) (hne : j ≠ i) (hj : φ j = some (k', ph)) :
    ph.inSection = false := by
  by_contra hin
  exact hne (hpersist j (h.holder hj (by simpa using hin)).1)

theorem SectionInv.not_request (h : SectionInv s φ) (hi : φ i = some (k, ph))
    (hph : ph.ofHandler = false) (r : Request κ) (hk : k = .request r) : ph'.ofHandler = true := by
  obtain rfl := hk
  cases hph.symm.trans (h.handlers hi)

/-- A step within a section that moves no generation. -/
theorem SectionInv.within (h : SectionInv s φ) (hi : φ i = some (k, ph))
    (hhandler : ph.ofHandler = false) (hin : ph.inSection = true) (hin' : ph'.inSection = true)
    (hpersist : s'.persist = s.persist) (hgeneration : s'.generation = s.generation)
    (hfact : SectionFact s' ph')
    (hsnap : ∀ snapshot, ph'.snapshot? = some snapshot → ph.snapshot? = some snapshot)
    (hlog : s'.log = s.log ∨ ∃ e, s'.log = e :: s.log ∧ InTime s.log e ∧ ∀ n, e ≠ .bumped n) :
    SectionInv s' (update φ i (some (k, ph'))) := by
  have hmine := (h.holder hi hin).1
  refine h.set (h.not_request hi hhandler) (h.alone fun j hj ↦ ?_)
    (.inl ⟨hpersist.trans hmine, hin', hfact⟩) (Nat.le_of_eq hgeneration.symm) ?_ ?_ ?_ ?_ ?_
  · exact Option.mem_unique hj hmine
  · intro snapshot hsnapshot
    rw [hgeneration]
    exact h.snaps hi (hsnap snapshot hsnapshot)
  · rw [hgeneration, h.counted]
    rcases hlog with hlog | ⟨e, hlog, -, hbumped⟩ <;> rw [hlog]
    have he : ¬e.isBump = true := by
      cases e with
      | bumped n => exact absurd rfl (hbumped n)
      | _ => exact nofun
    exact (List.countP_cons_of_neg he).symm
  · intro n hn
    rw [hgeneration]
    rcases hlog with hlog | ⟨e, hlog, -, hbumped⟩ <;> rw [hlog] at hn
    · exact h.numbered hn
    · rcases List.mem_cons.1 hn with he | hn
      · exact absurd he.symm (hbumped n)
      · exact h.numbered hn
  · rw [hgeneration]
    refine h.latest.imp_right fun hbumped ↦ ?_
    rcases hlog with hlog | ⟨e, hlog, -, -⟩ <;> rw [hlog]
    · exact hbumped
    · exact .tail _ hbumped
  · rcases hlog with hlog | ⟨e, hlog, hinTime, -⟩ <;> rw [hlog]
    · exact h.inTime
    · exact ⟨hinTime, h.inTime⟩

/-- A section begins. -/
theorem SectionInv.begin (h : SectionInv s φ) (hi : φ i = some (k, ph)) (hnone : s.persist = none)
    (hhandler : ph.ofHandler = false) (hin' : ph'.inSection = true)
    (hfact : Settled s → SectionFact { s with persist := some i } ph')
    (hsnap : ∀ snapshot, ph'.snapshot? = some snapshot → ph.snapshot? = some snapshot) :
    SectionInv { s with persist := some i } (update φ i (some (k, ph'))) := by
  refine h.set (h.not_request hi hhandler) (h.alone fun j hj ↦ nomatch hnone.symm.trans hj)
    (.inl ⟨rfl, hin', hfact (h.free hnone)⟩) (Nat.le_refl _) ?_ h.counted
    (fun n hn ↦ h.numbered hn) h.latest h.inTime
  exact fun snapshot hsnapshot ↦ h.snaps hi (hsnap snapshot hsnapshot)

/-- A section ends. -/
theorem SectionInv.leave (h : SectionInv s φ) (hi : φ i = some (k, ph)) (hin : ph.inSection = true)
    (hsettled : SectionFact s ph → Settled s) :
    SectionInv { s with persist := none } (update φ i (some (k, .plain))) := by
  obtain ⟨hmine, hfact⟩ := h.holder hi hin
  refine h.set (fun _ _ ↦ rfl) (h.alone fun j hj ↦ Option.mem_unique hj hmine)
    (.inr ⟨rfl, rfl, hsettled hfact⟩) (Nat.le_refl _) nofun h.counted
    (fun n hn ↦ h.numbered hn) h.latest h.inTime

variable {onStartup : Option StartupBehavior}

/-- The records of a start: the candidate follows the target. -/
theorem settled_record {snapshot : Nat} {config : κ}
    (h : SectionFact s (.connected snapshot config)) :
    Settled { s with
      preference := ⟨onStartup.getD s.preference.onStartup, some config⟩
      log := .settled (.records snapshot config false) :: s.log } := by
  obtain ⟨htarget, hunstopped, -, -⟩ := h
  refine ⟨rfl, htarget, fun hnew ↦ hunstopped ?_⟩
  exact (hnew.resolve_left nofun).2

/-- Declined records leave target and candidate alone. -/
theorem settled_decline {snapshot : Nat} {config : κ} (h : Settled s) :
    Settled { s with
      preference := ⟨onStartup.getD s.preference.onStartup, s.preference.candidate⟩
      log := .settled (.records snapshot config true) :: s.log } := by
  have heffective : lastEffective (.settled (.records snapshot config true) :: s.log) =
      lastEffective s.log := rfl
  unfold Settled at h ⊢
  rw [heffective]
  rcases hlast : lastEffective s.log with - | ⟨snapshot', config', declined⟩ | - <;>
    rw [hlast] at h
  · exact trivial
  · obtain ⟨hcandidate, htarget, hunstopped⟩ := h
    exact ⟨hcandidate, htarget, fun hnew ↦ hunstopped (hnew.resolve_left nofun).2⟩
  · exact h

theorem SectionInv.step {o : IpcOp κ} {c : Choice} {live : Nat → Bool} (h : SectionInv s φ)
    (hi : φ i = some (k, ph)) (hstep : SectionStep s ph o ph')
    (ho : ¬OffSection o) (hgeneration : ph.ofHandler = false)
    (henabled : ipcEnabled s live i o = true) (hok : o.isWrite = true → c.ok = true) :
    SectionInv (ipcNext s i o c) (update φ i (some (k, ph'))) := by
  -- While a section is in progress its phase says what is on disk, and no other one is in progress.
  cases hstep with
  | lock snapshot config =>
    exact h.begin hi (by simpa [ipcEnabled] using henabled) rfl rfl id fun _ hsnap ↦ hsnap
  | lockUnblock =>
    exact h.begin hi (by simpa [ipcEnabled] using henabled) rfl rfl id (by rintro _ ⟨⟩)
  | lockOther =>
    exact h.begin hi (by simpa [ipcEnabled] using henabled) rfl rfl id (by rintro _ ⟨⟩)
  | unlock hph =>
    cases ph with
    | recorded => exact h.leave hi rfl id
    | unblockCleared => exact h.leave hi rfl id
    | otherLocked => exact h.leave hi rfl id
    | failed => exact h.leave hi rfl False.elim
    | _ => exact hph.elim
  | compare snapshot config =>
    exact h.within hi rfl rfl rfl rfl rfl ⟨(h.holder hi rfl).2, rfl⟩ (fun _ hsnap ↦ hsnap)
      (.inl rfl)
  | connect snapshot config =>
    obtain ⟨-, hsettled, hcompared⟩ := h.holder hi rfl
    have hequal : s.generation = snapshot := by simpa using hcompared.symm
    rw [ipcNext, Shared.storeIf, if_pos (hok rfl)]
    refine h.within hi rfl rfl rfl rfl rfl ?_ (by rintro _ ⟨⟩) (.inr ⟨_, rfl, ?_, (by rintro _ ⟨⟩)⟩)
    · exact ⟨.inl rfl, fun _ ↦ rfl, .head _, hequal⟩
    · exact fun n hn ↦ hequal ▸ h.numbered hn
  | record onStartup snapshot config =>
    have hfact := (h.holder hi rfl).2
    obtain ⟨-, -, hwrote, hequal⟩ := hfact
    rw [ipcNext, Shared.storeIf, if_pos (hok rfl)]
    refine h.within hi rfl rfl rfl rfl rfl (settled_record (h.holder hi rfl).2) (by rintro _ ⟨⟩)
      (.inr ⟨_, rfl, ?_, (by rintro _ ⟨⟩)⟩)
    exact ⟨fun n hn ↦ hequal ▸ h.numbered hn, hwrote⟩
  | decline onStartup snapshot config =>
    obtain ⟨-, hsettled, hcompared⟩ := h.holder hi rfl
    have hne : s.generation ≠ snapshot := by simpa using hcompared.symm
    have hle : snapshot ≤ s.generation := h.snaps hi rfl
    rw [ipcNext, Shared.storeIf, if_pos (hok rfl)]
    refine h.within hi rfl rfl rfl rfl rfl (settled_decline hsettled) (by rintro _ ⟨⟩)
      (.inr ⟨_, rfl, ?_, (by rintro _ ⟨⟩)⟩)
    -- the generation has moved past the snapshot, so it is that of a bump
    have hlt : snapshot < s.generation := by omega
    refine ⟨s.generation, h.latest.resolve_left ?_, hlt⟩
    omega
  | onStartup onStartup =>
    rw [ipcNext, Shared.storeIf, if_pos (hok rfl)]
    exact h.within hi rfl rfl rfl rfl rfl (h.holder hi rfl).2 (by rintro _ ⟨⟩) (.inl rfl)
  | off =>
    rw [ipcNext, Shared.storeIf, if_pos (hok rfl)]
    exact h.within hi rfl rfl rfl rfl rfl rfl (by rintro _ ⟨⟩)
      (.inr ⟨_, rfl, trivial, by rintro _ ⟨⟩⟩)
  | bump =>
    obtain ⟨hmine, hoff⟩ := h.holder hi rfl
    refine h.set (h.not_request hi rfl) (h.alone fun j hj ↦ ?_) (.inl ⟨hmine, rfl, hoff⟩)
      (Nat.le_succ _) (by rintro _ ⟨⟩) ?_ ?_ (.inr (.head _)) ⟨congrArg (· + 1) h.counted, h.inTime⟩
    · exact Option.mem_unique hj hmine
    · rw [show (ipcNext s i .bumpGeneration c).log = .bumped (s.generation + 1) :: s.log from rfl,
        List.countP_cons_of_pos rfl, ← h.counted]
      rfl
    · intro n hn
      rcases List.mem_cons.1 hn with he | hn
      · have hn : n = s.generation + 1 := by simpa using he
        exact Nat.le_of_eq hn
      · exact Nat.le_succ_of_le (h.numbered hn)
  | intent =>
    rw [ipcNext, Shared.storeIf, if_pos (hok rfl)]
    exact h.within hi rfl rfl rfl rfl rfl (h.holder hi rfl).2 (by rintro _ ⟨⟩) (.inl rfl)
  | clear =>
    rw [ipcNext, Shared.storeIf, if_pos (hok rfl)]
    exact h.within hi rfl rfl rfl rfl rfl ⟨(h.holder hi rfl).2, rfl⟩ (by rintro _ ⟨⟩)
      (.inr ⟨_, rfl, trivial, by rintro _ ⟨⟩⟩)
  | snapshot hph => cases hgeneration.symm.trans hph
  | hand config onStartup snapshot => cases hgeneration
  | unwatched ho' => exact absurd ho' ho

end Step

/-! ### Runs -/

/-- A task starts outside the sections. -/
theorem enter_section (k : Kind κ) :
    (sectionProtocol.enter k).inSection = false ∧
      (∀ r, k = .request r → (sectionProtocol.enter k).ofHandler = true) := by
  cases k with
  | request r => exact ⟨rfl, fun _ _ ↦ rfl⟩
  | blocking closure =>
    cases closure with
    | records config onStartup succeeded snapshot => cases succeeded <;> exact ⟨rfl, nofun⟩
    | _ => exact ⟨rfl, nofun⟩

section Advance

variable {s : Shared κ} {φ : Nat → Option (Kind κ × SectionPhase κ)} {i fresh : Nat} {k : Kind κ}
  {ph ph' : SectionPhase κ} {o : IpcOp κ} {c : Choice} {live : Nat → Bool}

/-- The snapshot of a closure is the one its handler has read. -/
theorem snapshot_of_fork {closure : Kind κ} {snapshot : Nat} (hallows : sectionProtocol.allows ph o)
    (hfork : ipcFork o = some closure)
    (hsnapshot : (sectionProtocol.enter closure).snapshot? = some snapshot) :
    ph.snapshot? = some snapshot := by
  cases o with
  | spawnBlocking closure' =>
    cases hfork
    cases closure' with
    | records config onStartup succeeded snapshot' =>
      cases succeeded with
      | false => cases hsnapshot
      | true =>
        obtain rfl : ph = .snap snapshot' := hallows
        exact hsnapshot
    | _ => cases hsnapshot
  | _ => cases hfork

/-- A step outside the sections. -/
theorem SectionInv.pass (h : SectionInv s φ) (hi : φ i = some (k, ph)) (hfresh : φ fresh = none)
    (hallows : sectionProtocol.allows ph o) (hfades : Fades s (ipcNext s i o c))
    (hph : ph' = ph ∨ (ph.ofHandler = true ∧ ph' = .snap s.generation)) :
    SectionInv (ipcNext s i o c)
      (update (sectionProtocol.start φ fresh (ipcFork o)) i (some (k, ph'))) := by
  refine h.fades hfades ?_ ?_
  · -- The task itself, the closure that it starts, and every other one.
    intro j k' ph'' hj
    rcases Protocol.start_cases hj with ⟨rfl, hy⟩ | ⟨-, closure, hfork, hy⟩ | ⟨-, hold⟩
    · cases hy
      rcases hph with rfl | ⟨-, rfl⟩
      · exact .inl hi
      · refine .inr ⟨rfl, fun _ _ ↦ rfl, fun snapshot hsnapshot ↦ ?_⟩
        exact Nat.le_of_eq (Option.some.inj hsnapshot).symm
    · cases hy
      obtain ⟨hout, hhandler⟩ := enter_section k'
      refine .inr ⟨hout, hhandler, fun snapshot hsnapshot ↦ ?_⟩
      exact h.snaps hi (snapshot_of_fork hallows hfork hsnapshot)
    · exact .inl hold
  · intro j k' ph'' hj hin
    rcases eq_or_ne j i with rfl | hne
    · obtain ⟨rfl, rfl⟩ := Prod.mk.inj (Option.mem_unique hi hj)
      rcases hph with rfl | ⟨hhandler, -⟩
      · exact update_self _ _ _
      · cases ph with
        | plain => cases hin
        | snap snapshot => cases hin
        | _ => cases hhandler
    · exact Protocol.start_of_ne hne hfresh hj

theorem SectionInv.advance (h : SectionInv s φ) (hi : φ i = some (k, ph))
    (hfresh : φ fresh = none) (hallows : sectionProtocol.allows ph o)
    (henabled : ipcEnabled s live i o = true) (hok : o.isWrite = true → c.ok = true) :
    SectionInv (ipcNext s i o c) (update (sectionProtocol.start φ fresh (ipcFork o)) i
        (some (k, sectionProtocol.after ph o (ipcAnswer s i fresh o c)))) := by
  have hstep := sectionStep s i fresh hallows hok
  generalize sectionProtocol.after ph o (ipcAnswer s i fresh o c) = ph' at hstep ⊢
  by_cases hoff : OffSection o
  · -- A call that no section watches leaves the phase as it is.
    obtain rfl : ph' = ph := by
      cases hstep with
      | unwatched ho => rfl
      | hand config onStartup snapshot => rfl
      | _ => exact hoff.elim
    exact h.pass hi hfresh hallows (fades_next (.inl hoff)) (.inl rfl)
  · have hstep' := hstep
    cases hstep with
    | unwatched ho => exact absurd ho hoff
    | hand config onStartup snapshot =>
      refine h.pass hi hfresh hallows (fades_next (.inr (.inr ?_))) (.inl rfl)
      exact ⟨config, onStartup, snapshot, rfl⟩
    | snapshot hph =>
      exact h.pass hi hfresh hallows (fades_next (.inr (.inl rfl))) (.inr ⟨hph, rfl⟩)
    | unlock hph =>
      refine h.step hi hstep' hoff ?_ henabled hok
      cases ph with
      | plain => exact hph.elim
      | snap snapshot => exact hph.elim
      | _ => rfl
    | _ => exact h.step hi hstep' hoff rfl henabled hok

/-- A handler ends, or a closure past its section. -/
theorem SectionInv.remove {s' : Shared κ} (h : SectionInv s φ) (hi : φ i = some (k, ph))
    (hph : ph.ofHandler = true) (hfades : Fades s s') :
    SectionInv s' (update φ i none) := by
  refine h.fades hfades (fun hj ↦ .inl (of_update_none hj).2) ?_
  intro j k' ph' hj hin
  have hne : j ≠ i := by
    rintro rfl
    obtain ⟨rfl, rfl⟩ := Prod.mk.inj (Option.mem_unique hi hj)
    cases ph with
    | plain => cases hin
    | snap snapshot => cases hin
    | _ => cases hph
  rwa [update_of_ne hne]

end Advance

/-- What a handler has to leave on disk before it answers that all is well. -/
inductive Duty (κ : Type)
  | unblock
  | records (config : κ)

/-- The duty of a request. -/
def Request.duty : Request κ → Option (Duty κ)
  | unblock => some .unblock
  | start _ _ config => some (.records config)
  | reload config => some (.records config)
  | _ => none

namespace Duty

/-- The closure does it. -/
def Serves : Duty κ → Closure κ → Prop
  | unblock, .unblock => True
  | records config, .records config' _ true _ => config' = config
  | _, _ => False

/-- The answer from which on it is due: the covers are released, or the proxy runs. -/
def starts : Duty κ → (o : IpcOp κ) → o.Ans → Bool
  | unblock, .releaseAllCovers, (ok : Bool) => ok
  | records _, .startCancellable _, (ok : Bool) => ok
  | records _, .reloadPath, (path : ReloadPath) => path = .hotSwap
  | _, _, _ => false

/-- The event of that answer. -/
def began (i : Nat) : Duty κ → Event κ
  | unblock => .released i
  | records _ => .succeeded i

/-- All that it takes was written, after what came before. The generation of the records was read
before that. -/
def Done (d : Duty κ) (newer older : List (Event κ)) (s : Shared κ) : Prop :=
  match d with
  | unblock => .wroteOff ∈ newer ∧ (∃ n, .bumped n ∈ newer) ∧ s.intent = .off ∧
      .settled .unblock ∈ newer
  | records config => ∃ snapshot declined, snapshot ≤ older.countP Event.isBump ∧
      .settled (.records snapshot config declined) ∈ newer

/-- What its closure has left when it comes to a phase. -/
def Left (d : Duty κ) (newer older : List (Event κ)) (s : Shared κ) : SectionPhase κ → Prop
  | .ready snapshot config | .locked snapshot config | .compared snapshot config _
  | .connected snapshot config => d = .records config ∧ snapshot ≤ older.countP Event.isBump
  | .unblockReady | .unblockLocked => d = .unblock
  | .unblockOff => d = .unblock ∧ .wroteOff ∈ newer
  | .unblockBumped => d = .unblock ∧ .wroteOff ∈ newer ∧ ∃ n, .bumped n ∈ newer
  | .unblockIntent =>
    d = .unblock ∧ .wroteOff ∈ newer ∧ (∃ n, .bumped n ∈ newer) ∧ s.intent = .off
  | .recorded | .unblockCleared | .plain | .snap _ => d.Done newer older s
  | .otherReady | .otherLocked | .failed => False

variable {d : Duty κ} {newer older : List (Event κ)} {s s' : Shared κ} {ph ph' : SectionPhase κ}

theorem Done.mono (h : d.Done newer older s) (hintent : s.intent = .off → s'.intent = .off)
    (events : List (Event κ)) : d.Done (events ++ newer) older s' := by
  have hmem {e : Event κ} (he : e ∈ newer) : e ∈ events ++ newer := List.mem_append_right _ he
  cases d with
  | unblock =>
    obtain ⟨hoff, ⟨n, hn⟩, hintentOff, hsettled⟩ := h
    exact ⟨hmem hoff, ⟨n, hmem hn⟩, hintent hintentOff, hmem hsettled⟩
  | records config =>
    obtain ⟨snapshot, declined, hle, hsettled⟩ := h
    exact ⟨snapshot, declined, hle, hmem hsettled⟩

theorem Left.mono (h : d.Left newer older s ph) (hintent : s.intent = .off → s'.intent = .off)
    (events : List (Event κ)) : d.Left (events ++ newer) older s' ph := by
  have hmem {e : Event κ} (he : e ∈ newer) : e ∈ events ++ newer := List.mem_append_right _ he
  cases ph with
  | unblockOff => exact ⟨h.1, hmem h.2⟩
  | unblockBumped =>
    obtain ⟨hd, hoff, n, hn⟩ := h
    exact ⟨hd, hmem hoff, n, hmem hn⟩
  | unblockIntent =>
    obtain ⟨hd, hoff, ⟨n, hn⟩, hintentOff⟩ := h
    exact ⟨hd, hmem hoff, ⟨n, hmem hn⟩, hintent hintentOff⟩
  | plain => exact Done.mono h hintent events
  | snap snapshot => exact Done.mono h hintent events
  | recorded => exact Done.mono h hintent events
  | unblockCleared => exact Done.mono h hintent events
  | _ => exact h

/-- Past its section, nothing is left to do. -/
theorem Left.done (h : d.Left newer older s ph) (hph : ph.ofHandler = true) :
    d.Done newer older s := by
  cases ph with
  | plain => exact h
  | snap snapshot => exact h
  | _ => cases hph

theorem intent_next {i : Nat} {o : IpcOp κ} {c : Choice} (h : s.intent = .off) :
    (ipcNext s i o c).intent = .off := by
  cases o <;> simp only [ipcNext, Shared.storeIf] <;> try split
  all_goals simp [h]

/-- A call of the closure. -/
theorem Left.step {i : Nat} {o : IpcOp κ} {c : Choice} (h : d.Left newer older s ph)
    (hstep : SectionStep s ph o ph') (hok : o.isWrite = true → c.ok = true) :
    d.Left ((ipcEvent s i o c).toList ++ newer) older (ipcNext s i o c) ph' := by
  have hmono : d.Left ((ipcEvent s i o c).toList ++ newer) older (ipcNext s i o c) ph :=
    h.mono intent_next _
  cases hstep with
  | lock snapshot config => exact h
  | lockUnblock => exact h
  | compare snapshot config => exact h
  | connect snapshot config => exact h
  | lockOther => exact h.elim
  | onStartup onStartup => exact h.elim
  | unlock hph =>
    cases ph with
    | recorded => exact hmono
    | unblockCleared => exact hmono
    | otherLocked => exact h.elim
    | failed => exact h.elim
    | _ => exact hph.elim
  | snapshot hph => exact hmono.done hph
  | record onStartup snapshot config =>
    obtain ⟨rfl, hle⟩ := h
    exact ⟨snapshot, false, hle, by simp [ipcEvent, hok rfl]⟩
  | decline onStartup snapshot config =>
    obtain ⟨rfl, hle⟩ := h
    exact ⟨snapshot, true, hle, by simp [ipcEvent, hok rfl]⟩
  | off => exact ⟨h, by simp [ipcEvent, hok rfl]⟩
  | bump => exact ⟨h.1, hmono.2, _, .head _⟩
  | intent =>
    obtain ⟨hd, hoff, hn⟩ := hmono
    exact ⟨hd, hoff, hn, by simp [ipcNext, Shared.storeIf, hok rfl]⟩
  | clear =>
    obtain ⟨rfl, hoff, hn, hintent⟩ := hmono
    exact ⟨hoff, hn, hintent, by simp [ipcEvent, hok rfl]⟩
  | hand config onStartup snapshot => exact hmono
  | unwatched ho => exact hmono

end Duty

/-- How far a handler has come with its duty. -/
inductive Serving
  | asked
  | due
  | waiting (handle : Nat)
  | served

/-- A handler does its duty before it answers `Ok`. -/
def servingProtocol (d : Duty κ) : Protocol (IpcOp κ) IpcOp.Ans (Kind κ) Reply Serving where
  enter _ := .asked
  allows
    | .due, o => ∃ closure, o = .spawnBlocking closure ∧ d.Serves closure
    | .waiting handle, o => o = .join handle
    | _, _ => True
  after
    | .asked, o, a => if d.starts o a then .due else .asked
    | .due, .spawnBlocking _, (handle : Nat) => .waiting handle
    | .due, _, _ => .due
    | _, _, _ => .served
  leaves ph r := r = .ok → ph = .served

/-- What the history and the closures show of a handler. -/
def Served (s : Shared κ) (φ : Nat → Option (Kind κ × SectionPhase κ)) (i : Nat)
    (ph : SectionPhase κ) (d : Duty κ) : Serving → Prop
  | .asked => True
  | .due => ∃ newer older, s.log = newer ++ d.began i :: older ∧
      ∀ snapshot, ph.snapshot? = some snapshot → snapshot ≤ older.countP Event.isBump
  | .waiting handle => ∃ newer older, s.log = newer ++ d.began i :: older ∧
      (d.Done newer older s ∨ ∃ closure ph', φ handle = some (.blocking closure, ph') ∧
        d.Left newer older s ph')
  | .served => ∃ newer older, s.log = newer ++ d.began i :: older ∧ d.Done newer older s

section Served

variable {s s' : Shared κ} {φ φ' : Nat → Option (Kind κ × SectionPhase κ)} {i : Nat}
  {ph ph' : SectionPhase κ} {d : Duty κ} {k : Kind κ} {o : IpcOp κ} {c : Choice}

theorem Served.mono {serving : Serving} {events : List (Event κ)}
    (h : Served s φ i ph d serving) (hlog : s'.log = events ++ s.log)
    (hintent : s.intent = .off → s'.intent = .off)
    (hclosure : ∀ {handle closure ph' newer older}, φ handle = some (.blocking closure, ph') →
      d.Left newer older s ph' → d.Done (events ++ newer) older s' ∨
        ∃ ph'', φ' handle = some (.blocking closure, ph'') ∧
          d.Left (events ++ newer) older s' ph'') :
    Served s' φ' i ph d serving := by
  have hsplit {newer older : List (Event κ)} (hs : s.log = newer ++ d.began i :: older) :
      s'.log = (events ++ newer) ++ d.began i :: older := by
    rw [hlog, hs, List.append_assoc]
  cases serving with
  | asked => exact trivial
  | due =>
    obtain ⟨newer, older, hs, hle⟩ := h
    exact ⟨_, older, hsplit hs, hle⟩
  | waiting handle =>
    obtain ⟨newer, older, hs, hdone | ⟨closure, ph', hphase, hleft⟩⟩ := h
    · exact ⟨_, older, hsplit hs, .inl (hdone.mono hintent events)⟩
    · refine ⟨_, older, hsplit hs, (hclosure hphase hleft).imp_right ?_⟩
      exact fun ⟨ph'', hphase'', hleft''⟩ ↦ ⟨closure, ph'', hphase'', hleft''⟩
  | served =>
    obtain ⟨newer, older, hs, hdone⟩ := h
    exact ⟨_, older, hsplit hs, hdone.mono hintent events⟩

/-- The answer that a duty waits for leaves its event. -/
theorem Duty.event_of_starts {fresh : Nat} (h : d.starts o (ipcAnswer s i fresh o c) = true) :
    ipcEvent s i o c = some (d.began i) ∧ OffSection o := by
  cases d with
  | unblock =>
    cases o with
    | releaseAllCovers =>
      have hok : c.ok = true := h
      exact ⟨if_pos hok, trivial⟩
    | _ => cases h
  | records config =>
    cases o with
    | startCancellable config' =>
      have hok : c.ok = true := h
      exact ⟨if_pos hok, trivial⟩
    | reloadPath =>
      have hpath : decide (c.path = .hotSwap) = true := h
      exact ⟨if_pos (of_decide_eq_true hpath), trivial⟩
    | _ => cases h

/-- The closure that does the duty begins with it. -/
theorem Duty.left_of_serves {closure : Closure κ} {newer older : List (Event κ)}
    (h : d.Serves closure) (hallows : sectionProtocol.allows ph (.spawnBlocking closure))
    (hle : ∀ snapshot, ph.snapshot? = some snapshot → snapshot ≤ older.countP Event.isBump) :
    d.Left newer older s (sectionProtocol.enter (.blocking closure)) := by
  cases d with
  | unblock =>
    cases closure with
    | unblock => exact rfl
    | _ => exact h.elim
  | records config =>
    cases closure with
    | records config' onStartup succeeded snapshot =>
      cases succeeded with
      | false => exact h.elim
      | true =>
        obtain rfl : ph = .snap snapshot := hallows
        exact ⟨congrArg Duty.records h.symm, hle snapshot rfl⟩
    | _ => exact h.elim

/-- A call of the handler. -/
theorem Served.own {serving : Serving} {fresh : Nat} {live : Nat → Bool}
    (h : Served s φ i ph d serving) (hJ : SectionInv s φ) (hi : φ i = some (k, ph))
    (hne : i ≠ fresh) (hlive : ∀ j, live j = true ↔ (φ j).isSome = true)
    (hallows : sectionProtocol.allows ph o) (henabled : ipcEnabled s live i o = true)
    (hserving : (servingProtocol d).allows serving o) :
    Served (ipcNext s i o c)
      (update (sectionProtocol.start φ fresh (ipcFork o)) i
        (some (k, sectionProtocol.after ph o (ipcAnswer s i fresh o c)))) i
      (sectionProtocol.after ph o (ipcAnswer s i fresh o c)) d
      ((servingProtocol d).after serving o (ipcAnswer s i fresh o c)) := by
  have hlog := log_next s i o c
  cases serving with
  | asked =>
    rcases hstarts : d.starts o (ipcAnswer s i fresh o c) with - | -
    · simp only [servingProtocol, hstarts]
      exact trivial
    · obtain ⟨hevent, ho⟩ := Duty.event_of_starts hstarts
      simp only [servingProtocol, hstarts, if_true]
      refine ⟨[], s.log, by rw [hlog, hevent]; rfl, fun snapshot hsnapshot ↦ ?_⟩
      rw [after_offSection ho] at hsnapshot
      exact hJ.counted ▸ hJ.snaps hi hsnapshot
  | due =>
    obtain ⟨closure, rfl, hserves⟩ := hserving
    obtain ⟨newer, older, hs, hle⟩ := h
    refine ⟨newer, older, hs, .inr ⟨closure, _, ?_, Duty.left_of_serves hserves hallows hle⟩⟩
    exact (update_of_ne hne.symm _ _).trans (update_self _ _ _)
  | waiting handle =>
    -- The join returns once the closure is over, and then the duty is done.
    obtain rfl : o = .join handle := hserving
    obtain ⟨newer, older, hs, hdone | ⟨closure, ph', hphase, -⟩⟩ := h
    · exact ⟨newer, older, hs, hdone⟩
    · have hrunning : live handle = true := (hlive handle).2 (by rw [hphase]; rfl)
      simp [ipcEnabled, hrunning] at henabled
  | served =>
    obtain ⟨newer, older, hs, hdone⟩ := h
    exact ⟨_, older, by rw [hlog, hs, List.append_assoc], hdone.mono Duty.intent_next _⟩

end Served

/-- How far each handler has come with its duty. -/
def Attends (s : Shared κ) (φ : Nat → Option (Kind κ × SectionPhase κ)) (i : Nat) (k : Kind κ)
    (ph : SectionPhase κ) (q : IpcM κ Reply) : Prop :=
  ∀ r d, k = .request r → r.duty = some d →
    ∃ serving, q.Obeys (servingProtocol d) serving ∧ Served s φ i ph d serving

theorem Attends.mono {φ φ' : Nat → Option (Kind κ × SectionPhase κ)} {i : Nat} {k : Kind κ}
    {q : IpcM κ Reply} (h : Attends s φ i k ph q) (events : List (Event κ))
    (hlog : s'.log = events ++ s.log) (hintent : s.intent = .off → s'.intent = .off)
    (hclosure : ∀ {d : Duty κ} {handle closure ph' newer older},
      φ handle = some (.blocking closure, ph') → d.Left newer older s ph' →
      d.Done (events ++ newer) older s' ∨ ∃ ph'', φ' handle = some (.blocking closure, ph'') ∧
      d.Left (events ++ newer) older s' ph'') :
    Attends s' φ' i k ph q := fun r d hk hd ↦ by
  obtain ⟨serving, hobeys, hserved⟩ := h r d hk hd
  exact ⟨serving, hobeys, hserved.mono hlog hintent hclosure⟩

end Hole.Bridge.Ipc
