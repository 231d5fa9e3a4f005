import Hole.Bridge.Ipc

/-!
# A stop is final

`handle_stop` persists `Off` under the proxy lock. Only the records of a start or reload that
succeeded make the target `Connected` again, and they are written by a detached closure while its
handler still stands in front of the line at the lock. So as long as no handler is dropped while
such a closure is outstanding, whoever makes the target `Connected` lined up behind every stop that
has returned (`stopFinal_of_run`). A drop there frees the lock with the write still to come.

The lock is first come, first served, and the line it keeps is where the order of two requests is
decided: `Later` is the order in which they lined up.
-/

namespace Hole.Bridge.Ipc

open Effect
open Function (update update_of_ne)

variable {κ : Type}

/-! ### Phases -/

/-- How far a task has come with the proxy lock and the target. -/
inductive LockPhase
  | outside (stop : Bool)
  /-- In line, not yet served. -/
  | waiting (stop : Bool)
  /-- Holds the lock; whether its start or reload succeeded. -/
  | holding (succeeded : Bool)
  /-- Holds the lock and awaits the closure with the records of its success. -/
  | writing (handle : Nat)
  | stopHolding
  | stopping (handle : Nat)
  /-- A stop whose session event is over. -/
  | settled
  /-- A stop that has released the lock. -/
  | gone
  /-- The closure with the records of a success. -/
  | record
  /-- The closure of a session event, before its write. -/
  | event (e : SessionEvent)
  deriving DecidableEq

/-- Stands in line. -/
def LockPhase.inLine : LockPhase → Bool
  | waiting _ | holding _ | writing _ | stopHolding | stopping _ | settled => true
  | outside _ | gone | record | event _ => false

/-- Holds the lock. -/
def LockPhase.locked : LockPhase → Bool
  | holding _ | writing _ | stopHolding | stopping _ | settled => true
  | outside _ | waiting _ | gone | record | event _ => false

/-- A start or reload that succeeded and still holds the lock. -/
def LockPhase.hasSucceeded : LockPhase → Bool
  | holding succeeded => succeeded
  | writing _ => true
  | _ => false

/-- A stop. -/
def LockPhase.ofStop : LockPhase → Bool
  | outside stop | waiting stop => stop
  | stopHolding | stopping _ | settled | gone => true
  | _ => false

/-- The closure with the records of a success. -/
def Kind.isRecord : Kind κ → Bool
  | .blocking (.records _ _ succeeded _) => succeeded
  | _ => false

/-- A phase of a task. -/
def LockPhase.Fits (ph : LockPhase) (k : Kind κ) : Prop :=
  match ph with
  | record => k.isRecord = true
  | event e => k = .blocking (.session e)
  | _ => k = .request .stop → ph.ofStop = true

/-- Lines up once, writes what it may, and lets go of the lock last. -/
def lockProtocol : Protocol (IpcOp κ) IpcOp.Ans (Kind κ) Reply LockPhase where
  enter
    | .request .stop => .outside true
    | .request _ => .outside false
    | .blocking (.records _ _ true _) => .record
    | .blocking (.session e) => .event e
    | .blocking _ => .outside false
  allows ph
    | .queueProxy => ∃ stop, ph = .outside stop
    | .acquireProxy => ∃ stop, ph = .waiting stop
    | .releaseProxy => (∃ ok, ph = .holding ok) ∨ ph = .settled
    | .startCancellable _ => ∃ ok, ph = .holding ok
    | .reloadPath => ∃ ok, ph = .holding ok
    | .spawnBlocking (.records _ _ true _) => ph = .holding true
    | .spawnBlocking (.session .userStopped) => ph = .stopHolding
    | .spawnBlocking _ => ph = .outside false ∨ ∃ ok, ph = .holding ok
    | .join handle =>
      ph = .outside false ∨ (∃ ok, ph = .holding ok) ∨ ph = .writing handle ∨ ph = .stopping handle
    | .applyConnected _ _ => ph = .record
    | .applyEvent e => ph = .event e
    | .teardown => (∃ ok, ph = .holding ok) ∨ ph = .settled
    | _ => True
  after ph
    | .queueProxy => fun _ ↦
      match ph with
      | .outside stop => .waiting stop
      | _ => ph
    | .acquireProxy => fun _ ↦ if ph = .waiting true then .stopHolding else .holding false
    | .releaseProxy => fun _ ↦ if ph = .settled then .gone else .outside false
    | .startCancellable _ => fun (ok : Bool) ↦ .holding (ph.hasSucceeded || ok)
    | .reloadPath => fun (path : ReloadPath) ↦
      .holding (ph.hasSucceeded || decide (path = .hotSwap))
    | .spawnBlocking (.records _ _ true _) => fun (handle : Nat) ↦ .writing handle
    | .spawnBlocking (.session .userStopped) => fun (handle : Nat) ↦ .stopping handle
    | .join _ => fun _ ↦
      match ph with
      | .writing _ => .holding true
      | .stopping _ => .settled
      | _ => ph
    | .applyEvent _ => fun _ ↦ .outside false
    | _ => fun _ ↦ ph
  leaves ph _ := ph = .outside false ∨ ph = .gone ∨ ph = .record

example (ok : Bool) : (lockProtocol (κ := κ)).allows (.holding ok) .teardown ∧
    (lockProtocol (κ := κ)).after (.holding ok) .releaseProxy () = .outside false := by
  simp [lockProtocol]

/-! ### The programs follow the protocol -/

theorem follows_stopWith {event : SessionEvent} (hevent : event ≠ .userStopped) (ok : Bool) :
    (stopWith event : IpcM κ Bool).Follows lockProtocol (fun _ ph ↦ ph = .holding ok)
      (.holding ok) := by
  cases event with
  | userStopped => exact absurd rfl hevent
  | _ => simp [stopWith, blocking, lockProtocol]

theorem follows_reload (config : κ) : (reload config).Follows lockProtocol
      (fun succeeded ph ↦ ∃ ok, ph = .holding ok ∧ (succeeded = true → ok = true))
      (.holding false) := by
  simp only [reload, perform, Prog.perform_bind, Prog.follows_call]
  refine ⟨⟨false, rfl⟩, fun path ↦ ?_⟩
  cases path with
  | start => exact ⟨⟨false, rfl⟩, fun ok ↦ ⟨ok, by simp [lockProtocol, LockPhase.hasSucceeded]⟩⟩
  | hotSwap => exact ⟨true, by simp [lockProtocol, LockPhase.hasSucceeded]⟩
  | restart =>
    refine (follows_stopWith (by simp) false).bind fun stopped ph hph ↦ ?_
    obtain rfl := hph
    cases stopped with
    | false => exact ⟨false, rfl, (by rintro ⟨⟩)⟩
    | true => exact ⟨⟨false, rfl⟩, fun ok ↦ ⟨ok, by simp [lockProtocol, LockPhase.hasSucceeded]⟩⟩

theorem follows_settleHealth :
    (settleHealth : IpcM κ Unit).Follows lockProtocol (fun _ ph ↦ ph = .holding false)
      (.holding false) := by
  simp only [settleHealth, perform, Prog.perform_bind, Prog.follows_call]
  refine ⟨trivial, fun gaveUp ↦ ?_⟩
  cases gaveUp with
  | false => exact rfl
  | true => exact (follows_stopWith (by simp) false).bind fun _ _ hph ↦ hph

/-- The records of a start or reload. -/
theorem follows_persistAfterStart (config : κ) (onStartup : Option StartupBehavior)
    (snapshot : Nat) {succeeded ok : Bool} (hok : succeeded = true → ok = true) :
    (persistAfterStart config onStartup succeeded snapshot).Follows lockProtocol
      (fun _ ph ↦ ∃ ok, ph = .holding ok) (.holding ok) := by
  cases succeeded with
  | false => simp [persistAfterStart, blocking, lockProtocol]
  | true => simp [persistAfterStart, blocking, lockProtocol, hok rfl]

theorem follows_lockProxy :
    (lockProxy : IpcM κ Unit).Follows lockProtocol (fun _ ph ↦ ph = .holding false)
      (.outside false) := by
  simp [lockProxy, lockProtocol]

/-- Calls that the protocol does not watch. -/
def Unwatched : IpcOp κ → Prop
  | .queueProxy | .acquireProxy | .releaseProxy | .startCancellable _ | .reloadPath
  | .spawnBlocking _ | .join _ | .applyConnected _ _ | .applyEvent _ | .teardown => False
  | _ => True

variable {o : IpcOp κ}

theorem allows_unwatched (ho : Unwatched o) (ph : LockPhase) : lockProtocol.allows ph o := by
  cases o <;> first | exact ho.elim | exact trivial

theorem after_unwatched (ho : Unwatched o) (ph : LockPhase) (a : o.Ans) :
    lockProtocol.after ph o a = ph := by
  cases o <;> first | exact ho.elim | rfl

theorem follows_unwatched {α : Type} {p : IpcM κ α} (hp : p.Only Unwatched) (ph : LockPhase) :
    p.Follows lockProtocol (fun _ ph' ↦ ph' = ph) ph := by
  induction p with
  | pure a => exact rfl
  | call o k ih =>
    refine ⟨allows_unwatched hp.1 ph, fun a ↦ ?_⟩
    rw [after_unwatched hp.1]
    exact ih a (hp.2 a)

theorem obeys_start (id : String) (onStartup : Option StartupBehavior) (config : κ) :
    (handleStart id onStartup config).Obeys lockProtocol (.outside false) := by
  refine And.intro trivial fun outcome ↦ ?_
  cases outcome with
  | consumed => exact .inl rfl
  | concurrent => exact .inl rfl
  | registered =>
    refine And.intro trivial fun snapshot ↦ follows_lockProxy.bind fun _ ph hph ↦ ?_
    obtain rfl := hph
    refine And.intro ⟨false, rfl⟩ fun (succeeded : Bool) ↦ ?_
    refine (follows_persistAfterStart config onStartup snapshot fun hsucceeded ↦ ?_).bind ?_
    · simpa [LockPhase.hasSucceeded] using hsucceeded
    · rintro reply ph ⟨ok, rfl⟩
      exact ⟨.inl ⟨ok, rfl⟩, fun _ ↦ ⟨trivial, fun _ ↦ .inl rfl⟩⟩

theorem obeys_reload (config : κ) : (handleReload config).Obeys lockProtocol (.outside false) := by
  refine And.intro trivial fun snapshot ↦ follows_lockProxy.bind fun _ ph hph ↦ ?_
  obtain rfl := hph
  refine (follows_reload config).bind ?_
  rintro succeeded ph ⟨ok, rfl, hok⟩
  refine (follows_persistAfterStart config none snapshot hok).bind ?_
  rintro reply ph ⟨ok, rfl⟩
  exact ⟨.inl ⟨ok, rfl⟩, fun _ ↦ .inl rfl⟩

theorem follows_writeStartRecords (config : κ) (onStartup : Option StartupBehavior)
    (snapshot : Nat) (declined : Bool) :
    (writeStartRecords config onStartup snapshot declined).Follows lockProtocol
      (fun _ ph ↦ ph = .record) .record := by
  cases declined with
  | true => exact ⟨trivial, fun _ ↦ rfl⟩
  | false =>
    refine And.intro rfl fun (stored : Bool) ↦ ?_
    cases stored with
    | false => exact rfl
    | true => exact ⟨trivial, fun _ ↦ rfl⟩

/-- Every task follows the protocol. -/
theorem obeys_lock (k : Kind κ) : ((ipc κ).body k).Obeys lockProtocol (lockProtocol.enter k) := by
  have hunder {body : IpcM κ Bool} {ph : LockPhase}
      (hbody : body.Follows lockProtocol (fun _ ph' ↦ ph' = ph) ph)
      (hph : ph = .outside false ∨ ph = .record) : (underPersist body).Obeys lockProtocol ph := by
    refine And.intro trivial fun _ ↦ hbody.bind fun stored ph' hph' ↦ ?_
    obtain rfl := hph'
    exact ⟨trivial, fun _ ↦ hph.imp_right .inr⟩
  cases k with
  | request r =>
    cases r with
    | start id onStartup config => exact obeys_start id onStartup config
    | reload config => exact obeys_reload config
    | stop => simp [ipc, Request.body, handleStop, lockProxy, stopWith, blocking, Prog.Obeys,
        lockProtocol]
    | status =>
      refine follows_lockProxy.bind fun _ ph hph ↦ ?_
      obtain rfl := hph
      refine follows_settleHealth.bind fun _ ph hph ↦ ?_
      obtain rfl := hph
      simp [blocking, lockProtocol]
    | metrics =>
      refine follows_lockProxy.bind fun _ ph hph ↦ ?_
      obtain rfl := hph
      refine follows_settleHealth.bind fun _ ph hph ↦ ?_
      obtain rfl := hph
      simp [lockProtocol]
    | cancel id => exact ⟨trivial, fun _ ↦ .inl rfl⟩
    | unblock =>
      refine And.intro trivial fun (released : Bool) ↦ ?_
      cases released with
      | false => exact .inl rfl
      | true => exact ⟨.inl rfl, fun _ ↦ ⟨.inl rfl, fun _ ↦ .inl rfl⟩⟩
  | blocking c =>
    cases c with
    | records config onStartup succeeded snapshot =>
      cases succeeded with
      | false =>
        refine hunder (follows_unwatched ?_ _) (.inl rfl)
        cases onStartup <;> simp [writeRecords, Unwatched]
      | true =>
        refine hunder ?_ (.inr rfl)
        exact And.intro trivial fun (generation : Nat) ↦ follows_writeStartRecords _ _ _ _
    | session e => exact ⟨rfl, fun _ ↦ .inl rfl⟩
    | unblock =>
      refine hunder (follows_unwatched ?_ _) (.inl rfl)
      refine And.intro trivial fun (saved : Bool) ↦ ?_
      cases saved with
      | false => exact trivial
      | true =>
        refine And.intro trivial fun _ ↦ And.intro trivial fun (off : Bool) ↦ ?_
        cases off with
        | false => exact trivial
        | true => exact ⟨trivial, fun _ ↦ trivial⟩
    | presence => exact .inl rfl

/-! ### What a call does to a phase -/

/-- Calls with which a task in a plain phase goes on. -/
def GoesOn : IpcOp κ → Prop
  | .spawnBlocking (.records _ _ true _) => False
  | .spawnBlocking (.session .userStopped) => False
  | .spawnBlocking _ | .join _ | .teardown => True
  | _ => False

/-- The calls of a task in a phase, and the phase after. -/
inductive LockStep (fresh : Nat) (c : Choice) : LockPhase → IpcOp κ → LockPhase → Prop
  | queue (stop : Bool) : LockStep fresh c (.outside stop) .queueProxy (.waiting stop)
  | acquire : LockStep fresh c (.waiting false) .acquireProxy (.holding false)
  | acquireStop : LockStep fresh c (.waiting true) .acquireProxy .stopHolding
  | release (ok : Bool) : LockStep fresh c (.holding ok) .releaseProxy (.outside false)
  | releaseStop : LockStep fresh c .settled .releaseProxy .gone
  | start (ok : Bool) (config : κ) :
    LockStep fresh c (.holding ok) (.startCancellable config) (.holding (ok || c.ok))
  | path (ok : Bool) :
    LockStep fresh c (.holding ok) .reloadPath (.holding (ok || decide (c.path = .hotSwap)))
  | records (config : κ) (onStartup : Option StartupBehavior) (snapshot : Nat) :
    LockStep fresh c (.holding true) (.spawnBlocking (.records config onStartup true snapshot))
      (.writing fresh)
  | stop : LockStep fresh c .stopHolding (.spawnBlocking (.session .userStopped)) (.stopping fresh)
  | joinRecords (handle : Nat) : LockStep fresh c (.writing handle) (.join handle) (.holding true)
  | joinStop (handle : Nat) : LockStep fresh c (.stopping handle) (.join handle) .settled
  | event (e : SessionEvent) : LockStep fresh c (.event e) (.applyEvent e) (.outside false)
  | connect (snapshot : Nat) (config : κ) :
    LockStep fresh c .record (.applyConnected snapshot config) .record
  | goOn {ph : LockPhase} {o : IpcOp κ} (ho : GoesOn o)
    (hph : ph = .outside false ∨ (∃ ok, ph = .holding ok) ∨ ph = .settled) :
    LockStep fresh c ph o ph
  | unwatched {o : IpcOp κ} (ho : Unwatched o) (ph : LockPhase) : LockStep fresh c ph o ph

variable {ph : LockPhase}

/-- The protocol, call by call. -/
theorem lockStep (s : Shared κ) (i fresh : Nat) (c : Choice) (hallows : lockProtocol.allows ph o) :
    LockStep fresh c ph o (lockProtocol.after ph o (ipcAnswer s i fresh o c)) := by
  have hplain (ho : Unwatched o) :
      LockStep fresh c ph o (lockProtocol.after ph o (ipcAnswer s i fresh o c)) := by
    rw [after_unwatched ho]
    exact .unwatched ho ph
  cases o with
  | queueProxy =>
    obtain ⟨stop, rfl⟩ := hallows
    exact .queue stop
  | acquireProxy =>
    obtain ⟨stop, rfl⟩ := hallows
    cases stop with
    | false => exact .acquire
    | true => exact .acquireStop
  | releaseProxy =>
    rcases hallows with ⟨ok, rfl⟩ | rfl
    · exact .release ok
    · exact .releaseStop
  | startCancellable config =>
    obtain ⟨ok, rfl⟩ := hallows
    exact .start ok config
  | reloadPath =>
    obtain ⟨ok, rfl⟩ := hallows
    exact .path ok
  | spawnBlocking closure =>
    cases closure with
    | records config onStartup succeeded snapshot =>
      cases succeeded with
      | false => exact .goOn trivial (hallows.imp_right .inl)
      | true =>
        obtain rfl : ph = .holding true := hallows
        exact .records config onStartup snapshot
    | session event =>
      cases event with
      | userStopped =>
        obtain rfl : ph = .stopHolding := hallows
        exact .stop
      | _ => exact .goOn trivial (hallows.imp_right .inl)
    | _ => exact .goOn trivial (hallows.imp_right .inl)
  | join handle =>
    rcases hallows with rfl | ⟨ok, rfl⟩ | rfl | rfl
    · exact .goOn trivial (.inl rfl)
    · exact .goOn trivial (.inr (.inl ⟨ok, rfl⟩))
    · exact .joinRecords handle
    · exact .joinStop handle
  | applyConnected snapshot config =>
    obtain rfl : ph = .record := hallows
    exact .connect snapshot config
  | applyEvent event =>
    obtain rfl : ph = .event event := hallows
    exact .event event
  | teardown => exact .goOn trivial (.inr hallows)
  | _ => exact hplain trivial

/-! ### The line at the lock -/

/-- `j` lined up after `i`. -/
def Later (log : List (Event κ)) (i j : Nat) : Prop := [.queued j, .queued i].Sublist log

theorem Later.mono {log log' : List (Event κ)} (hlog : log.Sublist log') {i j : Nat}
    (h : Later log i j) : Later log' i j :=
  h.trans hlog

/-- The line and the phases agree. -/
structure LineInv (s : Shared κ) (φ : Nat → Option (Kind κ × LockPhase)) : Prop where
  fits : ∀ {i k ph}, φ i = some (k, ph) → ph.Fits k
  line : ∀ {i}, i ∈ s.queue ↔ ∃ k ph, φ i = some (k, ph) ∧ ph.inLine = true
  head : ∀ {i k ph}, φ i = some (k, ph) → ph.locked = true → s.queue.head? = some i
  nodup : s.queue.Nodup
  queued : ∀ {i}, i ∈ s.queue → .queued i ∈ s.log
  sorted : s.queue.Pairwise (Later s.log)

/-- The phases a task can start in. -/
theorem enter_cases (k : Kind κ) :
    lockProtocol.enter k = .outside true ∨ lockProtocol.enter k = .outside false ∨
      lockProtocol.enter k = .record ∨ ∃ e, lockProtocol.enter k = .event e := by
  cases k with
  | request r =>
    cases r with
    | stop => exact .inl rfl
    | _ => exact .inr (.inl rfl)
  | blocking closure =>
    cases closure with
    | records config onStartup succeeded snapshot =>
      cases succeeded with
      | false => exact .inr (.inl rfl)
      | true => exact .inr (.inr (.inl rfl))
    | session e => exact .inr (.inr (.inr ⟨e, rfl⟩))
    | _ => exact .inr (.inl rfl)

/-- A phase that a task can start in. -/
def LockPhase.isFirst : LockPhase → Bool
  | outside _ | record | event _ => true
  | _ => false

theorem isFirst_enter (k : Kind κ) : (lockProtocol.enter k).isFirst = true := by
  rcases enter_cases k with h | h | h | ⟨e, h⟩ <;> rw [h] <;> rfl

theorem fits_enter_lock (k : Kind κ) : (lockProtocol.enter k).Fits k := by
  cases k with
  | request r => cases r <;> simp [lockProtocol, LockPhase.Fits, LockPhase.ofStop]
  | blocking c =>
    cases c with
    | records config onStartup succeeded snapshot =>
      cases succeeded <;> simp [lockProtocol, LockPhase.Fits, Kind.isRecord]
    | _ => simp [lockProtocol, LockPhase.Fits]

theorem inLine_enter (k : Kind κ) : (lockProtocol.enter k).inLine = false := by
  rcases enter_cases k with h | h | h | ⟨e, h⟩ <;> rw [h] <;> rfl

theorem inLine_of_locked (h : ph.locked = true) : ph.inLine = true := by
  cases ph <;> first | rfl | cases h

section Line

variable {s s' : Shared κ} {φ φ' : Nat → Option (Kind κ × LockPhase)} {i : Nat}

/-- Task `i` took a step: what has to be said of it and of the line. -/
theorem LineInv.turn (h : LineInv s φ) (hturn : lockProtocol.Turns φ φ' i)
    (hfits : ∀ k ph, φ' i = some (k, ph) → ph.Fits k)
    (hline : i ∈ s'.queue ↔ ∃ k ph, φ' i = some (k, ph) ∧ ph.inLine = true)
    (hhead : ∀ k ph, φ' i = some (k, ph) → ph.locked = true → s'.queue.head? = some i)
    (hothers : ∀ j, j ≠ i → (j ∈ s'.queue ↔ j ∈ s.queue))
    (hheads : ∀ j, j ≠ i → s.queue.head? = some j → s'.queue.head? = some j)
    (hnodup : s'.queue.Nodup) (hqueued : ∀ j ∈ s'.queue, .queued j ∈ s'.log)
    (hsorted : s'.queue.Pairwise (Later s'.log)) : LineInv s' φ' := by
  constructor
  case fits =>
    intro j k ph hj
    rcases eq_or_ne j i with rfl | hne
    · exact hfits k ph hj
    · rcases hturn.back hne hj with hold | ⟨k', hy⟩
      · exact h.fits hold
      · cases hy
        exact fits_enter_lock k
  case line =>
    intro j
    rcases eq_or_ne j i with rfl | hne
    · exact hline
    · rw [hothers j hne, h.line]
      constructor
      · rintro ⟨k, ph, hj, hin⟩
        exact ⟨k, ph, hturn.keep hne hj, hin⟩
      · rintro ⟨k, ph, hj, hin⟩
        rcases hturn.back hne hj with hold | ⟨k', hy⟩
        · exact ⟨k, ph, hold, hin⟩
        · cases hy
          rw [inLine_enter] at hin
          cases hin
  case head =>
    intro j k ph hj hlocked
    rcases eq_or_ne j i with rfl | hne
    · exact hhead k ph hj hlocked
    · rcases hturn.back hne hj with hold | ⟨k', hy⟩
      · exact hheads j hne (h.head hold hlocked)
      · cases hy
        have hin := inLine_of_locked hlocked
        rw [inLine_enter] at hin
        cases hin
  case nodup => exact hnodup
  case queued => exact fun hj ↦ hqueued _ hj
  case sorted => exact hsorted

/-- The line stays as it is. -/
theorem LineInv.stay (h : LineInv s φ) (hturn : lockProtocol.Turns φ φ' i)
    (hqueue : s'.queue = s.queue) (hlog : s.log.Sublist s'.log)
    (hfits : ∀ k ph, φ' i = some (k, ph) → ph.Fits k)
    (hline : i ∈ s.queue ↔ ∃ k ph, φ' i = some (k, ph) ∧ ph.inLine = true)
    (hhead : ∀ k ph, φ' i = some (k, ph) → ph.locked = true → s.queue.head? = some i) :
    LineInv s' φ' := by
  refine h.turn hturn hfits (hqueue ▸ hline) (hqueue ▸ hhead) (fun j _ ↦ by rw [hqueue])
    (fun j _ hj ↦ hqueue ▸ hj) (hqueue ▸ h.nodup) ?_ ?_
  · intro j hj
    exact hlog.subset (h.queued (hqueue ▸ hj))
  · rw [hqueue]
    exact h.sorted.imp (Later.mono hlog)

/-- Task `i` joins the line. -/
theorem LineInv.push (h : LineInv s φ) (hturn : lockProtocol.Turns φ φ' i)
    (hi : i ∉ s.queue) (hqueue : s'.queue = s.queue ++ [i]) (hlog : s'.log = .queued i :: s.log)
    (hfits : ∀ k ph, φ' i = some (k, ph) → ph.Fits k)
    (hwaits : ∃ k ph, φ' i = some (k, ph) ∧ ph.inLine = true ∧ ph.locked = false) :
    LineInv s' φ' := by
  obtain ⟨k, ph, hφ', hin, hunlocked⟩ := hwaits
  have hsub : s.log.Sublist s'.log := hlog ▸ List.sublist_cons_self _ _
  refine h.turn hturn hfits ⟨fun _ ↦ ⟨k, ph, hφ', hin⟩, fun _ ↦ by simp [hqueue]⟩ ?_ ?_ ?_ ?_ ?_ ?_
  · intro k' ph' hy hlocked
    obtain ⟨-, rfl⟩ := Prod.mk.inj (Option.mem_unique hφ' hy)
    cases hunlocked.symm.trans hlocked
  · intro j hne
    simp [hqueue, hne]
  · intro j _ hj
    rw [hqueue, List.head?_append, hj]
    rfl
  · rw [hqueue]
    refine List.nodup_append.2 ⟨h.nodup, by simp, ?_⟩
    rintro j hj j' hj' rfl
    exact hi (List.mem_singleton.1 hj' ▸ hj)
  · intro j hj
    rw [hqueue] at hj
    rcases List.mem_append.1 hj with hj | hj
    · exact hsub.subset (h.queued hj)
    · obtain rfl := List.mem_singleton.1 hj
      exact hlog ▸ .head _
  · rw [hqueue, List.pairwise_append]
    refine ⟨h.sorted.imp (Later.mono hsub), List.pairwise_singleton _ _, ?_⟩
    intro j hj j' hj'
    obtain rfl := List.mem_singleton.1 hj'
    rw [hlog]
    exact (List.singleton_sublist.2 (h.queued hj)).cons_cons _

/-- Task `i` leaves the line. -/
theorem LineInv.erase (h : LineInv s φ) (hturn : lockProtocol.Turns φ φ' i)
    (hqueue : s'.queue = s.queue.erase i) (hlog : s.log.Sublist s'.log)
    (hfits : ∀ k ph, φ' i = some (k, ph) → ph.Fits k)
    (hout : ∀ k ph, φ' i = some (k, ph) → ph.inLine = false) : LineInv s' φ' := by
  have hsub : s'.queue.Sublist s.queue := hqueue ▸ List.erase_sublist
  refine h.turn hturn hfits ?_ ?_ ?_ ?_ (h.nodup.sublist hsub) ?_ ?_
  · constructor
    · intro hi
      exact absurd (hqueue ▸ hi) h.nodup.not_mem_erase
    · rintro ⟨k, ph, hφ', hin⟩
      cases (hout k ph hφ').symm.trans hin
  · intro k ph hφ' hlocked
    cases (hout k ph hφ').symm.trans (inLine_of_locked hlocked)
  · intro j hne
    rw [hqueue, List.mem_erase_of_ne hne]
  · intro j hne hj
    obtain ⟨rest, hrest⟩ := List.head?_eq_some_iff.1 hj
    rw [hqueue, hrest, List.erase_cons_tail (by simpa using hne)]
    rfl
  · intro j hj
    exact hlog.subset (h.queued (hsub.subset hj))
  · exact (h.sorted.sublist hsub).imp (Later.mono hlog)

end Line

/-- Calls on the lock itself. -/
def OnLock : IpcOp κ → Prop
  | .queueProxy | .acquireProxy | .releaseProxy => True
  | _ => False

section Step

variable {fresh : Nat} {c : Choice} {ph ph' : LockPhase} {o : IpcOp κ}

theorem LockStep.stays (h : LockStep fresh c ph o ph') (ho : ¬OnLock o) :
    ph'.inLine = ph.inLine ∧ ph'.locked = ph.locked := by
  cases h with
  | queue stop => exact absurd trivial ho
  | acquire => exact absurd trivial ho
  | acquireStop => exact absurd trivial ho
  | release ok => exact absurd trivial ho
  | releaseStop => exact absurd trivial ho
  | _ => exact ⟨rfl, rfl⟩

/-- A task stays in phases of its own. -/
theorem LockStep.fits {k : Kind κ} (h : LockStep fresh c ph o ph') (hfits : ph.Fits k) :
    ph'.Fits k := by
  cases h with
  | acquireStop => exact fun _ ↦ rfl
  | releaseStop => exact fun _ ↦ rfl
  | stop => exact fun _ ↦ rfl
  | joinStop handle => exact fun _ ↦ rfl
  | event e =>
    obtain rfl : k = .blocking (.session e) := hfits
    exact nofun
  | _ => exact hfits

end Step

variable {s : Shared κ} {c : Choice} {i : Nat}

theorem queue_next (hqueue : o ≠ .queueProxy) (hrelease : o ≠ .releaseProxy) :
    (ipcNext s i o c).queue = s.queue := by
  cases o with
  | queueProxy => exact absurd rfl hqueue
  | releaseProxy => exact absurd rfl hrelease
  | _ =>
    simp only [ipcNext, Shared.storeIf]
    try split <;> rfl

theorem log_sublist_next (s : Shared κ) (i : Nat) (o : IpcOp κ) (c : Choice) :
    s.log.Sublist (ipcNext s i o c).log := by
  rw [log_next]
  exact List.sublist_append_right _ _

/-- The phases after a call. -/
def turned (s : Shared κ) (φ : Nat → Option (Kind κ × LockPhase)) (i fresh : Nat) (k : Kind κ)
    (ph : LockPhase) (o : IpcOp κ) (c : Choice) : Nat → Option (Kind κ × LockPhase) :=
  update (lockProtocol.start φ fresh (ipcFork o)) i
    (some (k, lockProtocol.after ph o (ipcAnswer s i fresh o c)))

section Advance

variable {s : Shared κ} {φ : Nat → Option (Kind κ × LockPhase)} {i fresh : Nat} {k : Kind κ}
  {ph : LockPhase} {o : IpcOp κ} {c : Choice} {live : Nat → Bool}

theorem turned_self : turned s φ i fresh k ph o c i =
    some (k, lockProtocol.after ph o (ipcAnswer s i fresh o c)) :=
  Function.update_self _ _ _

theorem turns_turned (hfresh : φ fresh = none) :
    lockProtocol.Turns φ (turned s φ i fresh k ph o c) i :=
  lockProtocol.turns_start hfresh i _ _

theorem LineInv.mem_iff (h : LineInv s φ) (hi : φ i = some (k, ph)) :
    i ∈ s.queue ↔ ph.inLine = true := by
  rw [h.line]
  constructor
  · rintro ⟨k', ph', hi', hin⟩
    obtain ⟨-, rfl⟩ := Prod.mk.inj (Option.mem_unique hi hi')
    exact hin
  · exact fun hin ↦ ⟨k, ph, hi, hin⟩

theorem LineInv.advance (h : LineInv s φ) (hi : φ i = some (k, ph)) (hfresh : φ fresh = none)
    (hallows : lockProtocol.allows ph o) (henabled : ipcEnabled s live i o = true) :
    LineInv (ipcNext s i o c) (turned s φ i fresh k ph o c) := by
  have hturn : lockProtocol.Turns φ (turned s φ i fresh k ph o c) i := turns_turned hfresh
  have hlog := log_sublist_next s i o c
  have hfits (k' : Kind κ) (ph' : LockPhase)
      (hy : turned s φ i fresh k ph o c i = some (k', ph')) : ph'.Fits k' := by
    obtain ⟨rfl, rfl⟩ := Prod.mk.inj (Option.mem_unique turned_self hy)
    exact (lockStep s i fresh c hallows).fits (h.fits hi)
  -- the line stays, and the caller is in it as its new phase says
  have hstay (hqueue : o ≠ .queueProxy) (hrelease : o ≠ .releaseProxy)
      (hin : (lockProtocol.after ph o (ipcAnswer s i fresh o c)).inLine = ph.inLine)
      (hhead : (lockProtocol.after ph o (ipcAnswer s i fresh o c)).locked = true →
        s.queue.head? = some i) :
      LineInv (ipcNext s i o c) (turned s φ i fresh k ph o c) := by
    refine h.stay hturn (queue_next hqueue hrelease) hlog hfits ?_ ?_
    · rw [h.mem_iff hi, turned_self, ← hin]
      exact ⟨fun hin ↦ ⟨k, _, rfl, hin⟩, fun ⟨k', ph', hy, hin⟩ ↦ by cases hy; exact hin⟩
    · intro k' ph' hy hlocked
      obtain ⟨rfl, rfl⟩ := Prod.mk.inj (Option.mem_unique turned_self hy)
      exact hhead hlocked
  have hplain (ho : ¬OnLock o) : LineInv (ipcNext s i o c) (turned s φ i fresh k ph o c) := by
    obtain ⟨hin, hlocked⟩ := (lockStep s i fresh c hallows).stays ho
    refine hstay ?_ ?_ hin fun h' ↦ h.head hi (hlocked ▸ h')
    · rintro rfl
      exact ho trivial
    · rintro rfl
      exact ho trivial
  cases o with
  | queueProxy =>
    obtain ⟨stop, rfl⟩ := hallows
    have hout : i ∉ s.queue := fun hmem ↦ nomatch (h.mem_iff hi).1 hmem
    exact h.push hturn hout rfl rfl hfits ⟨k, .waiting stop, turned_self, rfl, rfl⟩
  | releaseProxy =>
    refine h.erase hturn rfl hlog hfits ?_
    intro k' ph' hy
    obtain ⟨rfl, rfl⟩ := Prod.mk.inj (Option.mem_unique turned_self hy)
    rcases hallows with ⟨ok, rfl⟩ | rfl <;> rfl
  | acquireProxy =>
    obtain ⟨stop, rfl⟩ := hallows
    refine hstay nofun nofun ?_ fun _ ↦ by simpa [ipcEnabled] using henabled
    cases stop <;> rfl
  | _ => exact hplain fun ho ↦ ho

end Advance

/-! ### Records and their owners -/

/-- Who succeeded has said so, and the records of a success have an owner who awaits them. -/
structure RecordInv (s : Shared κ) (φ : Nat → Option (Kind κ × LockPhase)) : Prop where
  succeeded : ∀ {i k ph}, φ i = some (k, ph) → ph.hasSucceeded = true → .succeeded i ∈ s.log
  owned : ∀ {h k}, φ h = some (k, .record) → ∃ j k', φ j = some (k', .writing h)

theorem hasSucceeded_enter (k : Kind κ) : (lockProtocol.enter k).hasSucceeded = false := by
  rcases enter_cases k with h | h | h | ⟨e, h⟩ <;> rw [h] <;> rfl

/-- Only a success makes a phase one of success. -/
theorem LockStep.succeeded {fresh : Nat} {ph ph' : LockPhase} (h : LockStep fresh c ph o ph')
    (hsucceeded : ph'.hasSucceeded = true) (s : Shared κ) (i : Nat) :
    ph.hasSucceeded = true ∨ .succeeded i ∈ (ipcNext s i o c).log := by
  cases h with
  | start ok config =>
    rcases Bool.or_eq_true_iff.1 hsucceeded with hold | hok
    · exact .inl hold
    · exact .inr (by simp [ipcNext, Shared.storeIf, hok])
  | path ok =>
    rcases Bool.or_eq_true_iff.1 hsucceeded with hold | hpath
    · exact .inl hold
    · exact .inr (by simp [ipcNext, Shared.storeIf, of_decide_eq_true hpath])
  | records config onStartup snapshot => exact .inl rfl
  | joinRecords handle => exact .inl rfl
  | goOn ho hph => exact .inl hsucceeded
  | unwatched ho ph => exact .inl hsucceeded
  | _ => cases hsucceeded

/-- Who awaits records keeps awaiting them as long as their closure runs. -/
theorem LockStep.writing {i fresh handle : Nat} {ph' : LockPhase} {live : Nat → Bool}
    (h : LockStep fresh c (.writing handle) o ph') (henabled : ipcEnabled s live i o = true)
    (hlive : live handle = true) : ph' = .writing handle := by
  cases h with
  | joinRecords => simp [ipcEnabled, hlive] at henabled
  | goOn ho hph => rfl
  | unwatched ho => rfl

/-- A phase of records is the phase of a records closure from the start. -/
theorem LockStep.record {fresh : Nat} (h : LockStep fresh c ph o .record) : ph = .record := by
  cases h with
  | _ => rfl

/-- A closure that starts with records to write was handed over by its owner. -/
theorem fork_record {k : Kind κ} (hfork : ipcFork o = some k)
    (hrecord : lockProtocol.enter k = .record) :
    ∃ config onStartup snapshot, o = .spawnBlocking (.records config onStartup true snapshot) := by
  cases o with
  | spawnBlocking closure =>
    cases hfork
    cases closure with
    | records config onStartup succeeded snapshot =>
      cases succeeded with
      | false => cases hrecord
      | true => exact ⟨config, onStartup, snapshot, rfl⟩
    | _ => cases hrecord
  | _ => cases hfork

section Record

variable {s : Shared κ} {φ : Nat → Option (Kind κ × LockPhase)} {i fresh : Nat} {k : Kind κ}
  {ph : LockPhase} {o : IpcOp κ} {c : Choice} {live : Nat → Bool}

theorem RecordInv.advance (h : RecordInv s φ) (hi : φ i = some (k, ph)) (hfresh : φ fresh = none)
    (hallows : lockProtocol.allows ph o) (henabled : ipcEnabled s live i o = true)
    (hlive : ∀ j, live j = true ↔ (φ j).isSome = true) :
    RecordInv (ipcNext s i o c) (turned s φ i fresh k ph o c) := by
  have hturn : lockProtocol.Turns φ (turned s φ i fresh k ph o c) i := turns_turned hfresh
  have hlog := log_sublist_next s i o c
  constructor
  case succeeded =>
    intro j k' ph' hj hsucceeded
    rcases eq_or_ne j i with rfl | hji
    · obtain ⟨rfl, rfl⟩ := Prod.mk.inj (Option.mem_unique turned_self hj)
      rcases (lockStep s j fresh c hallows).succeeded hsucceeded s j with hold | hnew
      · exact hlog.subset (h.succeeded hi hold)
      · exact hnew
    · rcases hturn.back hji hj with hold | ⟨k'', hy⟩
      · exact hlog.subset (h.succeeded hold hsucceeded)
      · cases hy
        rw [hasSucceeded_enter] at hsucceeded
        cases hsucceeded
  case owned =>
    intro handle k' hhandle
    -- an owner of records that run keeps its phase
    have hkept {k'' : Kind κ} (hold : φ handle = some (k'', .record)) :
        ∃ j k', turned s φ i fresh k ph o c j = some (k', .writing handle) := by
      obtain ⟨j, k₀, hj⟩ := h.owned hold
      rcases eq_or_ne j i with rfl | hji
      · obtain ⟨rfl, rfl⟩ := Prod.mk.inj (Option.mem_unique hi hj)
        have hrun : live handle = true := (hlive handle).2 (by rw [hold]; rfl)
        have hph := (lockStep s j fresh c hallows).writing henabled hrun
        exact ⟨j, k, turned_self.trans (by rw [hph])⟩
      · exact ⟨j, k₀, hturn.keep hji hj⟩
    rcases Protocol.start_cases hhandle with ⟨rfl, hy⟩ | ⟨hji, k'', hfork, hy⟩ | ⟨-, hold⟩
    · obtain ⟨-, hph⟩ := Prod.mk.inj (Option.some.inj hy)
      obtain rfl := (hph ▸ lockStep s handle fresh c hallows : LockStep fresh c ph o .record).record
      exact hkept hi
    · obtain ⟨-, hrecord⟩ := Prod.mk.inj hy
      obtain ⟨config, onStartup, snapshot, rfl⟩ := fork_record hfork hrecord.symm
      rcases eq_or_ne handle fresh with rfl | hfresh'
      · exact ⟨i, k, turned_self⟩
      · have hold : φ handle = some (k', .record) := by
          simpa [turned, hji, hfresh', Protocol.start, ipcFork] using hhandle
        exact hkept hold
    · exact hkept hold

end Record

/-! ### Stops that are over -/

/-- The target is off, or a start or reload that lined up later has succeeded. -/
def Calm (s : Shared κ) (i : Nat) : Prop :=
  s.target = .off ∨ ∃ j, Later s.log i j ∧ .succeeded j ∈ s.log

/-- A stop that has released the lock. -/
def Released (s : Shared κ) (φ : Nat → Option (Kind κ × LockPhase)) (i : Nat) : Prop :=
  (∃ k, φ i = some (k, .gone)) ∨ .stopped i ∈ s.log

/-- A stop whose session event has been written. -/
def Past (s : Shared κ) (φ : Nat → Option (Kind κ × LockPhase)) (i : Nat) : Prop :=
  (∃ k, φ i = some (k, .settled)) ∨
    (∃ k handle, φ i = some (k, .stopping handle) ∧
      ∀ k', φ handle ≠ some (k', .event .userStopped)) ∨
    Released s φ i

/-- Whoever is in line lined up after the stops that have released the lock, and the target is as
they left it or as one who came later wants it. -/
structure CalmInv (s : Shared κ) (φ : Nat → Option (Kind κ × LockPhase)) : Prop where
  behind : ∀ {i}, Released s φ i → .queued i ∈ s.log ∧ ∀ j ∈ s.queue, Later s.log i j
  calm : ∀ {i}, Past s φ i → Calm s i

theorem Calm.mono {s s' : Shared κ} (h : Calm s i) (hlog : s.log.Sublist s'.log)
    (htarget : s.target = .off → s'.target = .off) : Calm s' i := by
  rcases h with hoff | ⟨j, hlater, hsucceeded⟩
  · exact .inl (htarget hoff)
  · exact .inr ⟨j, hlater.mono hlog, hlog.subset hsucceeded⟩

/-- Only the records of a success turn an off target on. -/
theorem off_next (ho : ∀ snapshot config, o ≠ .applyConnected snapshot config)
    (h : s.target = .off) :
    (ipcNext s i o c).target = .off := by
  cases o with
  | applyConnected snapshot config => exact absurd rfl (ho snapshot config)
  | applyEvent event =>
    simp only [ipcNext, Shared.storeIf]
    split
    · cases event <;> simp [targetAfter, h]
    · exact h
  | applyOff =>
    simp only [ipcNext, Shared.storeIf]
    split
    · rfl
    · exact h
  | _ =>
    simp only [ipcNext, Shared.storeIf]
    try split
    all_goals exact h

/-- A call does not end a stop. -/
theorem stopped_next {i j : Nat} (h : .stopped j ∈ (ipcNext s i o c).log) : .stopped j ∈ s.log := by
  rw [log_next] at h
  refine (List.mem_append.1 h).resolve_left fun hnew ↦ ?_
  cases o with
  | register id =>
    cases hr : (s.startCancel.register id i).1 <;> simp [ipcEvent, registerEvent, hr] at hnew
  | reloadPath =>
    simp only [ipcEvent] at hnew
    split at hnew <;> simp at hnew
  | _ => rcases hok : c.ok <;> simp [ipcEvent, hok] at hnew

section CalmAdvance

variable {s : Shared κ} {φ : Nat → Option (Kind κ × LockPhase)} {i fresh : Nat} {k : Kind κ}
  {ph : LockPhase} {o : IpcOp κ} {c : Choice} {live : Nat → Bool}

/-- The phases a task can come to one of a stop's last phases from. -/
theorem LockStep.gone {ph : LockPhase} (h : LockStep fresh c ph o .gone) :
    ph = .gone ∨ (ph = .settled ∧ o = .releaseProxy) := by
  cases h with
  | releaseStop => exact .inr ⟨rfl, rfl⟩
  | goOn ho hph => exact .inl rfl
  | unwatched ho => exact .inl rfl

theorem LockStep.settled {ph : LockPhase} (h : LockStep fresh c ph o .settled) :
    ph = .settled ∨ ∃ handle, ph = .stopping handle ∧ o = .join handle := by
  cases h with
  | joinStop handle => exact .inr ⟨handle, rfl, rfl⟩
  | goOn ho hph => exact .inl rfl
  | unwatched ho => exact .inl rfl

theorem LockStep.stopping {ph : LockPhase} {handle : Nat}
    (h : LockStep fresh c ph o (.stopping handle)) :
    ph = .stopping handle ∨ (handle = fresh ∧ o = .spawnBlocking (.session .userStopped)) := by
  cases h with
  | stop => exact .inr ⟨rfl, rfl⟩
  | goOn ho hph => exact .inl rfl
  | unwatched ho => exact .inl rfl

theorem LockStep.pending {ph' : LockPhase} {e : SessionEvent}
    (h : LockStep fresh c (.event e) o ph') : ph' = .event e ∨ o = .applyEvent e := by
  cases h with
  | event => exact .inr rfl
  | goOn ho hph => exact .inl rfl
  | unwatched ho => exact .inl rfl

/-- A phase that is not a first one is the caller's or an old one. -/
theorem turned_cases {j : Nat} {k' : Kind κ} {ph' : LockPhase} (hfresh : φ fresh = none)
    (hallows : lockProtocol.allows ph o)
    (hj : turned s φ i fresh k ph o c j = some (k', ph')) (hph : ph'.isFirst = false) :
    (j = i ∧ k' = k ∧ LockStep fresh c ph o ph') ∨ (j ≠ i ∧ φ j = some (k', ph')) := by
  rcases eq_or_ne j i with rfl | hji
  · obtain ⟨rfl, rfl⟩ := Prod.mk.inj (Option.mem_unique turned_self hj)
    exact .inl ⟨rfl, rfl, lockStep s j fresh c hallows⟩
  · rcases (turns_turned hfresh).back hji hj with hold | ⟨k'', hy⟩
    · exact .inr ⟨hji, hold⟩
    · obtain ⟨-, rfl⟩ := Prod.mk.inj hy
      cases hph.symm.trans (isFirst_enter k'')

theorem mem_queue_next {j : Nat} (hj : j ∈ (ipcNext s i o c).queue) :
    j ∈ s.queue ∨ (j = i ∧ o = .queueProxy) := by
  by_cases hqueue : o = .queueProxy
  · obtain rfl := hqueue
    rcases List.mem_append.1 hj with hj | hj
    · exact .inl hj
    · exact .inr ⟨List.mem_singleton.1 hj, rfl⟩
  · by_cases hrelease : o = .releaseProxy
    · obtain rfl := hrelease
      exact .inl (List.mem_of_mem_erase hj)
    · rw [queue_next hqueue hrelease] at hj
      exact .inl hj

/-- A stop that has released the lock has done so before, or does now. -/
theorem Released.of_turned {j : Nat} (hi : φ i = some (k, ph)) (hfresh : φ fresh = none)
    (hallows : lockProtocol.allows ph o)
    (h : Released (ipcNext s i o c) (turned s φ i fresh k ph o c) j) :
    Released s φ j ∨ (j = i ∧ ph = .settled ∧ o = .releaseProxy) := by
  rcases h with ⟨k', hj⟩ | hstopped
  · rcases turned_cases hfresh hallows hj rfl with ⟨rfl, rfl, hstep⟩ | ⟨-, hold⟩
    · rcases hstep.gone with rfl | hnow
      · exact .inl (.inl ⟨k', hi⟩)
      · exact .inr ⟨rfl, hnow⟩
    · exact .inl (.inl ⟨k', hold⟩)
  · exact .inl (.inr (stopped_next hstopped))

/-- A stop whose session event is written has had it written before, or it is written now. -/
theorem Past.of_turned {j : Nat} (hi : φ i = some (k, ph)) (hfresh : φ fresh = none)
    (hne : i ≠ fresh) (hallows : lockProtocol.allows ph o)
    (henabled : ipcEnabled s live i o = true)
    (hlive : ∀ j, live j = true ↔ (φ j).isSome = true)
    (h : Past (ipcNext s i o c) (turned s φ i fresh k ph o c) j) :
    Past s φ j ∨ o = .applyEvent .userStopped := by
  rcases h with ⟨k', hj⟩ | ⟨k', handle, hj, hwritten⟩ | hreleased
  · rcases turned_cases hfresh hallows hj rfl with ⟨rfl, rfl, hstep⟩ | ⟨-, hold⟩
    · rcases hstep.settled with rfl | ⟨handle, rfl, rfl⟩
      · exact .inl (.inl ⟨k', hi⟩)
      · -- the closure that was awaited has ended
        refine .inl (.inr (.inl ⟨k', handle, hi, fun k'' hpending ↦ ?_⟩))
        have hrun : live handle = true := (hlive handle).2 (by rw [hpending]; rfl)
        simp [ipcEnabled, hrun] at henabled
    · exact .inl (.inl ⟨k', hold⟩)
  · -- a closure that was to write its event and is not any more has written it
    have hback (hold : φ j = some (k', .stopping handle)) :
        Past s φ j ∨ o = .applyEvent .userStopped := by
      by_cases hpending : ∃ k'', φ handle = some (k'', .event .userStopped)
      · obtain ⟨k'', hpending⟩ := hpending
        rcases eq_or_ne handle i with rfl | hhandle
        · obtain ⟨rfl, rfl⟩ := Prod.mk.inj (Option.mem_unique hi hpending)
          rcases (lockStep s handle fresh c hallows).pending with hph | ho
          · exact absurd (turned_self.trans (by rw [hph])) (hwritten k)
          · exact .inr ho
        · exact absurd ((turns_turned hfresh).keep hhandle hpending) (hwritten k'')
      · exact .inl (.inr (.inl ⟨k', handle, hold, fun k'' h ↦ hpending ⟨k'', h⟩⟩))
    rcases turned_cases hfresh hallows hj rfl with ⟨rfl, rfl, hstep⟩ | ⟨-, hold⟩
    · rcases hstep.stopping with rfl | ⟨rfl, rfl⟩
      · exact hback hi
      · refine absurd ?_ (hwritten (.blocking (.session .userStopped)))
        rw [turned, update_of_ne hne.symm]
        simp [Protocol.start, ipcFork, lockProtocol]
    · exact hback hold
  · rcases hreleased.of_turned hi hfresh hallows with hold | ⟨rfl, rfl, -⟩
    · exact .inl (.inr (.inr hold))
    · exact .inl (.inl ⟨k, hi⟩)

theorem CalmInv.advance (h : CalmInv s φ) (hline : LineInv s φ) (hrecord : RecordInv s φ)
    (hi : φ i = some (k, ph)) (hfresh : φ fresh = none) (hne : i ≠ fresh)
    (hallows : lockProtocol.allows ph o) (henabled : ipcEnabled s live i o = true)
    (hlive : ∀ j, live j = true ↔ (φ j).isSome = true)
    (hwrites : ∀ event, o = .applyEvent event → c.ok = true) :
    CalmInv (ipcNext s i o c) (turned s φ i fresh k ph o c) := by
  have hlog := log_sublist_next s i o c
  constructor
  case behind =>
    intro j hj
    rcases hj.of_turned hi hfresh hallows with hold | ⟨rfl, rfl, rfl⟩
    · obtain ⟨hqueued, hbehind⟩ := h.behind hold
      refine ⟨hlog.subset hqueued, fun j' hj' ↦ ?_⟩
      rcases mem_queue_next hj' with hj' | ⟨rfl, rfl⟩
      · exact (hbehind j' hj').mono hlog
      · exact (List.singleton_sublist.2 hqueued).cons_cons _
    · -- it stood first, and the others came after it
      obtain ⟨rest, hrest⟩ := List.head?_eq_some_iff.1 (hline.head hi rfl)
      have hqueue : (ipcNext s j .releaseProxy c).queue = rest := by simp [ipcNext, hrest]
      have hsorted := hline.sorted
      rw [hrest, List.pairwise_cons] at hsorted
      refine ⟨hline.queued (by simp [hrest]), fun j' hj' ↦ ?_⟩
      exact hsorted.1 j' (hqueue ▸ hj')
  case calm =>
    intro j hj
    by_cases hconnected : ∃ snapshot config, o = .applyConnected snapshot config
    · obtain ⟨snapshot, config, rfl⟩ := hconnected
      have hpast := (hj.of_turned hi hfresh hne hallows henabled hlive).resolve_right (by rintro ⟨⟩)
      obtain rfl : ph = .record := hallows
      -- the owner of these records stands first, and has succeeded
      obtain ⟨owner, k', howner⟩ := hrecord.owned hi
      have hfirst := hline.head howner rfl
      have hsucceeded := hrecord.succeeded howner rfl
      rcases hpast with ⟨k'', hj⟩ | ⟨k'', handle, hj, -⟩ | hreleased
      · obtain rfl := Option.some.inj (hfirst.symm.trans (hline.head hj rfl))
        cases howner.symm.trans hj
      · obtain rfl := Option.some.inj (hfirst.symm.trans (hline.head hj rfl))
        cases howner.symm.trans hj
      · have hlater := (h.behind hreleased).2 owner (List.mem_of_mem_head? hfirst)
        exact .inr ⟨owner, hlater.mono hlog, hlog.subset hsucceeded⟩
    · rcases hj.of_turned hi hfresh hne hallows henabled hlive with hpast | rfl
      · refine (h.calm hpast).mono hlog (off_next fun snapshot config ho ↦ ?_)
        exact hconnected ⟨snapshot, config, ho⟩
      · exact .inl (by simp [ipcNext, Shared.storeIf, hwrites _ rfl, targetAfter])

end CalmAdvance

/-! ### Tasks that come and go -/

section Update

variable {s s' : Shared κ} {φ : Nat → Option (Kind κ × LockPhase)} {i : Nat} {k : Kind κ}
  {ph : LockPhase} {x : Option (Kind κ × LockPhase)}

/-- A task outside the line comes or goes. -/
theorem LineInv.set (h : LineInv s φ) (hi : i ∉ s.queue) (hqueue : s'.queue = s.queue)
    (hlog : s.log.Sublist s'.log)
    (hx : ∀ k ph, x = some (k, ph) → ph.Fits k ∧ ph.inLine = false) :
    LineInv s' (update φ i x) := by
  refine h.stay (lockProtocol.turns_update φ i x) hqueue hlog ?_ ?_ ?_
  · intro k ph hy
    exact (hx k ph (by simpa using hy)).1
  · refine ⟨fun hmem ↦ absurd hmem hi, ?_⟩
    rintro ⟨k, ph, hy, hin⟩
    cases (hx k ph (by simpa using hy)).2.symm.trans hin
  · intro k ph hy hlocked
    cases (hx k ph (by simpa using hy)).2.symm.trans (inLine_of_locked hlocked)

/-- A task that owns no records that run comes or goes. -/
theorem RecordInv.set (h : RecordInv s φ) (hlog : s.log.Sublist s'.log)
    (howner : ∀ k handle, φ i = some (k, .writing handle) → ∀ k', φ handle ≠ some (k', .record))
    (hx : ∀ k ph, x = some (k, ph) → ph.hasSucceeded = false ∧ ph ≠ .record) :
    RecordInv s' (update φ i x) := by
  constructor
  case succeeded =>
    intro j k ph hj hsucceeded
    rcases eq_or_ne j i with rfl | hji
    · cases (hx k ph (by simpa using hj)).1.symm.trans hsucceeded
    · rw [update_of_ne hji] at hj
      exact hlog.subset (h.succeeded hj hsucceeded)
  case owned =>
    intro handle k hhandle
    rcases eq_or_ne handle i with rfl | hne
    · exact absurd rfl (hx k .record (by simpa using hhandle)).2
    · rw [update_of_ne hne] at hhandle
      obtain ⟨j, k', hj⟩ := h.owned hhandle
      have hji : j ≠ i := by
        rintro rfl
        exact howner k' handle hj k hhandle
      exact ⟨j, k', by rwa [update_of_ne hji]⟩

/-- A task that awaits no write of its own comes or goes. -/
theorem CalmInv.set (h : CalmInv s φ) (hlog : s.log.Sublist s'.log)
    (hqueue : ∀ j ∈ s'.queue, j ∈ s.queue) (htarget : s'.target = s.target)
    (hstopped : ∀ j, .stopped j ∈ s'.log → Released s φ j)
    (hpending : ∀ k, φ i ≠ some (k, .event .userStopped))
    (hx : ∀ k ph, x = some (k, ph) → ph.isFirst = true) :
    CalmInv s' (update φ i x) := by
  have hback {j : Nat} {k : Kind κ} {ph : LockPhase} (hph : ph.isFirst = false)
      (hj : update φ i x j = some (k, ph)) : φ j = some (k, ph) := by
    rcases eq_or_ne j i with rfl | hji
    · cases hph.symm.trans (hx k ph (by simpa using hj))
    · rwa [update_of_ne hji] at hj
  have hreleased {j : Nat} (hj : Released s' (update φ i x) j) : Released s φ j := by
    rcases hj with ⟨k, hj⟩ | hj
    · exact .inl ⟨k, hback rfl hj⟩
    · exact hstopped j hj
  constructor
  case behind =>
    intro j hj
    obtain ⟨hqueued, hbehind⟩ := h.behind (hreleased hj)
    exact ⟨hlog.subset hqueued, fun j' hj' ↦ (hbehind j' (hqueue j' hj')).mono hlog⟩
  case calm =>
    intro j hj
    have hpast : Past s φ j := by
      rcases hj with ⟨k, hj⟩ | ⟨k, handle, hj, hwritten⟩ | hj
      · exact .inl ⟨k, hback rfl hj⟩
      · refine .inr (.inl ⟨k, handle, hback rfl hj, fun k' hold ↦ hwritten k' ?_⟩)
        have hne : handle ≠ i := by
          rintro rfl
          exact hpending k' hold
        rwa [update_of_ne hne]
      · exact .inr (.inr (hreleased hj))
    exact (h.calm hpast).mono hlog fun hoff ↦ htarget.trans hoff

end Update

/-! ### Runs -/

/-- Every file update succeeds, and no handler is dropped while the records of its success are
still being written. -/
def KeepsRecords (p : IpcPool κ) : Label Choice (Kind κ) → Prop
  | .advance i c => WriteSucceeds p i c
  | .drop i =>
    ∀ t handle t', p.tasks i = some t → t.prog.head? = some (.join handle) →
      p.tasks handle = some t' → t'.kind.isRecord = false
  | _ => True

/-- The three invariants. -/
structure StopInv (s : Shared κ) (φ : Nat → Option (Kind κ × LockPhase)) : Prop where
  line : LineInv s φ
  record : RecordInv s φ
  calm : CalmInv s φ

variable {φ : Nat → Option (Kind κ × LockPhase)}

theorem LineInv.not_mem (h : LineInv s φ) (hi : φ i = none) : i ∉ s.queue := by
  intro hmem
  obtain ⟨k, ph, hi', -⟩ := h.line.1 hmem
  cases hi.symm.trans hi'

theorem StopInv.spawn (h : StopInv s φ) {fresh : Nat} (hfresh : φ fresh = none) (r : Request κ) :
    StopInv s (update φ fresh (some (.request r, lockProtocol.enter (.request r)))) := by
  have henter : ∃ stop, lockProtocol.enter (.request r) = .outside stop := by
    cases r with
    | stop => exact ⟨true, rfl⟩
    | _ => exact ⟨false, rfl⟩
  obtain ⟨stop, hstop⟩ := henter
  have hfits : (LockPhase.outside stop).Fits (.request r) := hstop ▸ fits_enter_lock (.request r)
  rw [hstop]
  constructor
  case line =>
    refine h.line.set (h.line.not_mem hfresh) rfl (List.Sublist.refl _) ?_
    rintro k ph ⟨rfl, rfl⟩
    exact ⟨hfits, rfl⟩
  case record =>
    refine h.record.set (List.Sublist.refl _) (by simp [hfresh]) ?_
    rintro k ph ⟨rfl, rfl⟩
    exact ⟨rfl, nofun⟩
  case calm =>
    refine h.calm.set (List.Sublist.refl _) (fun _ hj ↦ hj) rfl (fun _ hj ↦ .inr hj)
      (by simp [hfresh]) ?_
    rintro k ph ⟨rfl, rfl⟩
    rfl

/-- What the end of a task changes. -/
theorem finish_cases (s : Shared κ) (i : Nat) (k : Kind κ) (r : Reply) :
    (ipcFinish s i k r).queue = s.queue ∧ (ipcFinish s i k r).target = s.target ∧
      ((ipcFinish s i k r).log = s.log ∨
        (k = .request .stop ∧ (ipcFinish s i k r).log = .stopped i :: s.log)) := by
  unfold ipcFinish
  split
  · exact ⟨rfl, rfl, .inr ⟨rfl, rfl⟩⟩
  · exact ⟨rfl, rfl, .inl rfl⟩
  · exact ⟨rfl, rfl, .inl rfl⟩

theorem StopInv.finish (h : StopInv s φ) {k : Kind κ} {r : Reply} (hi : φ i = some (k, ph))
    (hleaves : ph = .outside false ∨ ph = .gone ∨ ph = .record) :
    StopInv (ipcFinish s i k r) (update φ i none) := by
  obtain ⟨hqueue, htarget, hlogs⟩ := finish_cases s i k r
  have hlog : s.log.Sublist (ipcFinish s i k r).log := by
    obtain hlog | ⟨-, hlog⟩ := hlogs
    · exact hlog.symm ▸ List.Sublist.refl _
    · exact hlog.symm ▸ List.sublist_cons_self _ _
  have hphase {ph' : LockPhase} {k' : Kind κ} (hi' : φ i = some (k', ph')) :
      ph' = .outside false ∨ ph' = .gone ∨ ph' = .record := by
    obtain ⟨-, rfl⟩ := Prod.mk.inj (Option.mem_unique hi hi')
    exact hleaves
  constructor
  case line =>
    refine h.line.set ?_ hqueue hlog nofun
    rw [h.line.mem_iff hi]
    rcases hleaves with rfl | rfl | rfl <;> exact nofun
  case record =>
    refine h.record.set hlog ?_ nofun
    intro k' handle hi'
    rcases hphase hi' with h | h | h <;> cases h
  case calm =>
    refine h.calm.set hlog (fun j hj ↦ hqueue ▸ hj) htarget ?_ ?_ nofun
    · intro j hj
      rcases hlogs with hlog | ⟨rfl, hlog⟩ <;> rw [hlog] at hj
      · exact .inr hj
      · rcases List.mem_cons.1 hj with hj | hj
        · obtain rfl : j = i := by simpa using hj
          -- a stop ends outside the line, past its release
          have hfits := h.line.fits hi
          rcases hleaves with rfl | rfl | rfl
          · cases hfits rfl
          · exact .inl ⟨_, hi⟩
          · cases hfits
        · exact .inr hj
    · intro k' hi'
      rcases hphase hi' with h | h | h <;> cases h

theorem StopInv.drop (h : StopInv s φ) {r : Request κ} (hi : φ i = some (.request r, ph))
    (howner : ∀ handle, ph = .writing handle → ∀ k, φ handle ≠ some (k, .record)) :
    StopInv { s with queue := s.queue.erase i } (update φ i none) := by
  constructor
  case line =>
    exact h.line.erase (lockProtocol.turns_update φ i none) rfl (List.Sublist.refl _)
      (by simp) (by simp)
  case record =>
    refine h.record.set (List.Sublist.refl _) ?_ nofun
    intro k handle hi'
    obtain ⟨-, rfl⟩ := Prod.mk.inj (Option.mem_unique hi hi')
    exact howner handle rfl
  case calm =>
    refine h.calm.set (List.Sublist.refl _) (fun j hj ↦ List.mem_of_mem_erase hj) rfl
      (fun j hj ↦ .inr hj) ?_ nofun
    intro k hi'
    obtain ⟨rfl, rfl⟩ := Prod.mk.inj (Option.mem_unique hi hi')
    cases h.line.fits hi

/-- Who awaits records is dropped only there. -/
theorem join_of_writing {handle : Nat} (hallows : lockProtocol.allows (.writing handle) o)
    (ho : o.isAwait = true) : o = .join handle := by
  cases o with
  | join handle' =>
    rcases hallows with h | ⟨ok, h⟩ | h | h
    · cases h
    · cases h
    · obtain rfl : handle = handle' := by simpa using h
      rfl
    · cases h
  | acquireProxy => simp [lockProtocol] at hallows
  | startCancellable config => simp [lockProtocol] at hallows
  | teardown => simp [lockProtocol] at hallows
  | _ => cases ho

theorem keeps_stopInv : (ipc κ).Keeps lockProtocol StopInv KeepsRecords where
  follows := obeys_lock
  spawn {p φ k} htracked hJ harrives _ hfresh := by
    cases k with
    | request r => exact hJ.spawn hfresh r
    | blocking closure => cases harrives
  advance {p φ i c k o f ph} htracked hJ hC ht hi hallows henabled hfresh hne := by
    have hlive := htracked.live_iff
    refine ⟨hJ.line.advance hi hfresh hallows henabled,
      hJ.record.advance hi hfresh hallows henabled hlive,
      hJ.calm.advance hJ.line hJ.record hi hfresh hne hallows henabled hlive ?_⟩
    rintro event rfl
    exact hC _ _ ht rfl rfl
  finish _ hJ _ _ hi hleaves := hJ.finish hi hleaves
  drop {p φ i k o f ph} htracked hJ hC ht hi hallows hdrop := by
    cases k with
    | blocking closure => cases hdrop
    | request r =>
      refine hJ.drop hi ?_
      rintro handle rfl k hhandle
      obtain rfl := join_of_writing hallows hdrop
      obtain ⟨prog, ht', -⟩ := htracked.task hhandle
      have hrecord : k.isRecord = true := hJ.line.fits hhandle
      cases (hC _ handle _ ht rfl ht').symm.trans hrecord

/-- A stop that has returned is final: the target is off until a start or reload that arrived
after it succeeds. -/
structure StopFinal (p : IpcPool κ) : Prop where
  /-- Arrival at the proxy lock. -/
  atLock : ∀ i, .stopped i ∈ p.shared.log →
    p.shared.target = .off ∨ ∃ j, Later p.shared.log i j ∧ .succeeded j ∈ p.shared.log
  /-- Arrival at the server, where requests reach the lock in the order they arrived in. -/
  atServer : (∀ i j, Later p.shared.log i j → i < j) → ∀ i, .stopped i ∈ p.shared.log →
    p.shared.target = .off ∨ ∃ j, i < j ∧ .succeeded j ∈ p.shared.log

theorem stopFinal_of_holds {p : IpcPool κ} (hp : System.Holds lockProtocol StopInv p) :
    StopFinal p := by
  obtain ⟨φ, -, hJ⟩ := hp
  have hcalm (i : Nat) (hi : .stopped i ∈ p.shared.log) : Calm p.shared i :=
    hJ.calm.calm (.inr (.inr (.inr hi)))
  refine ⟨hcalm, fun horder i hi ↦ (hcalm i hi).imp_right ?_⟩
  rintro ⟨j, hlater, hsucceeded⟩
  exact ⟨j, horder i j hlater, hsucceeded⟩

/-- **A stop is final**, in a run that drops no handler while the records of its success are being
written. -/
theorem stopFinal_of_run (target : Target κ) (preference : StartupPreference κ)
    (intent : FailClosed.Intent) (ls : List (Label Choice (Kind κ)))
    (hls : (ipc κ).Along KeepsRecords (Pool.idle (Shared.init target preference intent)) ls) :
    StopFinal ((ipc κ).exec (Pool.idle (Shared.init target preference intent)) ls) := by
  refine stopFinal_of_holds (System.exec_of_keeps keeps_stopInv ?_ hls)
  refine ⟨_, tracked_idle _, ?_, ⟨nofun, nofun⟩, ?_, ?_⟩
  · exact ⟨nofun, by simp [Pool.idle, Shared.init], nofun, List.nodup_nil, nofun, .nil⟩
  · rintro i (⟨k, hi⟩ | hi)
    · cases hi
    · cases hi
  · rintro i (⟨k, hi⟩ | ⟨k, handle, hi, -⟩ | ⟨k, hi⟩ | hi)
    · cases hi
    · cases hi
    · cases hi
    · cases hi

/-- A step with no drop and no failure. -/
def smooth : Label Choice (Kind κ) → Bool
  | .advance _ c => c.ok
  | .drop _ => false
  | _ => true

theorem keepsRecords_of_smooth {l : Label Choice (Kind κ)} (h : smooth l = true) (p : IpcPool κ) :
    KeepsRecords p l := by
  cases l with
  | advance i c => exact fun _ _ _ _ _ ↦ h
  | drop i => cases h
  | _ => exact trivial

/-- The environment lets everything succeed. -/
def fine : Choice := ⟨true, .start⟩

/-- A start up to its records, which a closure is to write. -/
def startToRecords : List (Label Choice (Kind Unit)) :=
  .spawn (.request (.start "" none ())) :: List.replicate 6 (.advance 0 fine)

/-- A stop behind it, to its response; its session event is task 3. -/
def stopBehind : List (Label Choice (Kind Unit)) :=
  [.spawn (.request .stop), .advance 2 fine, .advance 2 fine, .advance 2 fine, .advance 3 fine,
    .finish 3, .advance 2 fine, .advance 2 fine, .advance 2 fine, .finish 2]

/-- The records, in the end. -/
def recordsLast : List (Label Choice (Kind Unit)) := List.replicate 3 (.advance 1 fine)

/-- The start's own end, once its records are written. -/
def recordsFirst : List (Label Choice (Kind Unit)) :=
  List.replicate 5 (Label.advance 1 fine) ++ [Label.finish 1] ++
    List.replicate 3 (Label.advance 0 fine)

/-- The server with nothing on disk. -/
def emptyServer : IpcPool Unit := Pool.idle (Shared.init .off ⟨.doNotConnect, none⟩ .off)

theorem stopFinal_recordsFirst :
    (ipc Unit).Along KeepsRecords emptyServer (startToRecords ++ recordsFirst ++ stopBehind) ∧
      StopFinal ((ipc Unit).exec emptyServer (startToRecords ++ recordsFirst ++ stopBehind)) := by
  have hls : (ipc Unit).Along KeepsRecords emptyServer
      (startToRecords ++ recordsFirst ++ stopBehind) := by
    refine System.along_of_split _ fun before l after hsplit ↦ keepsRecords_of_smooth ?_ _
    refine List.all_eq_true.1 (?_ : (startToRecords ++ recordsFirst ++ stopBehind).all smooth) l ?_
    · rfl
    · rw [hsplit]
      simp
  exact ⟨hls, stopFinal_of_run .off ⟨.doNotConnect, none⟩ .off _ hls⟩

/-- The start is dropped while it awaits its records: the stop returns, and then they are
written. -/
theorem not_stopFinal_recordsLast : ¬StopFinal ((ipc Unit).exec emptyServer
      (startToRecords ++ [Label.drop 0] ++ stopBehind ++ recordsLast)) := by
  intro h
  have hlog : ((ipc Unit).exec emptyServer
      (startToRecords ++ [Label.drop 0] ++ stopBehind ++ recordsLast)).shared.log =
      [.wroteConnected 0 (), .stopped 2, .sessionEvent .userStopped, .queued 2, .succeeded 0,
        .queued 0, .registered 0 ""] := rfl
  have htarget : ((ipc Unit).exec emptyServer
      (startToRecords ++ [Label.drop 0] ++ stopBehind ++ recordsLast)).shared.target =
        .connected () :=
    rfl
  have hstop := h.atLock 2 (by rw [hlog]; simp)
  rw [hlog, htarget] at hstop
  rcases hstop with hoff | ⟨j, hlater, hsucceeded⟩
  · cases hoff
  · obtain rfl : j = 0 := by simpa using hsucceeded
    exact absurd hlater (by unfold Later; decide)

end Hole.Bridge.Ipc
