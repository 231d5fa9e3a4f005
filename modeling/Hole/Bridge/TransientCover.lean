import Hole.Bridge.ManagerSystem

/-!
# The books of the transient cover

What the manager keeps about its block-until-connected cover agrees with what it did to the host,
in every run: starts with any configuration and any outcome of resolving, engaging, restoring and
starting, stops for any reason, reloads, unblocks between and inside starts, crashes anywhere.

The history says which guards exist (`held`), what the last resolution gave (`lastResolved`) and
whether a start engaged (`engagedSince`). `Bookkeeping` is the whole statement, and
`bookkeeping_of_run` proves it of every run. Behind it, `Tracks` ties the posture of a manager to
the history, one specification for each function carries it, and a program that touches no
transient cover is a `Keeps`.
-/

namespace Hole.Bridge

open Effect FailClosed
open Prog (perform)

/-! ### Reading the history -/

/-- The transient guards that exist: engaged, and neither dropped nor disarmed. -/
def held : List PmEvent → List Guard
  | [] => []
  | .engage _ _ (some g) :: es => g :: held es
  | .dropped g :: es => (held es).erase g
  | .disarmed g :: es => (held es).erase g
  | .crashed :: _ => []
  | _ :: es => held es

/-- What the last resolution gave. -/
def lastResolved : List PmEvent → Option (IpAddr × PinSource)
  | [] => none
  | .resolved ip via :: _ => some (ip, via)
  | _ :: es => lastResolved es

/-- Whether a cover was engaged since the last start ended. -/
def engagedSince : List PmEvent → Bool
  | [] => false
  | .engage _ _ (some _) :: _ => true
  | .startEnded _ _ _ _ :: _ => false
  | .crashed :: _ => false
  | _ :: es => engagedSince es

/-- The books are right. -/
structure Bookkeeping (w : World) : Prop where
  /-- At no time are there two transient guards. -/
  single : ∀ newer older, w.log = newer ++ older → (held older).length ≤ 1
  /-- `install_failclosed_cover` is never called while one is held. -/
  engage_free : ∀ newer older ip r g, w.log = newer ++ PmEvent.engage ip r g :: older →
    held older = []
  /-- `install_lockdown` is never called while one is held. -/
  lockdown_free : ∀ newer older ip g, w.log = newer ++ PmEvent.installLockdown ip g :: older →
    held older = []
  /-- The guards that exist are those the posture holds. -/
  held_eq : held w.log = (w.manager.posture.pending.map (·.cover)).toList
  /-- A held cover's address and permit are the arguments of the engage that gave its guard. -/
  arguments : ∀ b, w.manager.posture = .pendingStart b → ∀ ip r,
    .engage ip r (some b.cover) ∈ w.log ↔ ip = b.serverIp ∧ r = b.resolverPermit
  /-- A held pin is what the resolution gave, never what `revalidate` made of it. -/
  pin : ∀ b, w.manager.posture = .pendingStart b → lastResolved w.log = some (b.serverIp, b.pin)
  /-- A covered start that engaged or restored a cover and failed, other than by a cancel, ends
  with a pending start. -/
  retained : ∀ newer older e pending,
    w.log = newer ++ PmEvent.startEnded true (some false) (some e) pending :: older →
      e ≠ .cancelled → engagedSince older = true → pending = true
  /-- There is an active configuration exactly while there is a session. -/
  active : w.manager.activeConfig.isSome = true ↔ ∃ s, w.manager.posture = .session s

/-! ### What every state satisfies -/

/-- What was wanted of each event when it was recorded. -/
def PmEvent.Ok : PmEvent → List PmEvent → Prop
  | .engage _ _ _, es => held es = []
  | .installLockdown _ _, es => held es = []
  | .startEnded covered lockdownOn error pending, es =>
    covered = true → lockdownOn = some false → ∀ e, error = some e → e ≠ .cancelled →
      engagedSince es = true → pending = true
  | _, _ => True

/-- Every event of a history was in order. -/
def LogOk : List PmEvent → Prop
  | [] => True
  | e :: es => e.Ok es ∧ LogOk es

theorem LogOk.of_append {newer older : List PmEvent} (h : LogOk (newer ++ older)) :
    LogOk older := by
  induction newer with
  | nil => exact h
  | cons e es ih => exact ih h.2

theorem LogOk.length_held_le {log : List PmEvent} (h : LogOk log) : (held log).length ≤ 1 := by
  induction log with
  | nil => exact Nat.zero_le 1
  | cons e es ih =>
    have ih := ih h.2
    cases e with
    | engage ip r g =>
      have hfree : held es = [] := h.1
      cases g with
      | none => exact ih
      | some g =>
        show (g :: held es).length ≤ 1
        rw [hfree]
        exact Nat.le_refl 1
    | dropped g => exact Nat.le_trans (List.length_erase_le) ih
    | disarmed g => exact Nat.le_trans (List.length_erase_le) ih
    | crashed => exact Nat.zero_le 1
    | _ => exact ih

/-- What holds in every state: the history is in order, and a guard is given only once. -/
structure Ledger (w : World) : Prop where
  ok : LogOk w.log
  fresh : ∀ ip r g, .engage ip r (some g) ∈ w.log → g < w.nextGuard
  unique : ∀ ip r ip' r' g, .engage ip r (some g) ∈ w.log → .engage ip' r' (some g) ∈ w.log →
    ip = ip' ∧ r = r'

/-- The history grew by events that are nothing to the transient cover. -/
structure Frame (w w' : World) : Prop where
  held_eq : held w'.log = held w.log
  resolved_eq : lastResolved w'.log = lastResolved w.log
  since_eq : engagedSince w'.log = engagedSince w.log
  sub : ∀ e ∈ w.log, e ∈ w'.log

variable {w w' w'' : World} {m : Manager} {α β : Type}

theorem Frame.refl (w : World) : Frame w w := ⟨rfl, rfl, rfl, fun _ h ↦ h⟩

theorem Frame.trans (h : Frame w w') (h' : Frame w' w'') : Frame w w'' where
  held_eq := h'.held_eq.trans h.held_eq
  resolved_eq := h'.resolved_eq.trans h.resolved_eq
  since_eq := h'.since_eq.trans h.since_eq
  sub e he := h'.sub e (h.sub e he)

/-- Events that are nothing to the transient cover. -/
def PmEvent.neutral : PmEvent → Bool
  | .installLockdown _ _ => true
  | .lockdownUnwound => true
  | .dnsApplyFailed _ => true
  | .intentChanged _ => true
  | .unblocked => true
  | _ => false

theorem Frame.of_neutral {e : PmEvent} (he : e.neutral = true) (h : w'.log = e :: w.log) :
    Frame w w' := by
  refine ⟨?_, ?_, ?_, fun e' h' ↦ h ▸ .tail _ h'⟩ <;> rw [h] <;>
    cases e <;> first | rfl | cases he

/-- An event other than an engage that gave a guard. -/
theorem Ledger.cons {e : PmEvent} (hI : Ledger w) (hne : ∀ ip r g, e ≠ .engage ip r (some g))
    (hok : e.Ok w.log) (h : w'.log = e :: w.log) (hnext : w.nextGuard ≤ w'.nextGuard) :
    Ledger w' := by
  have hmem : ∀ ip r g, .engage ip r (some g) ∈ w'.log → .engage ip r (some g) ∈ w.log := by
    intro ip r g hg
    rw [h] at hg
    exact (List.mem_cons.1 hg).resolve_left fun h' ↦ hne ip r g h'.symm
  refine ⟨h ▸ ⟨hok, hI.ok⟩, fun ip r g hg ↦ ?_, fun ip r ip' r' g hg hg' ↦ ?_⟩
  · exact Nat.lt_of_lt_of_le (hI.fresh ip r g (hmem ip r g hg)) hnext
  · exact hI.unique ip r ip' r' g (hmem ip r g hg) (hmem ip' r' g hg')

theorem Ledger.of_neutral {e : PmEvent} (hI : Ledger w) (he : e.neutral = true)
    (hok : e.Ok w.log) (h : w'.log = e :: w.log) (hnext : w.nextGuard ≤ w'.nextGuard) :
    Ledger w' := by
  refine hI.cons ?_ hok h hnext
  rintro ip r g rfl
  cases he

theorem Ledger.of_log_eq (hI : Ledger w) (h : w'.log = w.log)
    (hnext : w'.nextGuard = w.nextGuard) : Ledger w' := by
  refine ⟨h ▸ hI.ok, ?_, ?_⟩
  · rw [h, hnext]
    exact hI.fresh
  · rw [h]
    exact hI.unique

/-! ### Programs that touch no transient cover -/

/-- A program that touches no transient cover and installs no standing one. -/
def Keeps (p : PmM α) : Prop := ∀ w, Ledger w → p.Safe pmHost Ledger (fun _ w' ↦ Frame w w') w

theorem keeps_pure (a : α) : Keeps (pure a : PmM α) := fun w hI ↦ ⟨hI, Frame.refl w⟩

theorem Keeps.bind {p : PmM α} {f : α → PmM β} (hp : Keeps p) (hf : ∀ a, Keeps (f a)) :
    Keeps (p >>= f) := by
  intro w hI
  refine (hp w hI).bind fun a w₁ hI₁ h₁ ↦ ?_
  exact (hf a w₁ hI₁).mono fun _ _ _ h₂ ↦ h₁.trans h₂

/-- The calls that are nothing to the transient cover. -/
def PmOp.neutral : PmOp → Bool
  | .resolve _ => false
  | .installFailclosedCover _ _ => false
  | .dropCover _ => false
  | .disarmCover _ => false
  | .installLockdown _ => false
  | _ => true

/-- A neutral call records a neutral event or none. -/
theorem neutral_next {o : PmOp} (ho : o.neutral = true) (c : PmChoice) :
    (pmNext w o c).nextGuard = w.nextGuard ∧ ((pmNext w o c).log = w.log ∨
      ∃ e : PmEvent, e.neutral = true ∧ e.Ok w.log ∧ (pmNext w o c).log = e :: w.log) := by
  cases o with
  | loadIntent =>
    cases c with
    | intent i => exact ⟨rfl, .inr ⟨.intentChanged i, rfl, trivial, rfl⟩⟩
    | unblock => exact ⟨rfl, .inr ⟨.unblocked, rfl, trivial, rfl⟩⟩
    | _ => exact ⟨rfl, .inl rfl⟩
  | phase p =>
    cases p with
    | dnsApply =>
      cases c with
      | ok => exact ⟨rfl, .inl rfl⟩
      | _ => exact ⟨rfl, .inr ⟨.dnsApplyFailed w.lockdownHeld, rfl, trivial, rfl⟩⟩
    | _ => cases c <;> exact ⟨rfl, .inl rfl⟩
  | resolve host => cases ho
  | installFailclosedCover ip r => cases ho
  | dropCover g => cases ho
  | disarmCover g => cases ho
  | installLockdown ip => cases ho
  | _ => cases c <;> exact ⟨rfl, .inl rfl⟩

theorem keeps_perform {o : PmOp} (ho : o.neutral = true) : Keeps (perform o) := by
  refine fun w hI ↦ ⟨hI, fun c ↦ ?_⟩
  obtain ⟨hnext, hlog | ⟨e, he, hok, hlog⟩⟩ := neutral_next (w := w) ho c
  · refine ⟨hI.of_log_eq hlog hnext, ?_, ?_, ?_, ?_⟩ <;>
      rw [show (pmHost.next w o c).log = w.log from hlog]
    exact fun _ h ↦ h
  · exact ⟨hI.of_neutral he hok hlog (Nat.le_of_eq hnext.symm), Frame.of_neutral he hlog⟩

theorem keeps_standingCoverExpected (m : Manager) : Keeps (standingCoverExpected m) := by
  unfold standingCoverExpected
  split
  · exact (keeps_perform rfl).bind fun _ ↦ keeps_pure _
  · exact keeps_pure _

theorem keeps_effectiveLockdownIntent (m : Manager) : Keeps (effectiveLockdownIntent m) := by
  unfold effectiveLockdownIntent
  split
  · exact (keeps_perform rfl).bind fun _ ↦ keeps_pure _
  · exact keeps_pure _

theorem keeps_promoteAdoptedClaim (stateDir : Bool) : Keeps (promoteAdoptedClaim stateDir) := by
  have hset : Keeps (do let _ ← perform (PmOp.setEnabled true) : PmM Unit) :=
    (keeps_perform rfl).bind fun _ ↦ keeps_pure ()
  unfold promoteAdoptedClaim
  split
  · refine (keeps_perform rfl).bind fun intent ↦ ?_
    cases intent with
    | on => exact keeps_pure ()
    | off => exact keeps_pure ()
    | unset => exact hset
    | unreadable => exact hset
  · exact keeps_pure ()

theorem keeps_runPhases (ps : List Phase) : Keeps (runPhases ps) := by
  induction ps with
  | nil => exact keeps_pure _
  | cons p ps ih =>
    refine (keeps_perform rfl).bind fun r ↦ ?_
    rcases r with e | ⟨⟩
    · exact keeps_pure _
    · exact ih

theorem keeps_dropLockdownGuard (g : Option Guard) : Keeps (dropLockdownGuard g) := by
  cases g with
  | none => exact keeps_pure ()
  | some g => exact keeps_perform rfl

theorem keeps_disarmLockdownGuard (g : Option Guard) : Keeps (disarmLockdownGuard g) := by
  cases g with
  | none => exact keeps_pure ()
  | some g => exact keeps_perform rfl

theorem keeps_applyDns (config : ProxyConfig) (ip : IpAddr) (g : Option Guard) :
    Keeps (applyDns config ip g) := by
  unfold applyDns
  split
  · refine (keeps_perform rfl).bind fun r ↦ ?_
    rcases r with e | ⟨⟩
    · exact (keeps_dropLockdownGuard g).bind fun _ ↦ keeps_pure _
    · exact keeps_pure _
  · exact keeps_pure _

theorem keeps_refreshExpected (stateDir expected : Bool) :
    Keeps (refreshExpected stateDir expected) := by
  unfold refreshExpected
  split
  · exact (keeps_perform rfl).bind fun _ ↦ keeps_pure _
  · exact keeps_pure _

theorem keeps_persistSessionEvent (m : Manager) (event : SessionEvent) :
    Keeps (persistSessionEvent m event) := by
  obtain ⟨_, _, _, _, _, stateDir⟩ := m
  cases stateDir with
  | true => exact keeps_perform (o := .persistSessionEvent event) rfl
  | false => exact keeps_pure _

theorem keeps_setLockdownIntent (m : Manager) (enabled : Bool) :
    Keeps (setLockdownIntent m enabled) := by
  obtain ⟨_, _, _, _, _, stateDir⟩ := m
  cases stateDir with
  | true => exact keeps_perform (o := .setEnabled enabled) rfl
  | false => exact keeps_pure _

theorem keeps_applyCoverDisposition (m : Manager) (d : CoverDisposition) (g : Option Guard) :
    Keeps (applyCoverDisposition m d g) := by
  cases d with
  | keepEngaged => exact (keeps_disarmLockdownGuard g).bind fun _ ↦ keeps_pure _
  | releaseNow =>
    refine (keeps_perform rfl).bind fun _ ↦ ?_
    exact (keeps_dropLockdownGuard g).bind fun _ ↦ keeps_pure _

variable {stateDir expected : Bool}

/-- A refreshed expectation is never wider than the snapshot. -/
theorem safe_refreshExpected (hI : Ledger w) :
    (refreshExpected stateDir expected).Safe pmHost Ledger
      (fun b w' ↦ Frame w w' ∧ (b = true → expected = true)) w := by
  have hkeep := keeps_refreshExpected stateDir expected w hI
  have hb : (refreshExpected stateDir expected).Safe pmHost (fun _ ↦ True)
      (fun b _ ↦ b = true → expected = true) w := by
    unfold refreshExpected
    split
    · refine ⟨trivial, fun c ↦ ⟨trivial, ?_⟩⟩
      split
      · exact nofun
      · exact id
    · exact ⟨trivial, id⟩
  exact hkeep.and hb

variable {config : ProxyConfig} {ip : IpAddr}

/-- The standing cover is installed only where no transient one is held. -/
theorem safe_coverAndApply (hI : Ledger w) (hfree : expected = true → held w.log = []) :
    (coverAndApply config ip stateDir expected).Safe pmHost Ledger (fun _ w' ↦ Frame w w') w := by
  cases expected with
  | false => exact keeps_applyDns config ip none w hI
  | true =>
    have hinstall : (perform (PmOp.installLockdown ip)).Safe pmHost Ledger
        (fun _ w' ↦ Frame w w') w := by
      refine ⟨hI, fun c ↦ ?_⟩
      have hone (w' : World) (g : Option Guard) (hlog : w'.log = .installLockdown ip g :: w.log)
          (hnext : w.nextGuard ≤ w'.nextGuard) : Ledger w' ∧ Frame w w' :=
        ⟨hI.of_neutral (e := .installLockdown ip g) rfl (hfree rfl) hlog hnext,
          .of_neutral rfl hlog⟩
      cases c with
      | ok => exact hone _ (some w.nextGuard) rfl (Nat.le_succ _)
      | unwound e =>
        obtain ⟨hI₁, hf₁⟩ := hone ((w.setStanding false).record (.installLockdown ip none)) none
          rfl (Nat.le_refl _)
        refine ⟨hI₁.of_neutral (e := .lockdownUnwound) rfl trivial rfl (Nat.le_refl _), ?_⟩
        exact hf₁.trans (.of_neutral (e := .lockdownUnwound) rfl rfl)
      | _ => exact hone _ none rfl (Nat.le_refl _)
    refine hinstall.bind ?_
    rintro (e | g) w₁ hI₁ h₁
    · exact ⟨hI₁, h₁⟩
    · have hrest := (keeps_promoteAdoptedClaim stateDir).bind
        fun _ ↦ keeps_applyDns config ip (some g)
      exact (hrest w₁ hI₁).mono fun _ _ _ h₂ ↦ h₁.trans h₂

theorem safe_startInner (hI : Ledger w) (hfree : expected = true → held w.log = []) :
    (startInner config ip stateDir expected).Safe pmHost Ledger (fun _ w' ↦ Frame w w') w := by
  refine (keeps_runPhases _ w hI).bind ?_
  rintro (e | ⟨⟩) w₁ hI₁ h₁
  · exact ⟨hI₁, h₁⟩
  rcases hmode : config.tunnelMode with - | -
  · refine (keeps_runPhases _ w₁ hI₁).bind ?_
    rintro (e | ⟨⟩) w₂ hI₂ h₂
    · exact ⟨hI₂, h₁.trans h₂⟩
    refine (safe_refreshExpected hI₂).bind ?_
    rintro b w₃ hI₃ ⟨h₃, hb⟩
    have h₁₃ := (h₁.trans h₂).trans h₃
    refine (safe_coverAndApply hI₃ fun h ↦ ?_).mono fun _ _ _ h₄ ↦ h₁₃.trans h₄
    rw [h₁₃.held_eq]
    exact hfree (hb h)
  · refine (keeps_runPhases _ w₁ hI₁).bind ?_
    rintro (e | ⟨⟩) w₂ hI₂ h₂
    · exact ⟨hI₂, h₁.trans h₂⟩
    · exact ⟨hI₂, h₁.trans h₂⟩

/-! ### The transient cover -/

/-- The history says of a held cover what the posture says. -/
structure Tracks (pending : Option BlockedStart) (w : World) : Prop where
  held_eq : held w.log = (pending.map (·.cover)).toList
  engaged : ∀ b, pending = some b → .engage b.serverIp b.resolverPermit (some b.cover) ∈ w.log
  pin : ∀ b, pending = some b → lastResolved w.log = some (b.serverIp, b.pin)

theorem Tracks.frame {p : Option BlockedStart} (h : Tracks p w) (hf : Frame w w') :
    Tracks p w' where
  held_eq := hf.held_eq.trans h.held_eq
  engaged b hb := hf.sub _ (h.engaged b hb)
  pin b hb := hf.resolved_eq.trans (h.pin b hb)

theorem Tracks.none (h : held w.log = []) : Tracks none w := ⟨h, nofun, nofun⟩

/-- What `take_pending` leaves. -/
def Manager.released (m : Manager) : Manager :=
  match m.posture with
  | .pendingStart _ => { m with posture := .idle }
  | .idle => m
  | .session _ => m

theorem Manager.released_pending (m : Manager) : m.released.posture.pending = none := by
  rcases hp : m.posture with - | b | s <;> simp [Manager.released, hp, Posture.pending]

theorem Manager.released_isSession (m : Manager) :
    m.released.posture.isSession = m.posture.isSession := by
  rcases hp : m.posture with - | b | s <;> simp [Manager.released, hp, Posture.isSession]

theorem Manager.released_activeConfig (m : Manager) : m.released.activeConfig = m.activeConfig := by
  rcases hp : m.posture with - | b | s <;> simp [Manager.released, hp]

/-- The history after the one held guard went, and nothing else. -/
structure Freed (w w' : World) : Prop where
  held_eq : held w'.log = []
  resolved_eq : lastResolved w'.log = lastResolved w.log
  since_eq : engagedSince w'.log = engagedSince w.log

theorem safe_dropCover {b : BlockedStart} (hI : Ledger w) (ht : Tracks (some b) w) :
    (perform (PmOp.dropCover b.cover)).Safe pmHost Ledger (fun _ w' ↦ Freed w w') w := by
  refine ⟨hI, fun c ↦ ?_⟩
  have hlog : (pmHost.next w (.dropCover b.cover) c).log = .dropped b.cover :: w.log := by
    cases c <;> rfl
  have hnext : (pmHost.next w (.dropCover b.cover) c).nextGuard = w.nextGuard := by
    cases c <;> rfl
  refine ⟨hI.cons (e := .dropped b.cover) nofun trivial hlog (Nat.le_of_eq hnext.symm), ?_, ?_,
    ?_⟩ <;> rw [hlog]
  · show (held w.log).erase b.cover = []
    rw [ht.held_eq]
    exact List.erase_cons_head b.cover []
  · rfl
  · rfl

theorem safe_disarmCover {b : BlockedStart} (hI : Ledger w) (ht : Tracks (some b) w) :
    (perform (PmOp.disarmCover b.cover)).Safe pmHost Ledger (fun _ w' ↦ Freed w w') w := by
  refine ⟨hI, fun c ↦ ⟨hI.cons (e := .disarmed b.cover) nofun trivial rfl (Nat.le_refl _), ?_,
    rfl, rfl⟩⟩
  show (held w.log).erase b.cover = []
  rw [ht.held_eq]
  exact List.erase_cons_head b.cover []

/-- `take_pending` leaves no guard. -/
theorem safe_takePending (hI : Ledger w) (ht : Tracks m.posture.pending w) :
    (takePending m).Safe pmHost Ledger (fun m' w' ↦ m' = m.released ∧ Freed w w') w := by
  rcases hp : m.posture with - | b | s
  · simp only [takePending, Manager.released, hp] at ht ⊢
    exact ⟨hI, rfl, ht.held_eq, rfl, rfl⟩
  · simp only [takePending, Manager.released, hp] at ht ⊢
    exact (safe_dropCover hI ht).bind fun _ _ hI₁ hf ↦ ⟨hI₁, rfl, hf⟩
  · simp only [takePending, Manager.released, hp] at ht ⊢
    exact ⟨hI, rfl, ht.held_eq, rfl, rfl⟩

/-- What holds of the manager between the steps of a start. -/
structure Waiting (m : Manager) (w : World) : Prop where
  tracks : Tracks m.posture.pending w
  noSession : m.posture.isSession = false
  inactive : m.activeConfig = none

theorem Waiting.frame (h : Waiting m w) (hf : Frame w w') : Waiting m w' :=
  ⟨h.tracks.frame hf, h.noSession, h.inactive⟩

theorem Waiting.released (h : Waiting m w) (hf : Freed w w') : Waiting m.released w' where
  tracks := m.released_pending.symm ▸ .none hf.held_eq
  noSession := m.released_isSession.trans h.noSession
  inactive := m.released_activeConfig.trans h.inactive

/-- A conditional release: where the condition does not hold, nothing happened. -/
theorem safe_takePendingIf {c : Bool} (hI : Ledger w) (h : Waiting m w) :
    (takePendingIf c m).Safe pmHost Ledger
      (fun m' w' ↦ Waiting m' w' ∧ lastResolved w'.log = lastResolved w.log ∧
        engagedSince w'.log = engagedSince w.log ∧
        (c = false → m' = m) ∧ (c = true → m'.posture.pending = none)) w := by
  cases c with
  | false => exact ⟨hI, h, rfl, rfl, fun _ ↦ rfl, nofun⟩
  | true =>
    refine (safe_takePending hI h.tracks).mono ?_
    rintro m' w' hI' ⟨rfl, hf⟩
    exact ⟨h.released hf, hf.resolved_eq, hf.since_eq, nofun, fun _ ↦ m.released_pending⟩

/-- One call of `install_failclosed_cover`. -/
theorem safe_installFailclosedCover {r : Option IpAddr} (hI : Ledger w) (hfree : held w.log = []) :
    (perform (PmOp.installFailclosedCover ip r)).Safe pmHost Ledger
      (fun a w' ↦ lastResolved w'.log = lastResolved w.log ∧
        match (a : Except RoutingError Guard) with
        | .ok g => held w'.log = [g] ∧ .engage ip r (some g) ∈ w'.log
        | .error _ => held w'.log = [] ∧ engagedSince w'.log = engagedSince w.log) w := by
  refine ⟨hI, fun c ↦ ?_⟩
  have hnone (w' : World) (hlog : w'.log = .engage ip r none :: w.log)
      (hnext : w'.nextGuard = w.nextGuard) : Ledger w' ∧
        lastResolved w'.log = lastResolved w.log ∧ held w'.log = [] ∧
        engagedSince w'.log = engagedSince w.log := by
    refine ⟨hI.cons (e := .engage ip r none) nofun hfree hlog (Nat.le_of_eq hnext.symm), ?_, ?_,
      ?_⟩ <;> rw [hlog]
    · rfl
    · exact hfree
    · rfl
  have hsome (w' : World) (hlog : w'.log = .engage ip r (some w.nextGuard) :: w.log)
      (hnext : w'.nextGuard = w.nextGuard + 1) : Ledger w' ∧
        lastResolved w'.log = lastResolved w.log ∧ held w'.log = [w.nextGuard] ∧
        .engage ip r (some w.nextGuard) ∈ w'.log := by
    refine ⟨⟨hlog ▸ ⟨hfree, hI.ok⟩, ?_, ?_⟩, ?_, ?_, ?_⟩ <;> rw [hlog]
    · intro ip' r' g hg
      rw [hnext]
      rcases List.mem_cons.1 hg with heq | hg
      · obtain ⟨-, -, hg⟩ := PmEvent.engage.inj heq
        cases hg
        exact Nat.lt_succ_self _
      · exact Nat.lt_succ_of_lt (hI.fresh ip' r' g hg)
    · -- a guard in the history is below the next one, so it is not the one just given
      intro ip₁ r₁ ip₂ r₂ g h₁ h₂
      rcases List.mem_cons.1 h₁ with e₁ | h₁ <;> rcases List.mem_cons.1 h₂ with e₂ | h₂
      · obtain ⟨rfl, rfl, -⟩ := PmEvent.engage.inj e₁
        obtain ⟨rfl, rfl, -⟩ := PmEvent.engage.inj e₂
        exact ⟨rfl, rfl⟩
      · obtain ⟨-, -, hg⟩ := PmEvent.engage.inj e₁
        cases hg
        exact absurd (hI.fresh _ _ _ h₂) (Nat.lt_irrefl _)
      · obtain ⟨-, -, hg⟩ := PmEvent.engage.inj e₂
        cases hg
        exact absurd (hI.fresh _ _ _ h₁) (Nat.lt_irrefl _)
      · exact hI.unique _ _ _ _ g h₁ h₂
    · rfl
    · show w.nextGuard :: held w.log = [w.nextGuard]
      rw [hfree]
    · exact .head _
  cases c with
  | ok => exact hsome _ rfl rfl
  | replaces => exact hsome _ rfl rfl
  | _ => exact hnone _ rfl rfl

/-! ### A start -/

/-- The address and pin of a start come from the held cover, or from the last resolution. -/
def Sourced (m : Manager) (w : World) (ip : IpAddr) (pin : PinSource) : Prop :=
  match m.posture.pending with
  | some b => ip = b.serverIp
  | none => lastResolved w.log = some (ip, pin)

/-- A resolution runs only where no cover is held. -/
theorem safe_resolveOrReuse (hI : Ledger w) (h : Waiting m w)
    (hhost : ∀ b, m.posture.pending = some b → b.host = config.server.server) :
    (resolveOrReuse m config).Safe pmHost Ledger
      (fun a w' ↦ Waiting m w' ∧ engagedSince w'.log = engagedSince w.log ∧
        ∀ ip pin, a = .ok (ip, pin) → Sourced m w' ip pin) w := by
  rcases hp : m.posture.pending with - | b
  · simp only [resolveOrReuse, hp, Option.filter_none]
    have hnone (w' : World) (hlog : w'.log = w.log) : Waiting m w' :=
      ⟨hp ▸ .none (hlog ▸ h.tracks.held_eq.trans (hp ▸ rfl)), h.noSession, h.inactive⟩
    refine ⟨hI, fun c ↦ ?_⟩
    cases c with
    | resolved b =>
      have hw : Waiting m (w.record (.resolved b.serverIp b.via)) :=
        ⟨hp ▸ .none (h.tracks.held_eq.trans (hp ▸ rfl)), h.noSession, h.inactive⟩
      refine ⟨hI.cons (e := .resolved b.serverIp b.via) nofun trivial rfl (Nat.le_refl _), hw,
        rfl, fun ip pin heq ↦ ?_⟩
      cases heq
      rw [Sourced, hp]
      rfl
    | _ => exact ⟨hI, hnone w rfl, rfl, nofun⟩
  · simp only [resolveOrReuse, hp, Option.filter_some, hhost b hp, decide_true, if_true]
    refine ⟨hI, h, rfl, fun ip pin heq ↦ ?_⟩
    cases heq
    rw [Sourced, hp]

variable {permit : Option IpAddr} {pin : PinSource}

/-- A cover just engaged is tracked. -/
theorem Waiting.holdPending {g : Guard} (h : Waiting m w) (hheld : held w'.log = [g])
    (hengaged : .engage ip permit (some g) ∈ w'.log) (hpin : lastResolved w'.log = some (ip, pin)) :
    Waiting (holdPending m g config ip pin permit) w' where
  tracks := by
    refine ⟨hheld, fun b hb ↦ ?_, fun b hb ↦ ?_⟩ <;> cases hb
    · exact hengaged
    · exact hpin
  noSession := rfl
  inactive := h.inactive

/-- The engage of a covered start, the repair and its restore included. -/
theorem safe_engageCover {repair : Option (Option IpAddr × PinSource)} (hI : Ledger w)
    (h : Waiting m w) (hp : m.posture.pending = none)
    (hpin : lastResolved w.log = some (ip, (repair.map (·.2)).getD pin)) :
    (engageCover m config ip pin permit repair).Safe pmHost Ledger
      (fun m' w' ↦ Waiting m' w' ∧
        (engagedSince w'.log = true → engagedSince w.log = true ∨
          m'.posture.pending.isSome = true)) w := by
  have hfree : held w.log = [] := h.tracks.held_eq.trans (hp ▸ rfl)
  refine (safe_installFailclosedCover hI hfree).bind ?_
  rintro (e | g) w₁ hI₁ ⟨hres, hcase⟩
  · obtain ⟨hheld, hsince⟩ := hcase
    have hw₁ : Waiting { m with lastError := some e.display } w₁ :=
      ⟨hp ▸ .none hheld, h.noSession, h.inactive⟩
    rcases repair with - | ⟨oldPermit, originalPin⟩
    · exact ⟨hI₁, hw₁, fun hs ↦ .inl (hsince ▸ hs)⟩
    refine (safe_installFailclosedCover hI₁ hheld).bind ?_
    rintro (e' | g) w₂ hI₂ ⟨hres₂, hcase₂⟩
    · obtain ⟨hheld₂, hsince₂⟩ := hcase₂
      refine ⟨hI₂, ⟨hp ▸ .none hheld₂, h.noSession, h.inactive⟩, fun hs ↦ .inl ?_⟩
      rw [← hsince, ← hsince₂]
      exact hs
    · refine ⟨hI₂, hw₁.holdPending hcase₂.1 hcase₂.2 ?_, fun _ ↦ .inr rfl⟩
      rw [hres₂, hres]
      exact hpin
  · refine ⟨hI₁, h.holdPending hcase.1 hcase.2 ?_, fun _ ↦ .inr rfl⟩
    rw [hres, hpin]
    rcases repair with - | ⟨oldPermit, originalPin⟩ <;> rfl

/-- A repair gives up a held cover. -/
theorem repairFallback_eq_some {r : Option IpAddr × PinSource}
    (h : repairFallback m config permit = some r) :
    ∃ b, m.posture.pending = some b ∧ r = (b.resolverPermit, b.pin) := by
  rcases hp : m.posture.pending with - | b
  · simp [repairFallback, hp] at h
  · refine ⟨b, rfl, ?_⟩
    rw [repairFallback, hp, Option.filter_some] at h
    split at h
    · exact (Option.some.inj h).symm
    · cases h

/-- What becomes of the transient cover before `start_inner`. -/
theorem safe_settleCover {covered lockdownOn : Bool} (hI : Ledger w) (h : Waiting m w)
    (hsource : Sourced m w ip pin) :
    (settleCover m config covered lockdownOn ip pin permit).Safe pmHost Ledger
      (fun m' w' ↦ Waiting m' w' ∧ (lockdownOn = true → m'.posture.pending = none) ∧
        (engagedSince w'.log = true → engagedSince w.log = true ∨
          m'.posture.pending.isSome = true)) w := by
  unfold settleCover
  split
  · next hcov =>
    have hoff : lockdownOn = false := by
      rw [Bool.and_eq_true] at hcov
      simpa using hcov.2
    refine (safe_takePendingIf hI h).bind ?_
    rintro m' w' hI' ⟨hw', hres, hsince, hkept, -⟩
    rcases hp' : m'.posture.pending with - | b'
    · -- nothing is held: a fresh engage, or the repair of the cover just given up
      refine (safe_engageCover hI' hw' hp' ?_).mono ?_
      · rw [hres]
        rcases hr : repairFallback m config permit with - | r
        · obtain rfl := hkept (by rw [hr]; rfl)
          rw [Sourced, hp'] at hsource
          exact hsource
        · obtain ⟨b, hb, rfl⟩ := repairFallback_eq_some hr
          rw [Sourced, hb] at hsource
          rw [hsource]
          exact h.tracks.pin b hb
      · rintro m'' w'' hI'' ⟨hw'', hs⟩
        refine ⟨hw'', fun hon ↦ ?_, fun hs' ↦ ?_⟩
        · rw [hoff] at hon
          cases hon
        · rw [← hsince]
          exact hs hs'
    · refine ⟨hI', hw', fun hon ↦ ?_, fun hs ↦ .inl (hsince ▸ hs)⟩
      rw [hoff] at hon
      cases hon
  · refine (safe_takePending hI h.tracks).mono ?_
    rintro m' w' hI' ⟨rfl, hf⟩
    exact ⟨h.released hf, fun _ ↦ m.released_pending, fun hs ↦ .inl (hf.since_eq ▸ hs)⟩

/-- What a start leaves: the posture agrees with the history, and a covered start that engaged
and failed kept its cover. -/
structure Started (covered : Bool) (r : StartReport) (w : World) : Prop where
  tracks : Tracks r.manager.posture.pending w
  active : r.manager.activeConfig.isSome = r.manager.posture.isSession
  /-- A cover engaged by this start is held, where the start failed. -/
  retained : covered = true → r.lockdownOn = some false → ∀ e, r.error = some e →
    e ≠ .cancelled → engagedSince w.log = true → r.manager.posture.pending.isSome = true

theorem Waiting.active (h : Waiting m w) : m.activeConfig.isSome = m.posture.isSession := by
  rw [h.inactive, h.noSession]
  rfl

theorem safe_concludeStart {covered lockdownOn : Bool} {result : Except ProxyError RunningState}
    (hI : Ledger w) (h : Waiting m w)
    (hs : engagedSince w.log = true → m.posture.pending.isSome = true) :
    (concludeStart m config lockdownOn result).Safe pmHost Ledger (Started covered) w := by
  rcases result with e | state
  · cases e with
    | cancelled =>
      refine (safe_takePending hI h.tracks).bind ?_
      rintro m' w' hI' ⟨rfl, hf⟩
      have hw := h.released hf
      refine ⟨hI', hw.tracks, hw.active, fun _ _ e he hne ↦ ?_⟩
      exact absurd (Option.some.inj he).symm hne
    | _ => exact ⟨hI, h.tracks, h.active, fun _ _ _ _ _ ↦ hs⟩
  · refine (safe_takePending hI h.tracks).bind ?_
    rintro m' w' hI' ⟨rfl, hf⟩
    exact ⟨hI', .none hf.held_eq, rfl, fun _ _ _ he ↦ nomatch he⟩

variable {effective : EffectiveEch} {covered : Bool}

theorem safe_startResolved (hI : Ledger w) (h : Waiting m w) (hsource : Sourced m w ip pin)
    (hsince : engagedSince w.log = false) :
    (startResolved effective m config covered ip pin).Safe pmHost Ledger (Started covered) w := by
  refine (keeps_standingCoverExpected m w hI).bind fun lockdownOn w₁ hI₁ hf₁ ↦ ?_
  have hsource₁ : Sourced m w₁ ip pin := by
    rcases hp : m.posture.pending with - | b <;> rw [Sourced, hp] at hsource ⊢
    · rw [hf₁.resolved_eq]
      exact hsource
    · exact hsource
  refine (safe_settleCover hI₁ (h.frame hf₁) hsource₁).bind ?_
  rintro m₂ w₂ hI₂ ⟨hw₂, hon, hs₂⟩
  have hs : engagedSince w₂.log = true → m₂.posture.pending.isSome = true := fun hs ↦ by
    rcases hs₂ hs with hs | hs
    · rw [hf₁.since_eq, hsince] at hs
      cases hs
    · exact hs
  refine (safe_startInner hI₂ fun h ↦ ?_).bind fun result w₃ hI₃ hf₃ ↦ ?_
  · rw [hw₂.tracks.held_eq, hon h]
    rfl
  · refine safe_concludeStart hI₃ (hw₂.frame hf₃) ?_
    rw [hf₃.since_eq]
    exact hs

theorem safe_startFresh (hI : Ledger w) (h : Waiting m w) (hsince : engagedSince w.log = false) :
    (startFresh effective m config covered).Safe pmHost Ledger (Started covered) w := by
  refine (keeps_perform (o := .swapInvalidated) rfl w hI).bind fun invalidated w₁ hI₁ hf₁ ↦ ?_
  refine (safe_takePendingIf hI₁ (h.frame hf₁)).bind ?_
  rintro m₂ w₂ hI₂ ⟨hw₂, -, hs₂, -⟩
  have hw₂' : Waiting { m₂ with deathReason := none } w₂ :=
    ⟨hw₂.tracks, hw₂.noSession, hw₂.inactive⟩
  refine (safe_takePendingIf hI₂ hw₂').bind ?_
  rintro m₃ w₃ hI₃ ⟨hw₃, -, hs₃, hkept, hgone⟩
  have hhost : ∀ b, m₃.posture.pending = some b → b.host = config.server.server := by
    intro b hb
    cases hstale : Option.any (fun b ↦ b.host ≠ config.server.server) m₂.posture.pending with
    | true =>
      rw [hgone hstale] at hb
      cases hb
    | false =>
      obtain rfl := hkept hstale
      rw [show m₂.posture.pending = some b from hb] at hstale
      simpa using hstale
  refine (safe_resolveOrReuse hI₃ hw₃ hhost).bind ?_
  rintro (e | ⟨ip, pin⟩) w₄ hI₄ ⟨hw₄, hs₄, hsource⟩
  · cases e <;> exact ⟨hI₄, hw₄.tracks, hw₄.active, fun _ h ↦ nomatch h⟩
  · refine safe_startResolved hI₄ hw₄ (hsource ip pin rfl) ?_
    rw [hs₄, hs₃, hs₂, hf₁.since_eq, hsince]

/-! ### Acts -/

/-- What holds of the manager between acts. -/
structure Settled (m : Manager) (w : World) : Prop where
  tracks : Tracks m.posture.pending w
  active : m.activeConfig.isSome = m.posture.isSession
  since : engagedSince w.log = false

theorem safe_startCancellable (hI : Ledger w) (h : Settled m w) :
    (startCancellable effective m config covered).Safe pmHost Ledger (Started covered) w := by
  unfold startCancellable
  split
  · exact ⟨hI, h.tracks, h.active, fun _ h ↦ nomatch h⟩
  · next hno =>
    have hno : m.posture.isSession = false := Bool.eq_false_iff.2 hno
    refine safe_startFresh hI ⟨h.tracks, hno, ?_⟩ h.since
    exact Option.not_isSome_iff_eq_none.1 (by rw [h.active, hno]; exact nofun)

theorem safe_stopSession {s : RunningState} {event : SessionEvent} {target : Target ProxyConfig}
    (hI : Ledger w) (hfree : held w.log = []) (hsince : engagedSince w.log = false) :
    (stopSession m s event target).Safe pmHost Ledger (fun r w' ↦ Settled r.1 w') w := by
  have hposture (m₁ : Manager) (d : CoverDisposition) (w₁ : World) :
      (applyCoverDisposition m₁ d s.lockdown).Safe pmHost (fun _ ↦ True)
        (fun m' _ ↦ m'.posture = m₁.posture) w₁ := by
    cases d with
    | keepEngaged =>
      rcases s.lockdown with - | g
      · exact ⟨trivial, rfl⟩
      · exact ⟨trivial, fun _ ↦ ⟨trivial, rfl⟩⟩
    | releaseNow =>
      refine ⟨trivial, fun c ↦ ?_⟩
      rcases s.lockdown with - | g
      · cases c <;> exact ⟨trivial, rfl⟩
      · cases c <;> exact ⟨trivial, fun _ ↦ ⟨trivial, rfl⟩⟩
  refine (keeps_perform (o := .stopProxy) rfl w hI).bind fun res w₁ hI₁ h₁ ↦ ?_
  refine (keeps_perform (o := .lockdownCoverPresence) rfl w₁ hI₁).bind fun presence w₂ hI₂ h₂ ↦ ?_
  refine (keeps_effectiveLockdownIntent m w₂ hI₂).bind fun intent w₃ hI₃ h₃ ↦ ?_
  refine ((keeps_applyCoverDisposition _ _ s.lockdown w₃ hI₃).and (hposture _ _ w₃)).bind ?_
  rintro m₄ w₄ hI₄ ⟨h₄, hidle⟩
  have hf := ((h₁.trans h₂).trans h₃).trans h₄
  have hclear : (if event.preservesDeathReason = true then m₄ else m₄.clearReasons).posture =
      .idle := by
    split <;> exact hidle
  refine ⟨hI₄, ?_, ?_, hf.since_eq.trans hsince⟩
  · show Tracks (if event.preservesDeathReason = true then m₄ else m₄.clearReasons).posture.pending
      w₄
    rw [hclear]
    exact .none (hf.held_eq.trans hfree)
  · show false =
      (if event.preservesDeathReason = true then m₄ else m₄.clearReasons).posture.isSession
    rw [hclear]
    rfl

theorem safe_stopWith {event : SessionEvent} (hI : Ledger w) (h : Settled m w) :
    (stopWith m event).Safe pmHost Ledger (fun r w' ↦ Settled r.1 w') w := by
  refine (keeps_persistSessionEvent m event w hI).bind fun target w₁ hI₁ hf₁ ↦ ?_
  have hs₁ : engagedSince w₁.log = false := hf₁.since_eq.trans h.since
  rcases hp : m.posture with - | b | s
  · exact ⟨hI₁, h.tracks.frame hf₁, h.active, hs₁⟩
  · have ht : Tracks (some b) w₁ := by
      have ht := h.tracks.frame hf₁
      rwa [hp] at ht
    have hinactive : m.activeConfig = none := by
      have hactive := h.active
      rw [hp] at hactive
      exact Option.not_isSome_iff_eq_none.1 (by rw [hactive]; exact nofun)
    have hfree : (settlePending b event).Safe pmHost Ledger (fun _ w' ↦ Freed w₁ w') w₁ := by
      unfold settlePending
      split
      · exact safe_dropCover hI₁ ht
      · exact safe_disarmCover hI₁ ht
    refine hfree.bind fun _ w₂ hI₂ hf₂ ↦ ⟨hI₂, .none hf₂.held_eq, ?_, hf₂.since_eq.trans hs₁⟩
    show m.activeConfig.isSome = false
    rw [hinactive]
    rfl
  · refine safe_stopSession hI₁ ?_ hs₁
    rw [(h.tracks.frame hf₁).held_eq, hp]
    rfl

theorem safe_reload (hI : Ledger w) (h : Settled m w) :
    (reload effective m config).Safe pmHost Ledger (Started false) w := by
  rcases ha : m.activeConfig with - | active
  · simp only [reload, ha]
    exact safe_startCancellable hI h
  · simp only [reload, ha]
    split
    · refine ⟨hI, h.tracks, ?_, nofun⟩
      show true = m.posture.isSession
      rw [← h.active, ha]
      rfl
    · refine (safe_stopWith hI h).bind ?_
      rintro ⟨m₁, e | ⟨⟩⟩ w₁ hI₁ h₁
      · exact ⟨hI₁, h₁.tracks, h₁.active, nofun⟩
      · exact safe_startCancellable hI₁ h₁

theorem safe_turnLockdownOff (hI : Ledger w) (h : Settled m w) :
    (turnLockdownOff m).Safe pmHost Ledger (fun r w' ↦ Settled r.1 w') w := by
  refine (safe_takePending hI h.tracks).bind ?_
  rintro m₁ w₁ hI₁ ⟨rfl, hf₁⟩
  have hsettled (w' : World) (hf : Frame w₁ w') (adopted : Bool) :
      Settled { m.released with adoptedStandingCover := adopted } w' := by
    refine ⟨?_, ?_, ?_⟩
    · show Tracks m.released.posture.pending w'
      rw [m.released_pending]
      exact .none (hf.held_eq.trans hf₁.held_eq)
    · show m.released.activeConfig.isSome = m.released.posture.isSession
      rw [m.released_activeConfig, m.released_isSession]
      exact h.active
    · exact hf.since_eq.trans (hf₁.since_eq.trans h.since)
  refine (keeps_perform (o := .releaseAllCovers) rfl w₁ hI₁).bind ?_
  rintro (e | ⟨⟩) w₂ hI₂ hf₂
  · exact ⟨hI₂, hsettled w₂ hf₂ _⟩
  · refine (keeps_setLockdownIntent _ false w₂ hI₂).bind ?_
    rintro (kind | ⟨⟩) w₃ hI₃ hf₃
    · exact ⟨hI₃, hsettled w₃ (hf₂.trans hf₃) false⟩
    · exact ⟨hI₃, hsettled w₃ (hf₂.trans hf₃) false⟩

/-- What holds between acts. -/
structure Books (w : World) : Prop extends Ledger w where
  settled : Settled w.manager w

theorem books_start (stateDir adopted standing : Bool) (intent : Intent)
    (target : Target ProxyConfig) :
    Books (World.start stateDir adopted standing intent target) where
  ok := trivial
  fresh := nofun
  unique := nofun
  settled := ⟨.none rfl, rfl, rfl⟩

theorem Ledger.crash (hI : Ledger w) : Books w.crash where
  toLedger := hI.cons (e := .crashed) nofun trivial rfl (Nat.le_refl _)
  settled := ⟨.none rfl, rfl, rfl⟩

/-- The end of a start. -/
theorem Started.books {r : StartReport} (hI : Ledger w) (h : Started covered r w) :
    Books { w with
      manager := r.manager
      log := (PmOutcome.ofStart covered r).ended.toList ++ w.log } where
  toLedger := by
    refine hI.cons (e := .startEnded covered r.lockdownOn r.error
      r.manager.posture.pending.isSome) nofun h.retained rfl (Nat.le_refl _)
  settled := ⟨⟨h.tracks.held_eq, fun b hb ↦ .tail _ (h.tracks.engaged b hb),
    h.tracks.pin⟩, h.active, rfl⟩

theorem Books.of_settled (hI : Ledger w) (h : Settled m w) : Books { w with manager := m } where
  ok := hI.ok
  fresh := hI.fresh
  unique := hI.unique
  settled := ⟨⟨h.tracks.held_eq, h.tracks.engaged, h.tracks.pin⟩, h.active, h.since⟩

/-- **One act** keeps the books, wherever it is cut. -/
theorem books_step {e : PmAct × List PmChoice} (h : Books w) :
    Books ((pmMachine effective).step w e) := by
  refine Machine.step_of_safe h ?_ fun _ hI ↦ Ledger.crash hI
  intro p hp
  obtain ⟨act, cs⟩ := e
  have hneutral (e : PmEvent) (he : e.neutral = true) (hok : e.Ok w.log) (w' : World)
      (hlog : w'.log = e :: w.log) (hnext : w'.nextGuard = w.nextGuard)
      (hm : w'.manager = w.manager) : Books w' := by
    have hf : Frame w w' := .of_neutral he hlog
    refine ⟨h.toLedger.of_neutral he hok hlog (Nat.le_of_eq hnext.symm), ?_⟩
    rw [hm]
    exact ⟨h.settled.tracks.frame hf, h.settled.active, hf.since_eq.trans h.settled.since⟩
  cases act with
  | start config covered =>
    cases hp
    exact (safe_startCancellable h.toLedger h.settled).bind fun r w' hI' hr ↦
      ⟨hI', hr.books hI'⟩
  | stop event =>
    cases hp
    exact (safe_stopWith h.toLedger h.settled).bind fun r w' hI' hr ↦
      ⟨hI', .of_settled hI' hr⟩
  | reload config =>
    cases hp
    exact (safe_reload h.toLedger h.settled).bind fun r w' hI' hr ↦ ⟨hI', hr.books hI'⟩
  | turnLockdownOff =>
    cases hp
    exact (safe_turnLockdownOff h.toLedger h.settled).bind fun r w' hI' hr ↦
      ⟨hI', .of_settled hI' hr⟩
  | unblock =>
    cases hp
    exact ⟨h.toLedger, hneutral .unblocked rfl trivial _ rfl rfl rfl⟩
  | setIntent i =>
    cases hp
    exact ⟨h.toLedger, hneutral (.intentChanged i) rfl trivial _ rfl rfl rfl⟩
  | crash =>
    cases hp
    exact ⟨h.toLedger, Ledger.crash h.toLedger⟩

theorem Books.bookkeeping (h : Books w) : Bookkeeping w where
  single newer older hlog := (hlog ▸ h.ok).of_append.length_held_le
  engage_free newer older ip r g hlog := (hlog ▸ h.ok).of_append.1
  lockdown_free newer older ip g hlog := (hlog ▸ h.ok).of_append.1
  held_eq := h.settled.tracks.held_eq
  arguments b hb ip r := by
    have hengaged := h.settled.tracks.engaged b (by rw [hb]; rfl)
    refine ⟨fun hmem ↦ h.unique _ _ _ _ _ hmem hengaged, ?_⟩
    rintro ⟨rfl, rfl⟩
    exact hengaged
  pin b hb := h.settled.tracks.pin b (by rw [hb]; rfl)
  retained newer older e pending hlog hne hs := (hlog ▸ h.ok).of_append.1 rfl rfl e rfl hne hs
  active := by
    rw [h.settled.active]
    rcases w.manager.posture with - | b | s <;> simp [Posture.isSession]

/-- **The books of the transient cover are right in every run.** -/
theorem bookkeeping_of_run (effective : EffectiveEch) (stateDir adopted standing : Bool)
    (intent : Intent) (target : Target ProxyConfig) (es : List (PmAct × List PmChoice)) :
    Bookkeeping
      ((pmMachine effective).exec (World.start stateDir adopted standing intent target) es) :=
  Books.bookkeeping (Machine.exec_of_step (fun _ _ h ↦ books_step h) es
    (books_start stateDir adopted standing intent target))

end Hole.Bridge
