import Hole.Bridge.ManagerSystem

/-!
# The standing cover across retries

While the kill switch is armed and the target is not off, starts, structural reloads and blips
should never open a host whose standing cover has been live. A blip hands the live cover over by
`disarm`, and a start that fails **before** `install_lockdown` holds no guard over it, so both
leave it alone. A start that got past the install holds a fresh guard, and its one later error
path, a `Dns::apply` that fails, drops that guard: `opened_by_failed_start` is a reconnect that
opens the host this way. On macOS the install itself restores the host's rules where its ruleset
does not load.

`live_of_keepsCover` says that these are the only ways: in every run of retries whose events are
none of the two, a cover that has been live is live.
-/

namespace Hole.Bridge

open Effect FailClosed
open Prog (perform)

/-- The acts of a bridge that keeps trying: starts, reloads and blips. -/
def PmAct.isRetry : PmAct → Bool
  | start _ _ => true
  | reload _ => true
  | stop event => event = .blipped
  | _ => false

/-- Nothing from outside: no unblock, no write of the intent, no crash. -/
def PmEvent.undisturbed : PmEvent → Bool
  | .intentChanged _ => false
  | .unblocked => false
  | .crashed => false
  | _ => true

/-- No start fails in `Dns::apply` with a standing guard in hand, and no install of the standing
cover restores the host's own rules. -/
def PmEvent.keepsCover : PmEvent → Bool
  | .dnsApplyFailed guarded => !guarded
  | .lockdownUnwound => false
  | _ => true

/-- A history of such events. -/
def Clean (log : List PmEvent) : Prop := ∀ e ∈ log, e.undisturbed = true ∧ e.keepsCover = true

instance (log : List PmEvent) : Decidable (Clean log) := inferInstanceAs (Decidable (∀ e ∈ log, _))

/-- The kill switch is armed: the intent reads on, or a live cover was adopted and the intent does
not read off. -/
def Armed (m : Manager) (intent : Intent) : Prop :=
  if m.stateDir then intent = .on ∨ (intent ≠ .off ∧ m.adoptedStandingCover = true)
  else m.adoptedStandingCover = true

instance (m : Manager) (intent : Intent) : Decidable (Armed m intent) :=
  inferInstanceAs (Decidable (if m.stateDir = true then
    intent = .on ∨ (intent ≠ .off ∧ m.adoptedStandingCover = true)
    else m.adoptedStandingCover = true))

variable {w w' w'' : World} {m : Manager} {α β : Type}

theorem Clean.of_append {newer older : List PmEvent} (h : Clean (newer ++ older)) : Clean older :=
  fun e he ↦ h e (List.mem_append_right _ he)

/-- What holds in every state. -/
def Inv (w : World) : Prop := Clean w.log → w.wasLive = true → w.standing = true

/-- Every call only adds to the history. -/
theorem log_next (w : World) (o : PmOp) (c : PmChoice) :
    ∃ newer, (pmNext w o c).log = newer ++ w.log := by
  cases o with
  | phase p => cases p <;> cases c <;> first | exact ⟨[], rfl⟩ | exact ⟨[_], rfl⟩
  | _ => cases c <;> first | exact ⟨[], rfl⟩ | exact ⟨[_], rfl⟩ | exact ⟨[_, _], rfl⟩

/-- A history that is not clean stays so, whatever runs. -/
theorem safe_of_not_clean (p : PmM α) (h : ¬Clean w.log) :
    p.Safe pmHost Inv (fun _ w' ↦ ¬Clean w'.log) w := by
  induction p generalizing w with
  | pure a => exact ⟨fun hc ↦ absurd hc h, h⟩
  | call o k ih =>
    refine ⟨fun hc ↦ absurd hc h, fun c ↦ ih _ fun hc ↦ h ?_⟩
    obtain ⟨newer, hlog⟩ := log_next w o c
    exact Clean.of_append (hlog ▸ hc)

/-- What a clean history leads to may be proved from one. -/
theorem safe_of_clean {p : PmM α} {R : α → World → Prop}
    (h : Clean w.log → p.Safe pmHost Inv (fun a w' ↦ Clean w'.log → R a w') w) :
    p.Safe pmHost Inv (fun a w' ↦ Clean w'.log → R a w') w := by
  by_cases hc : Clean w.log
  · exact h hc
  · exact (safe_of_not_clean p hc).mono fun _ _ _ hno hc' ↦ absurd hc' hno

/-- A step of a retry: a clean history was clean before, the intent is as it was or reads on, and
the target and the guard are as they were. -/
def Steady (w w' : World) : Prop :=
  Clean w'.log → Clean w.log ∧ (w'.intent = w.intent ∨ w'.intent = .on) ∧
    w'.target = w.target ∧ w'.lockdownHeld = w.lockdownHeld

theorem Steady.trans (h : Steady w w') (h' : Steady w' w'') : Steady w w'' := by
  intro hc
  obtain ⟨hc', hi', ht', hl'⟩ := h' hc
  obtain ⟨hc'', hi, ht, hl⟩ := h hc'
  refine ⟨hc'', ?_, ht'.trans ht, hl'.trans hl⟩
  rcases hi' with hi' | hi'
  · rw [hi']
    exact hi
  · exact .inr hi'

theorem Armed.steady (h : Armed m w.intent) (hs : Steady w w') (hc : Clean w'.log) :
    Armed m w'.intent := by
  rcases (hs hc).2.1 with hi | hi
  · rw [hi]
    exact h
  · unfold Armed at h ⊢
    split
    · exact .inl hi
    · next hdir => rwa [if_neg hdir] at h

/-- A program that leaves the standing cover alone. -/
def Leaves (p : PmM α) : Prop := ∀ w, Inv w → p.Safe pmHost Inv (fun _ w' ↦ Steady w w') w

theorem leaves_pure (a : α) : Leaves (pure a : PmM α) :=
  fun _ hI ↦ ⟨hI, fun hc ↦ ⟨hc, .inl rfl, rfl, rfl⟩⟩

theorem Leaves.bind {p : PmM α} {f : α → PmM β} (hp : Leaves p) (hf : ∀ a, Leaves (f a)) :
    Leaves (p >>= f) := by
  intro w hI
  refine (hp w hI).bind fun a w₁ hI₁ h₁ ↦ ?_
  exact (hf a w₁ hI₁).mono fun _ _ _ h₂ ↦ h₁.trans h₂

/-- The calls that leave the standing cover alone. -/
def PmOp.leaves : PmOp → Bool
  | .swapInvalidated => true
  | .resolve _ => true
  | .loadIntent => true
  | .setEnabled enabled => enabled
  | .lockdownCoverPresence => true
  | .phase _ => true
  | .persistSessionEvent event => event = .blipped
  | .stopProxy => true
  | _ => false

theorem leaves_perform {o : PmOp} (ho : o.leaves = true) : Leaves (perform o) := by
  intro w hI
  refine ⟨hI, fun c ↦ ?_⟩
  have hsame (w' : World) (hlog : ∃ newer, w'.log = newer ++ w.log)
      (hstanding : w'.standing = w.standing) (hwas : w'.wasLive = w.wasLive)
      (hintent : w'.intent = w.intent ∨ w'.intent = .on) (htarget : w'.target = w.target)
      (hheld : w'.lockdownHeld = w.lockdownHeld) : Inv w' ∧ Steady w w' := by
    obtain ⟨newer, hlog⟩ := hlog
    refine ⟨fun hc ↦ ?_, fun hc ↦ ⟨(hlog ▸ hc).of_append, hintent, htarget, hheld⟩⟩
    rw [hstanding, hwas]
    exact hI (hlog ▸ hc).of_append
  have hdirty (w' : World) (e : PmEvent) (he : e.undisturbed = false)
      (hlog : w'.log = e :: w.log) : Inv w' ∧ Steady w w' := by
    have hno : ¬Clean w'.log := fun hc ↦ by
      have h := (hc e (hlog ▸ (.head _))).1
      rw [he] at h
      cases h
    exact ⟨fun hc ↦ absurd hc hno, fun hc ↦ absurd hc hno⟩
  cases o with
  | loadIntent =>
    cases c with
    | intent i => exact hdirty _ (.intentChanged i) rfl rfl
    | unblock => exact hdirty _ .unblocked rfl rfl
    | _ => exact hsame _ ⟨[], rfl⟩ rfl rfl (.inl rfl) rfl rfl
  | setEnabled enabled =>
    obtain rfl : enabled = true := ho
    cases c with
    | ok => exact hsame _ ⟨[], rfl⟩ rfl rfl (.inr rfl) rfl rfl
    | _ => exact hsame _ ⟨[], rfl⟩ rfl rfl (.inl rfl) rfl rfl
  | persistSessionEvent event =>
    obtain rfl : event = .blipped := by simpa [PmOp.leaves] using ho
    cases c <;> exact hsame _ ⟨[], rfl⟩ rfl rfl (.inl rfl) rfl rfl
  | resolve host =>
    cases c with
    | resolved b => exact hsame _ ⟨[_], rfl⟩ rfl rfl (.inl rfl) rfl rfl
    | _ => exact hsame _ ⟨[], rfl⟩ rfl rfl (.inl rfl) rfl rfl
  | phase p =>
    refine hsame _ (log_next w (.phase p) c) ?_ ?_ (.inl ?_) ?_ ?_ <;> cases p <;> cases c <;> rfl
  | swapInvalidated => exact hsame _ ⟨[], rfl⟩ rfl rfl (.inl rfl) rfl rfl
  | lockdownCoverPresence => exact hsame _ ⟨[], rfl⟩ rfl rfl (.inl rfl) rfl rfl
  | stopProxy => exact hsame _ ⟨[], rfl⟩ rfl rfl (.inl rfl) rfl rfl
  | _ => cases ho

theorem leaves_runPhases (ps : List Phase) : Leaves (runPhases ps) := by
  induction ps with
  | nil => exact leaves_pure _
  | cons p ps ih =>
    refine (leaves_perform (o := .phase p) rfl).bind fun r ↦ ?_
    rcases r with e | ⟨⟩
    · exact leaves_pure _
    · exact ih

theorem leaves_promoteAdoptedClaim (stateDir : Bool) : Leaves (promoteAdoptedClaim stateDir) := by
  have hset : Leaves (do let _ ← perform (PmOp.setEnabled true) : PmM Unit) :=
    (leaves_perform (o := .setEnabled true) rfl).bind fun _ ↦ leaves_pure ()
  unfold promoteAdoptedClaim
  split
  · refine (leaves_perform (o := .loadIntent) rfl).bind fun intent ↦ ?_
    cases intent with
    | on => exact leaves_pure ()
    | off => exact leaves_pure ()
    | unset => exact hset
    | unreadable => exact hset
  · exact leaves_pure ()

theorem leaves_refreshExpected (stateDir expected : Bool) :
    Leaves (refreshExpected stateDir expected) := by
  unfold refreshExpected
  split
  · exact (leaves_perform (o := .loadIntent) rfl).bind fun _ ↦ leaves_pure _
  · exact leaves_pure _

/-- With nothing held, there is nothing to release. -/
theorem takePending_eq (h : m.posture.pending = none) : takePending m = pure m := by
  rcases hp : m.posture with - | b | s
  · simp [takePending, hp]
  · rw [hp] at h
    cases h
  · simp [takePending, hp]

theorem takePendingIf_eq {c : Bool} (h : m.posture.pending = none) :
    takePendingIf c m = pure m := by
  cases c with
  | true => exact takePending_eq h
  | false => rfl

/-- A read of an armed intent. -/
theorem safe_loadIntent (hI : Inv w) (harmed : Armed m w.intent) (hdir : m.stateDir = true) :
    (perform PmOp.loadIntent).Safe pmHost Inv
      (fun a w' ↦ Steady w w' ∧ (Clean w'.log → (a : Intent) = .on ∨
        ((a : Intent) ≠ .off ∧ m.adoptedStandingCover = true))) w := by
  have hread : (perform PmOp.loadIntent).Safe pmHost Inv
      (fun a w' ↦ Steady w w' ∧ (a : Intent) = w'.intent) w :=
    (leaves_perform (o := .loadIntent) rfl w hI).and (J := fun _ ↦ True)
      ⟨trivial, fun _ ↦ ⟨trivial, rfl⟩⟩
  refine hread.mono ?_
  rintro intent w₁ - ⟨hs, rfl⟩
  refine ⟨hs, fun hc ↦ ?_⟩
  have harmed₁ := harmed.steady hs hc
  rwa [Armed, if_pos hdir] at harmed₁

/-- The switch reads on for a start. -/
theorem safe_standingCoverExpected (hI : Inv w) (harmed : Armed m w.intent) :
    (standingCoverExpected m).Safe pmHost Inv
      (fun b w' ↦ Steady w w' ∧ (Clean w'.log → b = true)) w := by
  rcases hdir : m.stateDir with - | -
  · simp only [standingCoverExpected, hdir, Bool.false_eq_true, if_false]
    simp only [Armed, hdir, Bool.false_eq_true, if_false] at harmed
    exact ⟨hI, fun hc ↦ ⟨hc, .inl rfl, rfl, rfl⟩, fun _ ↦ harmed⟩
  · simp only [standingCoverExpected, hdir, if_true]
    refine (safe_loadIntent hI harmed hdir).bind ?_
    rintro (intent : Intent) w₁ hI₁ ⟨hs, hi⟩
    refine ⟨hI₁, hs, fun hc ↦ ?_⟩
    rcases hi hc with hon | ⟨hoff, hadopted⟩
    · obtain rfl : intent = .on := hon
      simp [Intent.installsStandingCover]
    · have hoff : intent ≠ .off := hoff
      simp [hoff, hadopted]

/-- The switch reads on for a teardown. -/
theorem safe_effectiveLockdownIntent (hI : Inv w) (harmed : Armed m w.intent) :
    (effectiveLockdownIntent m).Safe pmHost Inv
      (fun i w' ↦ Steady w w' ∧ (Clean w'.log → i = .on)) w := by
  rcases hdir : m.stateDir with - | -
  · simp only [effectiveLockdownIntent, hdir, Bool.false_eq_true, if_false]
    simp only [Armed, hdir, Bool.false_eq_true, if_false] at harmed
    refine ⟨hI, fun hc ↦ ⟨hc, .inl rfl, rfl, rfl⟩, fun _ ↦ ?_⟩
    rw [harmed]
    rfl
  · simp only [effectiveLockdownIntent, hdir, if_true]
    refine (safe_loadIntent hI harmed hdir).bind ?_
    rintro (intent : Intent) w₁ hI₁ ⟨hs, hi⟩
    refine ⟨hI₁, hs, fun hc ↦ ?_⟩
    rcases hi hc with hon | ⟨hoff, hadopted⟩
    · obtain rfl : intent = .on := hon
      simp
    · have hoff : intent ≠ .off := hoff
      simp [hoff, hadopted]

/-! ### A start -/

/-- What a start may change beside the cover: a guard of its own. -/
def Retried (w w' : World) : Prop :=
  Clean w'.log → Clean w.log ∧ (w'.intent = w.intent ∨ w'.intent = .on) ∧ w'.target = w.target

theorem Steady.retried (h : Steady w w') : Retried w w' := fun hc ↦
  ⟨(h hc).1, (h hc).2.1, (h hc).2.2.1⟩

theorem Retried.trans (h : Retried w w') (h' : Retried w' w'') : Retried w w'' := by
  intro hc
  obtain ⟨hc', hi', ht'⟩ := h' hc
  obtain ⟨hc'', hi, ht⟩ := h hc'
  refine ⟨hc'', ?_, ht'.trans ht⟩
  rcases hi' with hi' | hi'
  · rw [hi']
    exact hi
  · exact .inr hi'

theorem Retried.of_not_clean (h : ¬Clean w'.log) : Retried w w' := fun hc ↦ absurd hc h

variable {config : ProxyConfig} {ip : IpAddr}

/-- A `Dns::apply` that fails with a guard in hand ends a clean history before the guard is
dropped. -/
theorem safe_applyDns {g : Option Guard} (hI : Inv w)
    (hg : g.isSome = true → Clean w.log → w.lockdownHeld = true) :
    (applyDns config ip g).Safe pmHost Inv (fun _ w' ↦ Retried w w') w := by
  unfold applyDns
  split
  · have hphase : (perform (PmOp.phase .dnsApply)).Safe pmHost Inv
        (fun a w' ↦ Steady w w' ∧ ∀ e, (a : Except ProxyError Unit) = .error e →
          .dnsApplyFailed w.lockdownHeld ∈ w'.log) w := by
      refine (leaves_perform (o := .phase .dnsApply) rfl w hI).and (J := fun _ ↦ True)
        ⟨trivial, fun c ↦ ⟨trivial, ?_⟩⟩
      cases c with
      | ok => exact nofun
      | _ => exact fun _ _ ↦ .head _
    refine hphase.bind ?_
    rintro (e | ⟨⟩) w₁ hI₁ ⟨hs, hfailed⟩
    · cases g with
      | none => exact ⟨hI₁, hs.retried⟩
      | some g =>
        have hno : ¬Clean w₁.log := fun hc ↦ by
          have h := (hc _ (hfailed e rfl)).2
          rw [hg rfl (hs hc).1] at h
          cases h
        refine (safe_of_not_clean _ hno).mono fun _ _ _ h ↦ Retried.of_not_clean h
    · exact ⟨hI₁, hs.retried⟩
  · exact ⟨hI, fun hc ↦ ⟨hc, .inl rfl, rfl⟩⟩

/-- An install leaves the cover live, or as it is, or ends a clean history. -/
theorem safe_installLockdown (hI : Inv w) :
    (perform (PmOp.installLockdown ip)).Safe pmHost Inv
      (fun a w' ↦ Retried w w' ∧ ((a : Except RoutingError Guard).isOk = true →
        w'.lockdownHeld = true)) w := by
  have hcons {w' : World} {e : PmEvent} (hlog : w'.log = e :: w.log)
      (hintent : w'.intent = w.intent) (htarget : w'.target = w.target) : Retried w w' :=
    fun hc ↦ ⟨fun e' he ↦ hc e' (hlog ▸ .tail _ he), .inl hintent, htarget⟩
  refine ⟨hI, fun c ↦ ?_⟩
  cases c with
  | ok => exact ⟨fun _ _ ↦ rfl, hcons rfl rfl rfl, fun _ ↦ rfl⟩
  | committed e => exact ⟨fun _ _ ↦ rfl, hcons rfl rfl rfl, nofun⟩
  | unwound e =>
    have hno : ¬Clean (pmHost.next w (.installLockdown ip) (.unwound e)).log :=
      fun hc ↦ nomatch (hc .lockdownUnwound (.head _)).2
    exact ⟨fun hc ↦ absurd hc hno, Retried.of_not_clean hno, nofun⟩
  | _ => exact ⟨fun hc ↦ hI fun e he ↦ hc e (.tail _ he), hcons rfl rfl rfl, nofun⟩

theorem safe_coverAndApply_live {stateDir expected : Bool} (hI : Inv w) :
    (coverAndApply config ip stateDir expected).Safe pmHost Inv (fun _ w' ↦ Retried w w') w := by
  cases expected with
  | false => exact safe_applyDns hI nofun
  | true =>
    refine (safe_installLockdown hI).bind ?_
    rintro (e | g) w₁ hI₁ ⟨h₁, hheld⟩
    · exact ⟨hI₁, h₁⟩
    refine (leaves_promoteAdoptedClaim stateDir w₁ hI₁).bind fun _ w₂ hI₂ h₂ ↦ ?_
    refine (safe_applyDns hI₂ fun _ hc ↦ ?_).mono fun _ _ _ h₃ ↦ (h₁.trans h₂.retried).trans h₃
    rw [(h₂ hc).2.2.2]
    exact hheld rfl

theorem safe_startInner_live {stateDir expected : Bool} (hI : Inv w) :
    (startInner config ip stateDir expected).Safe pmHost Inv (fun _ w' ↦ Retried w w') w := by
  refine (leaves_runPhases _ w hI).bind ?_
  rintro (e | ⟨⟩) w₁ hI₁ h₁
  · exact ⟨hI₁, h₁.retried⟩
  rcases hmode : config.tunnelMode with - | -
  · refine (leaves_runPhases _ w₁ hI₁).bind ?_
    rintro (e | ⟨⟩) w₂ hI₂ h₂
    · exact ⟨hI₂, (h₁.trans h₂).retried⟩
    refine (leaves_refreshExpected _ _ w₂ hI₂).bind fun b w₃ hI₃ h₃ ↦ ?_
    exact (safe_coverAndApply_live hI₃).mono
      fun _ _ _ h₄ ↦ ((h₁.trans h₂).trans h₃).retried.trans h₄
  · refine (leaves_runPhases _ w₁ hI₁).bind ?_
    rintro (e | ⟨⟩) w₂ hI₂ h₂
    · exact ⟨hI₂, (h₁.trans h₂).retried⟩
    · exact ⟨hI₂, (h₁.trans h₂).retried⟩

/-- What holds of the manager between acts of a retry. -/
structure Ready (m : Manager) (w : World) : Prop where
  armed : Armed m w.intent
  target : w.target ≠ .off
  noPending : m.posture.pending = none

theorem Armed.congr {m' : Manager} {i : Intent} (h : Armed m i) (hdir : m'.stateDir = m.stateDir)
    (hadopted : m'.adoptedStandingCover = m.adoptedStandingCover) : Armed m' i := by
  unfold Armed at h ⊢
  rwa [hdir, hadopted]

theorem Ready.retried {m' : Manager} (h : Ready m w) (hr : Retried w w') (hc : Clean w'.log)
    (hdir : m'.stateDir = m.stateDir)
    (hadopted : m'.adoptedStandingCover = m.adoptedStandingCover)
    (hp : m'.posture.pending = none) : Ready m' w' where
  armed := by
    obtain ⟨-, hi, -⟩ := hr hc
    refine Armed.congr ?_ hdir hadopted
    rcases hi with hi | hi
    · rw [hi]
      exact h.armed
    · have harmed := h.armed
      unfold Armed at harmed ⊢
      split
      · exact .inl hi
      · next hdir => rwa [if_neg hdir] at harmed
  target := by
    rw [(hr hc).2.2]
    exact h.target
  noPending := hp

/-- The arms of a start keep the manager ready. -/
theorem safe_concludeStart_live {lockdownOn : Bool} {result : Except ProxyError RunningState}
    (hI : Inv w) (h : Clean w.log → Ready m w) (hp : m.posture.pending = none) :
    (concludeStart m config lockdownOn result).Safe pmHost Inv
      (fun r w' ↦ Clean w'.log → Ready r.manager w') w := by
  have htake : takePending m = pure m := takePending_eq hp
  rcases result with e | state
  · cases e with
    | cancelled =>
      simp only [concludeStart, htake]
      exact ⟨hI, h⟩
    | _ => exact ⟨hI, fun hc ↦ ⟨(h hc).armed, (h hc).target, hp⟩⟩
  · simp only [concludeStart, htake]
    exact ⟨hI, fun hc ↦ ⟨(h hc).armed, (h hc).target, rfl⟩⟩

variable {effective : EffectiveEch} {covered : Bool}

theorem safe_startResolved_live {pin : PinSource} (hI : Inv w) (h : Ready m w) :
    (startResolved effective m config covered ip pin).Safe pmHost Inv
      (fun r w' ↦ Clean w'.log → Ready r.manager w') w := by
  refine (safe_standingCoverExpected hI h.armed).bind fun lockdownOn w₁ hI₁ ⟨h₁, hon⟩ ↦ ?_
  refine safe_of_clean fun hc ↦ ?_
  -- A switch that reads on leaves no transient cover to engage.
  obtain rfl := hon hc
  have hsettle (permit : Option IpAddr) :
      settleCover m config covered true ip pin permit = pure m := by
    simp only [settleCover, Bool.not_true, Bool.and_false, Bool.false_eq_true, if_false]
    exact takePending_eq h.noPending
  rw [hsettle]
  refine (safe_startInner_live hI₁).bind fun result w₂ hI₂ h₂ ↦ ?_
  exact safe_concludeStart_live hI₂
    (fun hc ↦ h.retried (h₁.retried.trans h₂) hc rfl rfl h.noPending) h.noPending

/-- A start leaves a ready manager. -/
theorem safe_startFresh_live (hI : Inv w) (h : Ready m w) :
    (startFresh effective m config covered).Safe pmHost Inv
      (fun r w' ↦ Clean w'.log → Ready r.manager w') w := by
  let m' : Manager := { m with deathReason := none }
  have hp : m'.posture.pending = none := h.noPending
  have hresolve : Leaves (resolveOrReuse m' config) := by
    simp only [resolveOrReuse, hp, Option.filter_none]
    refine (leaves_perform (o := .resolve _) rfl).bind fun r ↦ ?_
    rcases r with e | b
    · exact leaves_pure _
    · exact leaves_pure _
  refine (leaves_perform (o := .swapInvalidated) rfl w hI).bind
    fun (invalidated : Bool) w₁ hI₁ h₁ ↦ ?_
  rw [takePendingIf_eq (c := invalidated) h.noPending]
  show (takePendingIf _ m' >>= _).Safe _ _ _ _
  rw [takePendingIf_eq hp]
  refine (hresolve w₁ hI₁).bind ?_
  rintro (e | ⟨ip, pin⟩) w₂ hI₂ h₂
  · have hr := (h₁.trans h₂).retried
    cases e <;> exact ⟨hI₂, fun hc ↦ h.retried hr hc rfl rfl h.noPending⟩
  · refine safe_of_clean fun hc ↦ ?_
    exact safe_startResolved_live hI₂ (h.retried (h₁.trans h₂).retried hc rfl rfl h.noPending)

theorem safe_startCancellable_live (hI : Inv w) (h : Ready m w) :
    (startCancellable effective m config covered).Safe pmHost Inv
      (fun r w' ↦ Clean w'.log → Ready r.manager w') w := by
  unfold startCancellable
  split
  · exact ⟨hI, fun _ ↦ h⟩
  · exact safe_startFresh_live hI h

/-! ### Blips and reloads -/

/-- A blip hands the cover over: the guard is disarmed, whatever the probe answers. -/
theorem safe_stopSession_live {s : RunningState} {target : Target ProxyConfig} (hI : Inv w)
    (h : Ready m w) (htarget : target ≠ .off) :
    (stopSession m s .blipped target).Safe pmHost Inv
      (fun r w' ↦ Clean w'.log → Ready r.1 w') w := by
  refine (leaves_perform (o := .stopProxy) rfl w hI).bind fun res w₁ hI₁ h₁ ↦ ?_
  refine (leaves_perform (o := .lockdownCoverPresence) rfl w₁ hI₁).bind
    fun (presence : CoverPresence) w₂ hI₂ h₂ ↦ ?_
  refine safe_of_clean fun hc ↦ ?_
  have hready := h.retried (h₁.trans h₂).retried hc rfl rfl h.noPending
  refine (safe_effectiveLockdownIntent hI₂ hready.armed).bind fun intent w₃ hI₃ ⟨h₃, hon⟩ ↦ ?_
  refine safe_of_clean fun hc₃ ↦ ?_
  have hready₃ := hready.retried h₃.retried hc₃ rfl rfl h.noPending
  rw [hon hc₃, keepEngaged_of_blipped htarget]
  cases s.lockdown with
  | none => exact ⟨hI₃, fun _ ↦ ⟨hready₃.armed, hready₃.target, rfl⟩⟩
  | some g => exact ⟨hI₃, fun _ ↦ ⟨hI₃, fun _ ↦ ⟨hready₃.armed, hready₃.target, rfl⟩⟩⟩

/-- What a blip reads back of a target that is not off. -/
theorem safe_persistBlip (hI : Inv w) (h : Ready m w) :
    (persistSessionEvent m .blipped).Safe pmHost Inv
      (fun target w' ↦ Steady w w' ∧ target ≠ .off) w := by
  rcases hdir : m.stateDir with - | -
  · simp only [persistSessionEvent, hdir, Bool.false_eq_true]
    exact ⟨hI, fun hc ↦ ⟨hc, .inl rfl, rfl, rfl⟩, nofun⟩
  · simp only [persistSessionEvent, hdir]
    refine (leaves_perform (o := .persistSessionEvent .blipped) rfl w hI).and (J := fun _ ↦ True)
      ⟨trivial, fun c ↦ ⟨trivial, ?_⟩⟩
    cases c with
    | unreadable => exact nofun
    | panicked => exact nofun
    | _ => exact h.target

theorem safe_stopWith_live (hI : Inv w) (h : Ready m w) :
    (stopWith m .blipped).Safe pmHost Inv (fun r w' ↦ Clean w'.log → Ready r.1 w') w := by
  refine (safe_persistBlip hI h).bind fun target w₁ hI₁ ⟨h₁, htarget⟩ ↦ ?_
  refine safe_of_clean fun hc ↦ ?_
  have hready := h.retried h₁.retried hc rfl rfl h.noPending
  rcases hp : m.posture with - | b | s
  · exact ⟨hI₁, fun _ ↦ hready⟩
  · have hnone := h.noPending
    rw [hp] at hnone
    cases hnone
  · exact safe_stopSession_live hI₁ hready htarget

theorem safe_reload_live (hI : Inv w) (h : Ready m w) :
    (reload effective m config).Safe pmHost Inv
      (fun r w' ↦ Clean w'.log → Ready r.manager w') w := by
  unfold reload
  rcases m.activeConfig with - | active
  · exact safe_startCancellable_live hI h
  · dsimp only
    split
    · exact ⟨hI, fun _ ↦ ⟨h.armed, h.target, h.noPending⟩⟩
    · refine (safe_stopWith_live hI h).bind ?_
      rintro ⟨m', e | ⟨⟩⟩ w₁ hI₁ h₁
      · exact ⟨hI₁, h₁⟩
      · exact safe_of_clean fun hc ↦ safe_startCancellable_live hI₁ (h₁ hc)

/-! ### Runs -/

/-- What holds between the acts of a run of retries. -/
structure Held (w : World) : Prop where
  live : Inv w
  ready : Clean w.log → Ready w.manager w

theorem Held.of_crash (w : World) : Held w.crash := by
  have hno : ¬Clean w.crash.log := fun hc ↦ nomatch (hc .crashed (.head _)).1
  exact ⟨fun hc ↦ absurd hc hno, fun hc ↦ absurd hc hno⟩

/-- The end of an act. -/
theorem Held.finish {ended : Option PmEvent} (hI : Inv w) (h : Clean w.log → Ready m w) :
    Held { w with manager := m, log := ended.toList ++ w.log } where
  live hc := hI hc.of_append
  ready hc := ⟨(h hc.of_append).armed, (h hc.of_append).target, (h hc.of_append).noPending⟩

/-- **One retry** keeps a live cover live. -/
theorem held_step {e : PmAct × List PmChoice} (h : Held w) (he : e.1.isRetry = true) :
    Held ((pmMachine effective).step w e) := by
  refine Machine.step_of_safe (J := Inv) h ?_ fun w' _ ↦ Held.of_crash w'
  intro p hp
  refine Prog.Safe.mono (Q := fun r w' ↦ Clean w'.log → Ready r.manager w') ?_ ?_
  · refine safe_of_clean fun hc ↦ ?_
    obtain ⟨act, cs⟩ := e
    cases act with
    | start config covered =>
      cases hp
      exact (safe_startCancellable_live h.live (h.ready hc)).bind fun r w' hI' hr ↦ ⟨hI', hr⟩
    | reload config =>
      cases hp
      exact (safe_reload_live h.live (h.ready hc)).bind fun r w' hI' hr ↦ ⟨hI', hr⟩
    | stop event =>
      obtain rfl : event = .blipped := by simpa [PmAct.isRetry] using he
      cases hp
      exact (safe_stopWith_live h.live (h.ready hc)).bind fun r w' hI' hr ↦ ⟨hI', hr⟩
    | _ => cases he
  · intro r w' hI' hr
    obtain ⟨act, cs⟩ := e
    cases act with
    | start config covered => exact .finish hI' hr
    | reload config => exact .finish hI' hr
    | stop event => exact .finish hI' hr
    | _ => cases he

/-- **The standing cover survives retries**: in every run of starts, reloads and blips with the
switch armed and the target not off, a cover that has been live is live, unless a start failed in
`Dns::apply` with its guard in hand or an install restored the host's rules. -/
theorem live_of_keepsCover (effective : EffectiveEch) (stateDir adopted standing : Bool)
    (intent : Intent) (target : Target ProxyConfig) (es : List (PmAct × List PmChoice))
    (harmed : Armed (World.start stateDir adopted standing intent target).manager intent)
    (htarget : target ≠ .off) (hretry : ∀ e ∈ es, e.1.isRetry = true)
    (hclean : Clean
      ((pmMachine effective).exec (World.start stateDir adopted standing intent target) es).log)
    (hlive : ((pmMachine effective).exec
      (World.start stateDir adopted standing intent target) es).wasLive = true) :
    ((pmMachine effective).exec
      (World.start stateDir adopted standing intent target) es).standing = true := by
  have hstart : Held (World.start stateDir adopted standing intent target) :=
    ⟨fun _ h ↦ h, fun _ ↦ ⟨harmed, htarget, rfl⟩⟩
  have hrun (w : World) (h : Held w) : Held ((pmMachine effective).exec w es) := by
    clear hclean hlive
    induction es generalizing w with
    | nil => exact h
    | cons e es ih =>
      exact ih (fun e' he' ↦ hretry e' (.tail _ he')) _
        (held_step h (hretry e (.head _)))
  exact (hrun _ hstart).live hclean hlive

/-! ### A reconnect that fails -/

/-- A full session without a plugin, with the forwarder. -/
def homeConfig : ProxyConfig where
  server := ⟨"1", "home", "203.0.113.7", 8388, "aes-256-gcm", "", none, none, none⟩
  localPort := 4073
  tunnelMode := .full
  dns := ⟨true, [.v4 0x01010101#32], .https, false⟩
  proxySocks5 := true
  proxyHttp := false
  localPortHttp := 4074
  diagnosticPluginTap := false
  filters := []

/-- The calls of a start of `homeConfig` up to its self-test, all of which work. -/
def startedUp : List PmChoice :=
  [PmChoice.ok, .resolved ⟨.v4 0xcb007107#32, .noQueryNeeded⟩] ++ List.replicate 6 PmChoice.ok

/-- A session that comes up, a blip, and a reconnect under the given schedule. -/
def reconnect (schedule : List PmChoice) : List (PmAct × List PmChoice) :=
  [(.start homeConfig false, startedUp ++ List.replicate 7 PmChoice.ok),
    (.stop .blipped, List.replicate 5 .ok),
    (.start homeConfig false, startedUp ++ schedule)]

/-- The switch on, nothing engaged, the target recorded. -/
def switchedOn : World := World.start true false false .on (.connected homeConfig)

/-- The run of a reconnect. -/
def reconnected (schedule : List PmChoice) : World :=
  (pmMachine fun _ _ _ ↦ .none).exec switchedOn (reconnect schedule)

/-- A reconnect whose self-test fails keeps the cover. -/
theorem live_after_failed_selfTest :
    (∀ e ∈ reconnect [.fail (.phase "self-test")], e.1.isRetry = true) ∧
      (reconnected [.fail (.phase "self-test")]).log.head? =
        some (.startEnded false (some true) (some (.phase "self-test")) false) ∧
      (reconnected [.fail (.phase "self-test")]).standing = true :=
  ⟨by decide, by decide,
    live_of_keepsCover (fun _ _ _ ↦ .none) true false false .on (.connected homeConfig)
      (reconnect [.fail (.phase "self-test")]) (by decide) nofun (by decide)
      (by decide) (by decide)⟩

/-- **A reconnect that fails in `Dns::apply` opens the host**: its install re-engages the cover the
blip left, and the error path drops the fresh guard. -/
theorem opened_by_failed_start :
    (∀ e ∈ reconnect (List.replicate 6 PmChoice.ok ++
        [PmChoice.fail (.phase "dns apply"), .ok]),
        e.1.isRetry = true) ∧
      Armed switchedOn.manager switchedOn.intent ∧ switchedOn.target = .connected homeConfig ∧
      (∀ e ∈ (reconnected (List.replicate 6 PmChoice.ok ++
        [PmChoice.fail (.phase "dns apply"), .ok])).log,
        e.undisturbed = true) ∧
      (reconnected (List.replicate 6 PmChoice.ok ++
        [PmChoice.fail (.phase "dns apply"), .ok])).log.head? =
        some (.startEnded false (some true) (some (.phase "dns apply")) false) ∧
      (reconnected (List.replicate 6 PmChoice.ok ++
        [PmChoice.fail (.phase "dns apply"), .ok])).wasLive = true ∧
      (reconnected (List.replicate 6 PmChoice.ok ++
        [PmChoice.fail (.phase "dns apply"), .ok])).standing = false := by
  decide

end Hole.Bridge
