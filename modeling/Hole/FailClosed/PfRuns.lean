import Hole.FailClosed.PfSystem

/-!
# Every run of the macOS covers

What is wanted of a run rests on one fact, that the baseline a standing record restores is the
**host's**. `capture_and_persist` guards it against Hole's own standing ruleset, by its label,
and not against the transient cover's, which carries none: `released_over_cover` is a run in
which a failed `/etc/pf.conf` restore leaves the transient ruleset loaded, the next lockdown
engage records it as the baseline, and a release then loads it again and removes the last record.
`tracked_of_hostBaselines` says that nothing else can go wrong.

The invariant is `Sound`, of the loaded filter, the two records and the history; one
specification for each function carries it through every call.
-/

namespace Hole.FailClosed

open Effect
open Prog (perform)

theorem HostBaselines.tail {e : PfEvent} {es : List PfEvent} (h : HostBaselines (e :: es)) :
    HostBaselines es :=
  fun e' he ↦ h e' (.tail _ he)

/-- The invariant behind both: the standing ruleset has the standing record, and no recorded
baseline is one of Hole's rulesets. -/
structure Sound (k : Core) : Prop where
  /-- The standing ruleset has its own record. -/
  standing_of_lockdown : k.filter.isLockdown = true → k.standing.isSome = true
  tracked : k.Tracked
  /-- What a standing record restores is the host's. -/
  baseline : ∀ st, k.standing = some st → st.mainSnapshotCaptured = true →
    st.mainSnapshot.isBlocking = false
  released : k.NoFalseRelease

/-- What holds in every state. -/
def Inv (w : World) : Prop := HostBaselines w.log → Sound w.toCore

variable {w w' : World} {k : Core}

theorem Filter.not_isLockdown {f : Filter} (h : f.isBlocking = false) : f.isLockdown = false := by
  cases f with
  | host rules => rfl
  | transient ip resolver => cases h
  | lockdown tun ip => cases h

/-- Any ruleset that is not Hole's may be loaded. -/
theorem Sound.load_open {f : Filter} (h : Sound k) (hf : f.isBlocking = false) :
    Sound { k with filter := f } where
  standing_of_lockdown hl := by
    rw [show f.isLockdown = false from Filter.not_isLockdown hf] at hl
    cases hl
  tracked hb := by
    rw [show f.isBlocking = false from hf] at hb
    cases hb
  baseline := h.baseline
  released := h.released

variable {ip : IpAddr}

/-- The transient ruleset may be loaded where a record is there. -/
theorem Sound.load_transient {resolver : Option IpAddr} (h : Sound k)
    (hrec : k.transient.isSome = true) : Sound { k with filter := .transient ip resolver } where
  standing_of_lockdown := nofun
  tracked _ := .inl hrec
  baseline := h.baseline
  released := h.released

/-- The standing ruleset may be loaded where the standing record is there. -/
theorem Sound.load_lockdown {tun : String} (h : Sound k) (hrec : k.standing.isSome = true) :
    Sound { k with filter := .lockdown tun ip } where
  standing_of_lockdown _ := hrec
  tracked _ := .inr hrec
  baseline := h.baseline
  released := h.released

theorem Sound.save_transient {st : FailClosedState} (h : Sound k) :
    Sound { k with transient := some st } where
  standing_of_lockdown := h.standing_of_lockdown
  tracked _ := .inl rfl
  baseline := h.baseline
  released := h.released

variable {st : LockdownPfState}

theorem Sound.save_standing (h : Sound k)
    (hst : st.mainSnapshotCaptured = true → st.mainSnapshot.isBlocking = false) :
    Sound { k with standing := some st } where
  standing_of_lockdown _ := rfl
  tracked _ := .inr rfl
  baseline st' h' hc := by
    cases h'
    exact hst hc
  released := h.released

/-- The transient record may go where no ruleset of Hole's is loaded, or the standing record
stays. -/
theorem Sound.clear_transient (h : Sound k)
    (hopen : k.filter.isBlocking = false ∨ k.standing.isSome = true) :
    Sound { k with transient := none } where
  standing_of_lockdown := h.standing_of_lockdown
  tracked hb := by
    rcases hopen with hopen | hst
    · rw [show k.filter.isBlocking = true from hb] at hopen
      cases hopen
    · exact .inr hst
  baseline := h.baseline
  released := h.released

theorem Sound.clear_standing (h : Sound k) (hopen : k.filter.isBlocking = false) :
    Sound { k with standing := none } where
  standing_of_lockdown hl := by
    have := Filter.not_isLockdown hopen
    rw [show k.filter.isLockdown = true from hl] at this
    cases this
  tracked hb := by
    rw [show k.filter.isBlocking = true from hb] at hopen
    cases hopen
  baseline := nofun
  released := h.released

/-! ### One call -/

/-- A program that leaves the loaded filter, the records and the history as they are. -/
def Keeps {α : Type} (p : PfM α) : Prop :=
  ∀ w, Inv w → p.Safe pfHost Inv (fun _ w' ↦ w'.toCore = w.toCore) w

theorem keeps_pure {α : Type} (a : α) : Keeps (pure a : PfM α) := fun _ hI ↦ ⟨hI, rfl⟩

theorem keeps_pfEnabled : Keeps pfEnabled := fun _ hI ↦ ⟨hI, fun _ ↦ ⟨hI, rfl⟩⟩

theorem keeps_dropToken (token : String) : Keeps (dropToken token) :=
  fun _ hI ↦ ⟨hI, fun _ ↦ ⟨hI, rfl⟩⟩

theorem keeps_flush : Keeps (perform PfOp.flush) := fun _ hI ↦ ⟨hI, fun _ ↦ ⟨hI, rfl⟩⟩

theorem keeps_enablePfCaptureToken : Keeps enablePfCaptureToken := by
  refine fun w hI ↦ ⟨hI, fun c ↦ ?_⟩
  cases c <;> exact ⟨hI, rfl⟩

theorem keeps_dropSalvagedTokenOrWarn (token : Option String) :
    Keeps (dropSalvagedTokenOrWarn token) := by
  cases token with
  | none => exact keeps_pure ()
  | some t => exact fun _ hI ↦ ⟨hI, fun _ ↦ ⟨hI, rfl⟩⟩

theorem keeps_dropStandingToken (file : StateFile LockdownPfState) :
    Keeps (dropStandingToken file) := by
  match file with
  | .absent => exact keeps_pure _
  | .present st => exact keeps_dropToken st.pfToken
  | .unusable (some token) => exact keeps_dropToken token
  | .unusable none => exact keeps_pure _

/-- What a load leaves: `f` where it worked, else what was loaded. -/
def Loaded (f : Filter) (w : World) (ok : Bool) (w' : World) : Prop :=
  w'.toCore = if ok then { w.toCore with filter := f } else w.toCore

theorem safe_loadRuleset {what : String} {r : Ruleset} (hI : Inv w)
    (hload : HostBaselines w.log → Sound { w.toCore with filter := r.filter }) :
    (loadRuleset what r).Safe pfHost Inv (fun a w' ↦ Loaded r.filter w a.isOk w') w := by
  refine ⟨hI, fun c ↦ ?_⟩
  cases c with
  | ok => exact ⟨hload, rfl⟩
  | _ => exact ⟨hI, rfl⟩

theorem safe_reload (hI : Inv w) : (perform PfOp.reload).Safe pfHost Inv
      (fun a w' ↦ Loaded (.host w.pfConf) w (a : Except PfctlFailure Unit).isOk w') w := by
  refine ⟨hI, fun c ↦ ?_⟩
  cases c with
  | ok => exact ⟨fun hc ↦ (hI hc).load_open rfl, rfl⟩
  | _ => exact ⟨hI, rfl⟩

theorem safe_reloadDefault (hI : Inv w) :
    reloadDefault.Safe pfHost Inv (fun a w' ↦ Loaded (.host w.pfConf) w a.isOk w') w := by
  refine ⟨hI, fun c ↦ ?_⟩
  cases c with
  | ok => exact ⟨fun hc ↦ (hI hc).load_open rfl, rfl⟩
  | _ => exact ⟨hI, rfl⟩

/-- A clear of the transient record. -/
theorem safe_clearTransient (hI : Inv w)
    (hopen : HostBaselines w.log → w.filter.isBlocking = false ∨ w.standing.isSome = true) :
    (perform PfOp.clearTransient).Safe pfHost Inv
      (fun _ w' ↦ w'.filter = w.filter ∧ w'.standing = w.standing ∧ w'.log = w.log) w := by
  refine ⟨hI, fun c ↦ ?_⟩
  cases c with
  | ok => exact ⟨fun hc ↦ (hI hc).clear_transient (hopen hc), rfl, rfl, rfl⟩
  | _ => exact ⟨hI, rfl, rfl, rfl⟩

/-- A clear of the standing record, over the host's rules. -/
theorem safe_clearStanding (hI : Inv w)
    (hopen : HostBaselines w.log → w.filter.isBlocking = false) :
    (perform PfOp.clearStanding).Safe pfHost Inv
      (fun _ w' ↦ w'.filter = w.filter ∧ w'.log = w.log) w := by
  refine ⟨hI, fun c ↦ ?_⟩
  cases c with
  | ok => exact ⟨fun hc ↦ (hI hc).clear_standing (hopen hc), rfl, rfl⟩
  | _ => exact ⟨hI, rfl, rfl⟩

/-- A read of the standing record: a file that is not found is not there. -/
theorem safe_readStanding (hI : Inv w) : (perform PfOp.readStanding).Safe pfHost Inv
      (fun a w' ↦ w' = w ∧ match (a : StateFile LockdownPfState) with
        | .absent => w.standing = none
        | .unusable _ => w.standing.isSome = true
        | .present st => w.standing = some st) w := by
  refine ⟨hI, fun c ↦ ⟨hI, rfl, ?_⟩⟩
  show match c.read w.standing with
    | .absent => w.standing = none
    | .unusable _ => w.standing.isSome = true
    | .present st => w.standing = some st
  rcases hst : w.standing with - | st <;> cases c <;> rfl

theorem safe_readTransient (hI : Inv w) : (perform PfOp.readTransient).Safe pfHost Inv
      (fun a w' ↦ w' = w ∧ ((a : StateFile FailClosedState) = .absent → w.transient = none))
      w := by
  refine ⟨hI, fun c ↦ ⟨hI, rfl, ?_⟩⟩
  show c.read w.transient = .absent → w.transient = none
  rcases htr : w.transient with - | st
  · exact fun _ ↦ rfl
  · cases c <;> exact nofun

/-! ### The transient cover -/

/-- Adopting, the restore is skipped: the standing record must be there. -/
theorem safe_disengage {token : Option String} {adopting : Bool} (hI : Inv w)
    (hadopt : adopting = true → HostBaselines w.log → w.standing.isSome = true) :
    (disengage token adopting).Safe pfHost Inv (fun _ _ ↦ True) w := by
  have hdrop := keeps_dropSalvagedTokenOrWarn token
  cases adopting with
  | true =>
    refine (hdrop w hI).bind fun _ w₁ hI₁ hk₁ ↦ ?_
    refine Prog.Safe.bind (safe_clearTransient hI₁ fun hc ↦ .inr ?_) fun _ _ h _ ↦ ⟨h, trivial⟩
    rw [hk₁] at hc ⊢
    exact hadopt rfl hc
  | false =>
    refine (safe_reload hI).bind fun out w₁ hI₁ hl ↦ ?_
    refine (hdrop w₁ hI₁).bind fun _ w₂ hI₂ hk₂ ↦ ?_
    cases hout : (out : Except PfctlFailure Unit).isOk with
    | false =>
      simp only [restoreConfirmed, hout, Bool.or_self, Bool.false_eq_true, if_false]
      exact ⟨hI₂, trivial⟩
    | true =>
      simp only [restoreConfirmed, hout, Bool.or_true, if_true]
      refine Prog.Safe.bind (safe_clearTransient hI₂ fun _ ↦ .inl ?_) fun _ _ h _ ↦ ⟨h, trivial⟩
      rw [hk₂, hl, hout]
      rfl

theorem safe_saveTransient {st : FailClosedState} (hI : Inv w) : (saveTransient st).Safe pfHost Inv
      (fun a w' ↦ a.isOk = true → w'.transient.isSome = true) w := by
  refine ⟨hI, fun c ↦ ?_⟩
  cases c with
  | ok => exact ⟨fun hc ↦ (hI hc).save_transient, fun _ ↦ rfl⟩
  | _ => exact ⟨hI, nofun⟩

/-- `load_cover_ruleset`: the purge after it changes nothing the invariant sees. -/
theorem safe_loadCoverRuleset {kind : CoverKind} {r : Ruleset} (hI : Inv w)
    (hload : HostBaselines w.log → Sound { w.toCore with filter := r.filter }) :
    (loadCoverRuleset kind r).Safe pfHost Inv (fun a w' ↦ Loaded r.filter w a.isOk w') w := by
  refine (safe_loadRuleset hI hload).bind ?_
  rintro (e | ⟨⟩) w₁ hI₁ hl
  · exact ⟨hI₁, hl⟩
  · cases kind with
    | lockdown => exact ⟨hI₁, hl⟩
    | transient => exact (keeps_flush w₁ hI₁).bind fun _ w₂ hI₂ hk ↦ ⟨hI₂, hk.trans hl⟩

/-- The record is there before the ruleset is loaded. -/
theorem safe_engageWith {resolver : Option IpAddr} (hI : Inv w) :
    (engageWith ip resolver).Safe pfHost Inv (fun _ _ ↦ True) w := by
  refine (keeps_pfEnabled w hI).bind fun _ w₁ hI₁ _ ↦ ?_
  refine (keeps_enablePfCaptureToken w₁ hI₁).bind ?_
  rintro (e | token) w₂ hI₂ -
  · exact ⟨hI₂, trivial⟩
  refine (safe_saveTransient hI₂).bind ?_
  rintro (e | ⟨⟩) w₃ hI₃ hsaved
  · exact (keeps_dropToken token w₃ hI₃).bind fun _ _ h _ ↦ ⟨h, trivial⟩
  refine (safe_loadCoverRuleset hI₃ fun hc ↦ (hI₃ hc).load_transient (hsaved rfl)).bind ?_
  rintro (e | ⟨⟩) w₄ hI₄ -
  · have hrestore : (disengage (some token) false).Safe pfHost Inv (fun _ _ ↦ True) w₄ :=
      safe_disengage hI₄ nofun
    exact hrestore.bind fun _ _ h _ ↦ ⟨h, trivial⟩
  · exact ⟨hI₄, trivial⟩

theorem safe_recoverCover {adopting : Bool} (hI : Inv w)
    (hadopt : adopting = true → HostBaselines w.log → w.standing.isSome = true) :
    (recoverCover adopting).Safe pfHost Inv (fun _ _ ↦ True) w := by
  refine (safe_readTransient hI).bind ?_
  rintro file w₁ hI₁ ⟨rfl, -⟩
  cases file with
  | absent => exact ⟨hI, trivial⟩
  | present st => exact safe_disengage hI hadopt
  | unusable token => exact safe_disengage hI hadopt

/-! ### The standing lockdown -/

/-- What a probe of the standing cover found out. -/
structure Probed (w : World) (p : CoverPresence × StateFile LockdownPfState) (w' : World) :
    Prop where
  core : w'.toCore = w.toCore
  /-- `live` is pf's own word. -/
  live : p.1 = .live → w.filter.isLockdown = true
  /-- pf's word is `live`. -/
  label : w'.label = some true → p.1 = .live
  determinate : p.1 ≠ .indeterminate
  /-- `recorded` is the record's. -/
  recorded : p.1 = .recorded → w.standing.isSome = true
  /-- A record that was read is the one on disk. -/
  present : ∀ st, p.2 = .present st → w.standing = some st

theorem safe_lockdownPresenceAndState (hI : Inv w) :
    lockdownPresenceAndState.Safe pfHost Inv (Probed w) w := by
  have hlabel : pfLabelAnswer.Safe pfHost Inv (fun a w' ↦ w'.toCore = w.toCore ∧ w'.label = a ∧
      (a = some true → w.filter.isLockdown = true)) w := by
    refine ⟨hI, fun c ↦ ?_⟩
    cases c with
    | ok => exact ⟨hI, rfl, rfl, Option.some.inj⟩
    | _ => exact ⟨hI, rfl, rfl, nofun⟩
  refine hlabel.bind ?_
  rintro label w₁ hI₁ ⟨hk, hl, hlock⟩
  refine (safe_readStanding hI₁).bind ?_
  rintro file w₂ hI₂ ⟨rfl, hfile⟩
  have hlive : foldPresence label file = .live ↔ label = some true := by
    rcases label with - | - | - <;> cases file <;> simp [foldPresence]
  refine ⟨hI₂, hk, fun h ↦ hlock (hlive.1 h), fun h ↦ hlive.2 (hl.symm.trans h), ?_, fun h ↦ ?_,
    fun st h ↦ ?_⟩
  · rcases label with - | - | - <;> cases file <;> exact nofun
  · show w.toCore.standing.isSome = true
    rw [← hk]
    cases file with
    | absent => rcases label with - | - | - <;> cases h
    | unusable token => exact hfile
    | present st =>
      show w₂.standing.isSome = true
      rw [show w₂.standing = some st from hfile]
      rfl
  · obtain rfl : file = .present st := h
    show w.toCore.standing = some st
    rw [← hk]
    exact hfile

/-- What a restore leaves: where it worked, nothing of Hole's is loaded. -/
def Restored (w : World) (ok : Bool) (w' : World) : Prop :=
  ∃ f, w'.toCore = { w.toCore with filter := f } ∧
    (ok = true → HostBaselines w.log → f.isBlocking = false)

theorem Loaded.restored {f : Filter} {ok : Bool} (h : Loaded f w ok w')
    (hf : HostBaselines w.log → f.isBlocking = false) : Restored w ok w' := by
  cases ok with
  | true => exact ⟨f, h, fun _ ↦ hf⟩
  | false => exact ⟨w.filter, h, nofun⟩

/-- The captured snapshot is the host's. -/
theorem safe_loadSnapshot {what : String} (hI : Inv w) (hst : w.standing = some st)
    (hcap : st.mainSnapshotCaptured = true) :
    (loadRuleset what (buildLockdownRestoreRuleset st.natSnapshot st.mainSnapshot)).Safe pfHost
      Inv (fun a w' ↦ Restored w a.isOk w') w := by
  have hopen : HostBaselines w.log → st.mainSnapshot.isBlocking = false :=
    fun hc ↦ (hI hc).baseline st hst hcap
  exact (safe_loadRuleset hI fun hc ↦ (hI hc).load_open (hopen hc)).mono
    fun _ _ _ h ↦ h.restored hopen

variable {file : StateFile LockdownPfState}

theorem safe_restoreStanding (hI : Inv w)
    (hfile : ∀ st, file = .present st → w.standing = some st) :
    (restoreStanding file).Safe pfHost Inv (fun a w' ↦ Restored w a.isOk w') w := by
  have hdefault : reloadDefault.Safe pfHost Inv (fun a w' ↦ Restored w a.isOk w') w :=
    (safe_reloadDefault hI).mono fun _ _ _ h ↦ h.restored fun _ ↦ rfl
  cases file with
  | absent => exact hdefault
  | unusable token => exact hdefault
  | present st =>
    show (if st.mainSnapshotCaptured = true then _ else reloadDefault).Safe _ _ _ _
    split
    · next hcap => exact safe_loadSnapshot hI (hfile st rfl) hcap
    · exact hdefault

theorem safe_disengageLockdownWith {presence : CoverPresence} (hI : Inv w)
    (hfile : ∀ st, file = .present st → w.standing = some st) :
    (disengageLockdownWith presence file).Safe pfHost Inv (fun _ _ ↦ True) w := by
  have hact : (disengageLockdownWith .live file).Safe pfHost Inv (fun _ _ ↦ True) w := by
    refine (safe_restoreStanding hI hfile).bind ?_
    rintro (e | ⟨⟩) w₁ hI₁ ⟨f, hk₁, hf⟩
    · exact ⟨hI₁, trivial⟩
    refine (keeps_dropStandingToken file w₁ hI₁).bind ?_
    rintro (e | ⟨⟩) w₂ hI₂ hk₂
    · exact ⟨hI₂, trivial⟩
    refine Prog.Safe.bind (safe_clearStanding hI₂ fun hc ↦ ?_) fun _ _ h _ ↦ ⟨h, trivial⟩
    rw [hk₂, hk₁] at hc ⊢
    exact hf rfl hc
  cases presence with
  | absent => exact ⟨hI, trivial⟩
  | unreachable => exact ⟨hI, trivial⟩
  | indeterminate => exact ⟨hI, trivial⟩
  | live => exact hact
  | recorded => exact hact

theorem safe_disengageLockdown (hI : Inv w) :
    disengageLockdown.Safe pfHost Inv (fun _ _ ↦ True) w := by
  refine (safe_lockdownPresenceAndState hI).bind ?_
  rintro ⟨presence, file⟩ w₁ hI₁ hp
  refine safe_disengageLockdownWith hI₁ fun st h ↦ ?_
  rw [hp.core]
  exact hp.present st h

theorem safe_lockdownDisengage (hI : Inv w) :
    lockdownDisengage.Safe pfHost Inv (fun _ _ ↦ True) w :=
  (safe_disengageLockdown hI).bind fun _ _ h _ ↦ ⟨h, trivial⟩

/-- A save of the standing record. -/
theorem safe_saveStanding (hI : Inv w)
    (hst : HostBaselines w.log → st.mainSnapshotCaptured = true →
      st.mainSnapshot.isBlocking = false) :
    (saveStanding st).Safe pfHost Inv (fun a w' ↦ a.isOk = true → w'.standing.isSome = true) w := by
  refine ⟨hI, fun c ↦ ?_⟩
  cases c with
  | ok => exact ⟨fun hc ↦ (hI hc).save_standing (hst hc), fun _ ↦ rfl⟩
  | _ => exact ⟨hI, nofun⟩

/-- **The baseline.** Under the condition on the history, the filter captured is the host's: a
baseline taken over Hole's own standing ruleset is not recorded. -/
theorem safe_captureAndPersist {token : String} (hI : Inv w) :
    (captureAndPersist token).Safe pfHost Inv
      (fun a w' ↦ a.isOk = true → w'.standing.isSome = true) w := by
  refine (safe_lockdownPresenceAndState hI).bind ?_
  rintro ⟨presence, file⟩ w₁ hI₁ hp
  have hshow : (perform PfOp.showRules).Safe pfHost Inv
      (fun a w' ↦ ∀ f, (a : Except PfctlFailure Filter) = .ok f →
        f = w₁.filter ∧ w'.log = .baseline w₁.filter w₁.label :: w₁.log) w₁ := by
    refine ⟨hI₁, fun c ↦ ?_⟩
    cases c with
    | ok =>
      refine ⟨fun hc ↦ ?_, fun f hf ↦ ⟨(Except.ok.inj hf).symm, rfl⟩⟩
      have h := hI₁ hc.tail
      exact ⟨h.standing_of_lockdown, h.tracked, h.baseline,
        fun g hg ↦ h.released g ((List.mem_cons.1 hg).resolve_left nofun)⟩
    | _ => exact ⟨hI₁, nofun⟩
  refine hshow.bind ?_
  rintro (e | f) w₂ hI₂ hsnap
  · cases e <;> exact ⟨hI₂, nofun⟩
  obtain ⟨rfl, hlog⟩ := hsnap f rfl
  have hnat : (perform PfOp.showNat).Safe pfHost Inv (fun _ w' ↦ w' = w₂) w₂ :=
    ⟨hI₂, fun _ ↦ ⟨hI₂, rfl⟩⟩
  refine hnat.bind ?_
  rintro (e | nat) w₃ hI₃ rfl
  · cases e <;> exact ⟨hI₃, nofun⟩
  refine (safe_saveStanding hI₃ ?_).bind ?_
  · intro hc hcap
    have hlive : presence ≠ .live := by simpa using hcap
    show (if (decide (presence ≠ .live)) = true then w₁.filter else .host "").isBlocking = false
    rw [if_pos (by simpa using hlive)]
    refine Bool.eq_false_iff.2 fun hb ↦ ?_
    rw [hlog] at hc
    exact hlive (hp.label (hc _ (.head _) hb))
  · rintro (e | ⟨⟩) w₄ hI₄ hsaved
    · exact ⟨hI₄, nofun⟩
    · exact ⟨hI₄, fun _ ↦ hsaved rfl⟩

/-- Whatever the arm, the standing record is there when the load comes. -/
theorem safe_ensurePf {action : PfEngageAction} (hI : Inv w)
    (hst : ∀ st, action = .reuseToken st ∨ action = .reenable st → w.standing = some st) :
    (ensurePf action).Safe pfHost Inv (fun a w' ↦ a.isOk = true → w'.standing.isSome = true) w := by
  cases action with
  | reuseToken st =>
    refine ⟨hI, fun _ ↦ ?_⟩
    rw [hst st (.inl rfl)]
    rfl
  | reenable st =>
    refine (keeps_enablePfCaptureToken w hI).bind ?_
    rintro (e | token) w₁ hI₁ hk₁
    · exact ⟨hI₁, nofun⟩
    refine (safe_saveStanding hI₁ fun hc hcap ↦ ?_).bind ?_
    · refine (hI₁ hc).baseline st ?_ hcap
      rw [hk₁]
      exact hst st (.inr rfl)
    · rintro (e | ⟨⟩) w₂ hI₂ hsaved
      · exact (keeps_dropToken token w₂ hI₂).bind fun _ _ h _ ↦ ⟨h, nofun⟩
      · exact ⟨hI₂, fun _ ↦ hsaved rfl⟩
  | freshEnable =>
    refine (keeps_enablePfCaptureToken w hI).bind ?_
    rintro (e | token) w₁ hI₁ -
    · exact ⟨hI₁, nofun⟩
    refine (safe_captureAndPersist hI₁).bind ?_
    rintro (e | nat) w₂ hI₂ hsaved
    · exact (keeps_dropToken token w₂ hI₂).bind fun _ _ h _ ↦ ⟨h, nofun⟩
    · exact ⟨hI₂, fun _ ↦ hsaved rfl⟩

theorem safe_engageLockdown {tun : String} (hI : Inv w) :
    (engageLockdown ip tun).Safe pfHost Inv (fun _ _ ↦ True) w := by
  refine (keeps_pfEnabled w hI).bind ?_
  rintro (e | enabled) w₁ hI₁ -
  · exact ⟨hI₁, trivial⟩
  refine (safe_readStanding hI₁).bind ?_
  rintro file w₂ hI₂ ⟨rfl, hfile⟩
  refine (safe_ensurePf hI₂ fun st h ↦ ?_).bind ?_
  · cases file with
    | absent => rcases h with h | h <;> cases h
    | unusable token => rcases h with h | h <;> cases h
    | present st' =>
      obtain rfl : st' = st := by
        cases enabled <;> simpa [engagePfAction, StateFile.load] using h
      exact hfile
  · rintro (e | ⟨token, nat⟩) w₃ hI₃ hst
    · exact ⟨hI₃, trivial⟩
    refine (safe_loadCoverRuleset hI₃ fun hc ↦ (hI₃ hc).load_lockdown (hst rfl)).bind ?_
    rintro (e | ⟨⟩) w₄ hI₄ -
    · exact (safe_lockdownDisengage hI₄).bind fun _ _ h _ ↦ ⟨h, trivial⟩
    · exact ⟨hI₄, trivial⟩

/-! ### Guards, recovery and release -/

theorem safe_dropGuard {g : Cover} (hI : Inv w) :
    g.dropGuard.Safe pfHost Inv (fun _ _ ↦ True) w := by
  obtain ⟨token, kind⟩ := g
  cases kind with
  | transient =>
    show (disengage (some token) false).Safe _ _ _ _
    exact safe_disengage hI nofun
  | lockdown => exact safe_lockdownDisengage hI

/-- A cover is adopted only with its record: pf's word for it is the standing ruleset, and that
has one. -/
theorem safe_recoverCovers {intent : Intent} (hI : Inv w) :
    (recoverCovers intent).Safe pfHost Inv (fun _ _ ↦ True) w := by
  refine (safe_lockdownPresenceAndState hI).bind ?_
  rintro ⟨presence, file⟩ w₁ hI₁ hp
  rcases haction : (decideCoverRecovery intent presence).action with - | - | -
  · simp only [haction]
    exact safe_recoverCover hI₁ nofun
  · simp only [haction]
    refine safe_recoverCover hI₁ fun _ hc ↦ ?_
    obtain ⟨habsent, hunreach⟩ := present_of_adopt haction
    rw [hp.core] at hc ⊢
    cases presence with
    | live => exact (hI hc).standing_of_lockdown (hp.live rfl)
    | recorded => exact hp.recorded rfl
    | absent => exact absurd rfl habsent
    | unreachable => exact absurd rfl hunreach
    | indeterminate => exact absurd rfl hp.determinate
  · simp only [haction]
    exact (safe_lockdownDisengage hI₁).bind fun _ w₂ hI₂ _ ↦ safe_recoverCover hI₂ nofun

/-- The end of an arm: the record is cleared only over a restore that worked. -/
theorem safe_settleRelease {outcome : Except RoutingError Unit} {token : Option String}
    {clear : PfM (Except String Unit)} {w₀ : World} (hI : Inv w)
    (hr : Restored w₀ outcome.isOk w)
    (hclear : ∀ w', Inv w' → (HostBaselines w'.log → w'.filter.isBlocking = false) →
      clear.Safe pfHost Inv (fun _ w'' ↦ w''.filter = w'.filter ∧ w''.log = w'.log) w') :
    (settleRelease outcome token clear).Safe pfHost Inv
      (fun err w' ↦ err = none → HostBaselines w'.log → w'.filter.isBlocking = false) w := by
  refine (keeps_dropSalvagedTokenOrWarn token w hI).bind fun _ w₁ hI₁ hk ↦ ?_
  obtain ⟨f, hw, hf⟩ := hr
  rcases outcome with e | ⟨⟩
  · exact ⟨hI₁, nofun⟩
  have hopen : HostBaselines w₁.log → w₁.filter.isBlocking = false := by
    rw [hk, hw]
    exact hf rfl
  refine (hclear w₁ hI₁ hopen).bind ?_
  rintro - w₂ hI₂ ⟨hfilter, hlog⟩
  refine ⟨hI₂, fun _ hc ↦ ?_⟩
  rw [hfilter]
  exact hopen (hlog ▸ hc)

/-- Block 1. Where there was no record it does nothing. -/
theorem safe_releaseTransient {file : StateFile FailClosedState} (hI : Inv w) :
    (releaseTransient file).Safe pfHost Inv
      (fun err w' ↦ (file = .absent ∧ w' = w) ∨
        (err = none → HostBaselines w'.log → w'.filter.isBlocking = false)) w := by
  have hblock (token : Option String) : (do
      let outcome ← reloadDefault
      settleRelease outcome token (perform PfOp.clearTransient) : PfM _).Safe pfHost Inv
        (fun err w' ↦ err = none → HostBaselines w'.log → w'.filter.isBlocking = false) w := by
    refine (safe_reloadDefault hI).bind fun outcome w₁ hI₁ hl ↦ ?_
    refine safe_settleRelease hI₁ (hl.restored fun _ ↦ rfl) fun w' hI' hopen ↦ ?_
    exact (safe_clearTransient hI' fun hc ↦ .inl (hopen hc)).mono fun _ _ _ h ↦ ⟨h.1, h.2.2⟩
  cases file with
  | absent => exact ⟨hI, .inl ⟨rfl, rfl⟩⟩
  | present st => exact (hblock _).mono fun _ _ _ h ↦ .inr h
  | unusable token => exact (hblock token).mono fun _ _ _ h ↦ .inr h

theorem safe_restoreOrDefault (hI : Inv w) (hst : w.standing = some st)
    (hcap : st.mainSnapshotCaptured = true) :
    (restoreOrDefault st).Safe pfHost Inv (fun a w' ↦ Restored w a.isOk w') w := by
  refine (safe_loadSnapshot hI hst hcap).bind ?_
  rintro (e | ⟨⟩) w₁ hI₁ hr
  · obtain ⟨f, hk, -⟩ := hr
    refine (safe_reloadDefault hI₁).bind ?_
    rintro (e' | ⟨⟩) w₂ hI₂ hl
    · exact ⟨hI₂, f, hl.trans hk, nofun⟩
    · refine ⟨hI₂, .host w₁.pfConf, ?_, fun _ _ ↦ rfl⟩
      rw [hl, hk]
      rfl
  · exact ⟨hI₁, hr⟩

/-- Block 2. Where there was no record it does nothing. -/
theorem safe_releaseStanding (hI : Inv w)
    (hfile : ∀ st, file = .present st → w.standing = some st) :
    (releaseStanding file).Safe pfHost Inv
      (fun err w' ↦ (file = .absent ∧ w' = w) ∨
        (err = none → HostBaselines w'.log → w'.filter.isBlocking = false)) w := by
  have hdefault : reloadDefault.Safe pfHost Inv (fun a w' ↦ Restored w a.isOk w') w :=
    (safe_reloadDefault hI).mono fun _ _ _ h ↦ h.restored fun _ ↦ rfl
  have hblock (restore : PfM (Except RoutingError Unit)) (token : Option String)
      (hrestore : restore.Safe pfHost Inv (fun a w' ↦ Restored w a.isOk w') w) : (do
      let outcome ← restore
      settleRelease outcome token (perform PfOp.clearStanding) : PfM _).Safe pfHost Inv
        (fun err w' ↦ (file = .absent ∧ w' = w) ∨
          (err = none → HostBaselines w'.log → w'.filter.isBlocking = false)) w := by
    refine hrestore.bind fun outcome w₁ hI₁ hr ↦ ?_
    refine (safe_settleRelease hI₁ hr fun w' hI' hopen ↦ ?_).mono fun _ _ _ h ↦ .inr h
    exact safe_clearStanding hI' hopen
  cases file with
  | absent => exact ⟨hI, .inl ⟨rfl, rfl⟩⟩
  | unusable token => exact hblock reloadDefault token hdefault
  | present st =>
    by_cases hcap : st.mainSnapshotCaptured = true
    · simp only [releaseStanding, hcap, if_true]
      exact hblock _ (some st.pfToken) (safe_restoreOrDefault hI (hfile st rfl) hcap)
    · simp only [releaseStanding, hcap]
      exact hblock _ (some st.pfToken) hdefault

/-- Block 1 does not touch the standing record. -/
theorem safe_standing_releaseTransient (file : StateFile FailClosedState) :
    (releaseTransient file).Safe pfHost (fun w' ↦ w'.standing = w.standing)
      (fun _ w' ↦ w'.standing = w.standing) w := by
  have hsettle (outcome : Except RoutingError Unit) (token : Option String) (w₁ : World)
      (h₁ : w₁.standing = w.standing) :
      (settleRelease outcome token (perform PfOp.clearTransient)).Safe pfHost
        (fun w' ↦ w'.standing = w.standing) (fun _ w' ↦ w'.standing = w.standing) w₁ := by
    rcases token with - | t <;> rcases outcome with e | ⟨⟩
    · exact ⟨h₁, h₁⟩
    · exact ⟨h₁, fun _ ↦ ⟨h₁, h₁⟩⟩
    · exact ⟨h₁, fun _ ↦ ⟨h₁, h₁⟩⟩
    · exact ⟨h₁, fun _ ↦ ⟨h₁, fun _ ↦ ⟨h₁, h₁⟩⟩⟩
  cases file with
  | absent => exact ⟨rfl, rfl⟩
  | present st => exact ⟨rfl, fun _ ↦ hsettle _ _ _ rfl⟩
  | unusable token => exact ⟨rfl, fun _ ↦ hsettle _ _ _ rfl⟩

/-- **A release that returns `Ok` leaves nothing of Hole's loaded**: the last block that acted
restored the host's rules, and where neither acted there was no record, so no ruleset either. -/
theorem safe_releaseAll (hI : Inv w) : releaseAll.Safe pfHost Inv
      (fun r w' ↦ r.isOk = true → HostBaselines w'.log → w'.filter.isBlocking = false) w := by
  refine (safe_readTransient hI).bind ?_
  rintro transient w₁ - ⟨rfl, htr⟩
  refine (safe_readStanding hI).bind ?_
  rintro standing w₂ - ⟨rfl, hst⟩
  refine ((safe_releaseTransient hI).and (safe_standing_releaseTransient transient)).bind ?_
  rintro err₁ w₃ hI₃ ⟨hblock₁, hstanding⟩
  refine (safe_releaseStanding hI₃ fun st h ↦ ?_).bind ?_
  · subst h
    exact hstanding.trans hst
  rintro err₂ w₄ hI₄ hblock₂
  obtain ⟨e₁, rfl⟩ | rfl := err₁.eq_none_or_eq_some.symm
  · exact ⟨hI₄, nofun⟩
  obtain ⟨e₂, rfl⟩ | rfl := err₂.eq_none_or_eq_some.symm
  · exact ⟨hI₄, nofun⟩
  refine ⟨hI₄, fun _ hc ↦ ?_⟩
  rcases hblock₂ with ⟨rfl, rfl⟩ | hopen
  · rcases hblock₁ with ⟨rfl, rfl⟩ | hopen
    · refine Bool.eq_false_iff.2 fun hb ↦ ?_
      rcases (hI hc).tracked hb with h | h
      · rw [htr rfl] at h
        cases h
      · rw [show w₄.standing = none from hst] at h
        cases h
    · exact hopen rfl hc
  · exact hopen rfl hc

/-! ### Whole runs -/

theorem inv_start (rules nat pfConf pfConfNat : String) :
    Inv (World.start rules nat pfConf pfConfNat) :=
  fun _ ↦ ⟨nofun, nofun, nofun, nofun⟩

/-- **One act** keeps the invariant, wherever it is cut. -/
theorem inv_step {e : PfAct × List PfChoice} (hI : Inv w) : Inv (pfMachine.step w e) := by
  refine Machine.step_of_safe hI ?_ fun _ h ↦ h
  intro p hp
  obtain ⟨act, cs⟩ := e
  cases act with
  | engage ip resolver =>
    cases hp
    refine (safe_engageWith hI).bind fun r _ h _ ↦ ⟨h, ?_⟩
    cases r <;> exact h
  | engageLockdown ip tun =>
    cases hp
    refine (safe_engageLockdown hI).bind fun r _ h _ ↦ ⟨h, ?_⟩
    cases r <;> exact h
  | dropGuard i =>
    rcases hg : w.guards[i]? with - | g
    · simp [pfMachine, hg] at hp
    · simp only [pfMachine, hg, Option.some.injEq] at hp
      subst hp
      exact (safe_dropGuard hI).bind fun _ _ h _ ↦ ⟨h, h⟩
  | disarm i =>
    cases hp
    exact ⟨hI, hI⟩
  | recover intent =>
    cases hp
    exact (safe_recoverCovers hI).bind fun _ _ h _ ↦ ⟨h, h⟩
  | disengageLockdown =>
    cases hp
    exact (safe_disengageLockdown hI).bind fun _ _ h _ ↦ ⟨h, h⟩
  | releaseAll =>
    cases hp
    refine (safe_releaseAll hI).bind fun r w' h hopen ↦ ⟨h, ?_⟩
    rcases r with e | ⟨⟩
    · exact h
    · intro hc
      have hs := h hc.tail
      refine ⟨hs.standing_of_lockdown, hs.tracked, hs.baseline, fun f hf ↦ ?_⟩
      rcases List.mem_cons.1 hf with heq | hmem
      · cases heq
        exact hopen rfl hc.tail
      · exact hs.released f hmem
  | crash =>
    cases hp
    exact ⟨hI, hI⟩
  | reboot =>
    cases hp
    exact ⟨hI, fun hc ↦ (hI hc).load_open rfl⟩

/-- **No false release and no untracked block.** In every run, cut anywhere, whose baselines were
the host's: one of Hole's rulesets is loaded only while a record exists, and no release returned
`Ok` over one. -/
theorem tracked_of_hostBaselines (rules nat pfConf pfConfNat : String)
    (es : List (PfAct × List PfChoice))
    (h : HostBaselines (pfMachine.exec (World.start rules nat pfConf pfConfNat) es).log) :
    (pfMachine.exec (World.start rules nat pfConf pfConfNat) es).Tracked ∧
      (pfMachine.exec (World.start rules nat pfConf pfConfNat) es).NoFalseRelease := by
  have hI : Inv (pfMachine.exec (World.start rules nat pfConf pfConfNat) es) :=
    Machine.exec_of_step (fun _ _ hI ↦ inv_step hI) es (inv_start rules nat pfConf pfConfNat)
  exact ⟨(hI h).tracked, (hI h).released⟩

/-- A host with a rule of its own, and a server. -/
def sampleStart : World := .start "pass all" "" "pass all" ""

/-- The server of the sample runs. -/
def sampleServer : IpAddr := .ofOctets 203 0 113 7

/-- A covered start, then a lockdown engage over its ruleset: the crash left the cover, and the
recovery's restore failed. The release succeeds in every call it makes. -/
def sampleRecapture : List (PfAct × List PfChoice) :=
  [(.engage sampleServer none, [.ok, .token "1", .ok, .ok, .ok]), (.crash, []),
    (.recover .off, [.ok, .ok, .ok, .exit "pfctl: busy", .ok]),
    (.engageLockdown sampleServer "utun4",
      [.ok, .ok, .token "2", .ok, .ok, .ok, .ok, .ok, .ok]),
    (.releaseAll, [.ok, .ok, .ok, .ok, .ok, .ok, .ok, .ok])]

/-- The release of this run returns `Ok`, the transient ruleset is loaded after it, and no record
is left. -/
theorem released_over_cover : .released (.transient sampleServer none) ∈
        (pfMachine.exec sampleStart sampleRecapture).log ∧
      ¬(pfMachine.exec sampleStart sampleRecapture).NoFalseRelease ∧
      ¬(pfMachine.exec sampleStart sampleRecapture).Tracked := by
  have hmem : .released (.transient sampleServer none) ∈
      (pfMachine.exec sampleStart sampleRecapture).log := by decide
  refine ⟨hmem, fun h ↦ absurd (h _ hmem) (by decide), fun h ↦ ?_⟩
  exact absurd (h (by decide)) (by decide)

/-- The same acts where the recovery's restore works: the baseline is the host's. -/
def sampleSession : List (PfAct × List PfChoice) :=
  [(.engage sampleServer none, [.ok, .token "1", .ok, .ok, .ok]), (.crash, []),
    (.recover .off, [.ok, .ok, .ok, .ok, .ok, .ok]),
    (.engageLockdown sampleServer "utun4", [.ok, .ok, .token "2", .ok, .ok, .ok, .ok, .ok, .ok])]

theorem tracked_of_session :
    (pfMachine.exec sampleStart sampleSession).filter = .lockdown "utun4" sampleServer ∧
      HostBaselines (pfMachine.exec sampleStart sampleSession).log ∧
      (pfMachine.exec sampleStart sampleSession).Tracked := by
  have h : HostBaselines (pfMachine.exec sampleStart sampleSession).log := by decide
  exact ⟨by decide, h, (tracked_of_hostBaselines "pass all" "" "pass all" "" _ h).1⟩

end Hole.FailClosed
