import Hole.Service.Host

/-!
# What the stop wait may conclude

The stop wait of `Hole.Service.Settle` runs here against a host and an SCM that change between any
two calls: processes start and exit, ids are reused, the service moves between its states, and any
call may fail with any code. Nothing is assumed about the transitions of the service.

`settleStopped_sound` says, of every run, finished or not:

* it reaches none of the branches that the source calls unreachable;
* it sends a Stop only on a look that saw the service running, and ends a process only on one that
  saw it stopped;
* it sleeps on a notification only after an arm for leaving some state, since when either a Stop was
  accepted or the last look saw the service in that state, and no transition is lost to the sleep;
* if it returns, then every process of the service that was alive at its last listing, other than
  the caller, is one whose probe failed.
-/

namespace Hole.Service

open Effect
open Fallible (safe_throw safe_pure safe_call)

/-! ### The rules -/

/-- What the last look saw. -/
def lastLook : List StopEvent → Option Observed
  | [] => none
  | .read o :: _ => some o
  | _ :: log => lastLook log

/-- What the last look saw, if it came after the arm. -/
def lookSinceArm : List StopEvent → Option Observed
  | [] => none
  | .read o :: _ => some o
  | .arm _ :: _ => none
  | _ :: log => lookSinceArm log

/-- A Stop was accepted after the arm. -/
def stopSinceArm : List StopEvent → Bool
  | [] => false
  | .stop true :: _ => true
  | .arm _ :: _ => false
  | _ :: log => stopSinceArm log

/-- The arm for leaving a state. -/
def leaving (o : Observed) : List Observed := statesToArm .stopped false (some o)

/-- A sleep that is right: armed for leaving a state, in which the last look since saw the service,
or since when a Stop was accepted. -/
def Waits (log : List StopEvent) : Prop :=
  ∃ o, armedFor log = some (leaving o) ∧ (stopSinceArm log = true ∨ lookSinceArm log = some o)

/-- What an act needs in the history before it. -/
def Allowed (log : List StopEvent) : StopEvent → Prop
  | .read _ => True
  | .arm _ => True
  | .armRefused => True
  | .stop _ => lastLook log = some .running
  | .wait lost => lost = false ∧ Waits log
  | .terminate _ => lastLook log = some .stopped

/-- A notification that is not due is one for states that the service is not in. -/
def Notified (w : World) : Prop :=
  ∀ states, armedFor w.log = some states → states.contains w.scm = true → w.fired = true

/-- Everything done so far was allowed, and no transition was lost. -/
structure Inv (w : World) : Prop where
  allowed : Justified Allowed w.log
  notified : Notified w

theorem happen_eq (w : World) (e : Happening) :
    (w.happen e).log = w.log ∧ (w.happen e).listed = w.listed ∧
      (w.happen e).unprobed = w.unprobed := by
  cases e <;> exact ⟨rfl, rfl, rfl⟩

theorem later_happen (w : World) (e : Happening) : Host.Later w.host (w.happen e).host := by
  cases e with
  | exits x => exact Host.later_exit w.host x
  | spawns x carries => exact Host.later_spawn w.host x carries
  | enters o => exact Host.Later.refl w.host

theorem Notified.happen {w : World} (h : Notified w) (e : Happening) : Notified (w.happen e) := by
  cases e with
  | exits x => exact h
  | spawns x carries => exact h
  | enters o =>
    intro states hstates hscm
    have hstates : armedFor w.log = some states := hstates
    have hscm : states.contains o = true := hscm
    show (w.fired || (armedFor w.log).any fun states ↦ states.contains o) = true
    rw [hstates, Option.any_some, hscm, Bool.or_true]

/-- What happens between two calls leaves what was done alone. -/
theorem at_spec (w : World) (t : Turn) :
    ((w.at t).log = w.log ∧ (w.at t).listed = w.listed ∧ (w.at t).unprobed = w.unprobed) ∧
      Host.Later w.host (w.at t).host ∧ (Notified w → Notified (w.at t)) := by
  unfold World.at
  generalize t.happenings = es
  induction es generalizing w with
  | nil => exact ⟨⟨rfl, rfl, rfl⟩, Host.Later.refl _, id⟩
  | cons e es ih =>
    obtain ⟨⟨hlog, hlisted, hunprobed⟩, hlater, hnotified⟩ := ih (w.happen e)
    obtain ⟨hlog', hlisted', hunprobed'⟩ := happen_eq w e
    exact ⟨⟨hlog.trans hlog', hlisted.trans hlisted', hunprobed.trans hunprobed'⟩,
      (later_happen w e).trans hlater, fun h ↦ hnotified (h.happen e)⟩

theorem Inv.at {w : World} (h : Inv w) (t : Turn) : Inv (w.at t) := by
  obtain ⟨⟨hlog, -, -⟩, -, hnotified⟩ := at_spec w t
  exact ⟨hlog ▸ h.allowed, hnotified h.notified⟩

/-! ### Probes -/

/-- What a probe leaves alone. -/
structure Still (w w' : World) : Prop where
  log : w'.log = w.log
  later : Host.Later w.host w'.host
  listed : w'.listed = w.listed
  unprobed : w.unprobed ⊆ w'.unprobed

theorem Still.trans {w₁ w₂ w₃ : World} (h : Still w₁ w₂) (h' : Still w₂ w₃) : Still w₁ w₃ :=
  ⟨h'.log.trans h.log, h.later.trans h'.later, h'.listed.trans h.listed,
    fun _ hx ↦ h'.unprobed (h.unprobed hx)⟩

theorem still_at (w : World) (t : Turn) : Still w (w.at t) := by
  obtain ⟨⟨hlog, hlisted, hunprobed⟩, hlater, -⟩ := at_spec w t
  exact ⟨hlog, hlater, hlisted, fun _ hx ↦ hunprobed ▸ hx⟩

theorem still_unprobe (w : World) (pid : Nat) : Still w (w.unprobe pid) :=
  ⟨rfl, Host.Later.refl _, rfl, fun _ hx ↦ .tail _ hx⟩

theorem Still.refl (w : World) : Still w w := ⟨rfl, Host.Later.refl _, rfl, fun _ hx ↦ hx⟩

theorem Inv.unprobe {w : World} (h : Inv w) (pid : Nat) : Inv (w.unprobe pid) :=
  ⟨h.allowed, h.notified⟩

/-- A run of the stop wait: it may fail, but not panic. -/
abbrev Sound {ε α : Type} (Q : α → World → Prop) (p : Fallible StopOp StopOp.Ans (Halt ε) α)
    (w : World) : Prop :=
  Fallible.Safe world Inv (fun h _ ↦ h ≠ .panicked) Q p w

section Probes

variable {w : World} {x h : ListedProcess} {pid : Nat}

theorem sound_orFail {α : Type} {Q : α → World → Prop} {r : Except CallError α} (hI : Inv w)
    (hQ : ∀ a, r = .ok a → Q a w) : Sound Q (orFail r) w := by
  rcases r with e | a
  · exact safe_throw hI nofun
  · exact safe_pure hI (hQ a rfl)

theorem sound_hasExited (hI : Inv w) :
    Sound (fun b w' ↦ Still w w' ∧ (b = true → w'.host.alive h = false)) (hasExited h) w := by
  refine safe_call hI fun t ↦ sound_orFail (hI.at t) fun b hb ↦ ⟨still_at w t, ?_⟩
  have hb : t.orFailed .waitForSingleObject (!(w.at t).host.alive h) = .ok b := hb
  rintro rfl
  unfold Turn.orFailed at hb
  split at hb
  · nomatch hb
  · show (w.at t).host.alive h = false
    simpa using hb

/-- What an open tells about the processes that have the id. -/
def OpenedAs (pid : Nat) (w : World) : Except CallError ListedProcess → Prop
  | .ok h => h.pid = pid ∧ ∀ x, x.pid = pid → w.host.alive x = true → h = x
  | .error e =>
    if ProbeFailure.ofError e = .noSuchProcess then ∀ x, x.pid = pid → w.host.alive x = false
    else pid ∈ w.unprobed

variable {e : CallError}

/-- An open that answers that no process has the id is one where none has it. -/
theorem liveAt_of_noSuchProcess {host : Host} {t : Turn} (ho : t.opened host pid = .error e)
    (he : ProbeFailure.ofError e = .noSuchProcess) : host.liveAt pid = none := by
  rcases hlive : host.liveAt pid with - | p
  · rfl
  · simp only [Turn.opened, hlive] at ho
    split at ho
    · nomatch ho
    · rename_i hfailed
      unfold Turn.orFailed at ho
      split at ho
      · rename_i code hcode
        obtain rfl : CallError.mk .openProcess code = e := Except.error.inj ho
        rcases code with - | code
        · nomatch he
        · have hne : code ≠ errorInvalidParameter := fun h ↦ hfailed (by rw [hcode, h])
          simp only [ProbeFailure.ofError, hne, and_false, if_false] at he
          split at he <;> nomatch he
      · nomatch ho

/-- An open finds the live process that has the id. -/
theorem opened_eq {host : Host} {t : Turn} (ho : t.opened host pid = .ok h) :
    h.pid = pid ∧ ∀ x, x.pid = pid → host.alive x = true → h = x := by
  rcases hlive : host.liveAt pid with - | p
  · have hnot (x : ListedProcess) (hx : x.pid = pid) (halive : host.alive x = true) : False := by
      obtain ⟨p, hp, -⟩ := Host.liveAt_of_alive halive
      rw [hx, hlive] at hp
      nomatch hp
    refine ⟨?_, fun x hx halive ↦ (hnot x hx halive).elim⟩
    simp only [Turn.opened, hlive] at ho
    split at ho
    · rename_i z _
      split at ho
      · rename_i hz
        unfold Turn.orFailed at ho
        split at ho
        · nomatch ho
        · obtain rfl : z = h := Except.ok.inj ho
          exact hz.2
      · nomatch ho
    · nomatch ho
  · have hp : p.id = h := by
      simp only [Turn.opened, hlive] at ho
      split at ho
      · exact Except.ok.inj ho
      · unfold Turn.orFailed at ho
        split at ho
        · nomatch ho
        · exact Except.ok.inj ho
    subst hp
    refine ⟨(Host.liveAt_spec hlive).2, fun x hx halive ↦ ?_⟩
    obtain ⟨q, hq, hid⟩ := Host.liveAt_of_alive halive
    rw [hx, hlive] at hq
    rw [Option.some.inj hq, hid]

theorem sound_ask_openProcess (hI : Inv w) :
    Sound (fun r w' ↦ Still w w' ∧ OpenedAs pid w' r) (ask (.openProcess pid)) w := by
  refine ⟨hI, fun t ↦ ?_⟩
  have hstill := still_at w t
  show Inv (worldNext (w.at t) t (.openProcess pid)) ∧
    Still w (worldNext (w.at t) t (.openProcess pid)) ∧
      OpenedAs pid (worldNext (w.at t) t (.openProcess pid)) (t.opened (w.at t).host pid)
  rcases ho : t.opened (w.at t).host pid with e | h
  · by_cases he : ProbeFailure.ofError e = .noSuchProcess
    · have hlive := liveAt_of_noSuchProcess ho he
      simp only [worldNext, ho, he, if_true, OpenedAs]
      refine ⟨hI.at t, hstill, fun x hx ↦ ?_⟩
      rw [Bool.eq_false_iff]
      intro halive
      obtain ⟨p, hp, -⟩ := Host.liveAt_of_alive halive
      rw [hx, hlive] at hp
      nomatch hp
    · simp only [worldNext, ho, he, if_false, OpenedAs]
      exact ⟨(hI.at t).unprobe pid, hstill.trans (still_unprobe _ _), .head _⟩
  · simp only [worldNext, ho, OpenedAs]
    exact ⟨hI.at t, hstill, opened_eq ho⟩

/-- What the read of a token tells: the truth, or that the process stays unprobed. -/
def TokenRead (h : ListedProcess) (w : World) : Except CallError Bool → Prop
  | .ok b => b = w.host.carries h
  | .error e => e.call = .openProcessToken ∧ h.pid ∈ w.unprobed

theorem sound_ask_tokenCarries (hI : Inv w) :
    Sound (fun r w' ↦ Still w w' ∧ TokenRead h w' r) (ask (.tokenCarries h)) w := by
  refine ⟨hI, fun t ↦ ?_⟩
  have hstill := still_at w t
  show Inv (worldNext (w.at t) t (.tokenCarries h)) ∧
    Still w (worldNext (w.at t) t (.tokenCarries h)) ∧
      TokenRead h (worldNext (w.at t) t (.tokenCarries h))
        (t.orFailed .openProcessToken ((w.at t).host.carries h))
  rcases hf : t.failed with - | code
  · simp only [worldNext, Turn.orFailed, hf]
    exact ⟨hI.at t, hstill, rfl⟩
  · simp only [worldNext, Turn.orFailed, hf]
    exact ⟨(hI.at t).unprobe _, hstill.trans (still_unprobe _ _), rfl, .head _⟩

/-- What the read of a creation time tells. -/
def TimesRead (h : ListedProcess) (w : World) : Except CallError Nat → Prop
  | .ok created => created = h.created
  | .error e => e.call = .getProcessTimes ∧ h.pid ∈ w.unprobed

theorem sound_ask_processTimes (hI : Inv w) :
    Sound (fun r w' ↦ Still w w' ∧ TimesRead h w' r) (ask (.processTimes h)) w := by
  refine ⟨hI, fun t ↦ ?_⟩
  have hstill := still_at w t
  show Inv (worldNext (w.at t) t (.processTimes h)) ∧
    Still w (worldNext (w.at t) t (.processTimes h)) ∧
      TimesRead h (worldNext (w.at t) t (.processTimes h)) (t.orFailed .getProcessTimes h.created)
  rcases hf : t.failed with - | code
  · simp only [worldNext, Turn.orFailed, hf]
    exact ⟨hI.at t, hstill, rfl⟩
  · simp only [worldNext, Turn.orFailed, hf]
    exact ⟨(hI.at t).unprobe _, hstill.trans (still_unprobe _ _), rfl, .head _⟩

/-- What the probe of a listed process tells of it. -/
def Probed (x : ListedProcess) (w : World) : Opened → Prop
  | .noSuchProcess => w.host.Gone x
  | .notTheService => x.pid ∈ w.unprobed ∨ w.host.carries x = false
  | .service h => h = x
  | .undetermined _ => x.pid ∈ w.unprobed

/-- A failed call on an open process is never taken for a process that is gone. -/
theorem sound_ofFailure_scanned (hI : Inv w) (hx : x.pid ∈ w.unprobed)
    (he : ProbeFailure.ofError e ≠ .noSuchProcess) :
    Sound (fun r w' ↦ Still w w' ∧ Probed x w' r) (Opened.ofFailure .scanned e) w := by
  unfold Opened.ofFailure
  rcases hf : ProbeFailure.ofError e with - | - | -
  · exact absurd hf he
  · exact safe_pure hI ⟨Still.refl w, .inl hx⟩
  · exact safe_pure hI ⟨Still.refl w, hx⟩

theorem ofError_ne_noSuchProcess (he : e.call ≠ .openProcess) :
    ProbeFailure.ofError e ≠ .noSuchProcess := by
  unfold ProbeFailure.ofError
  split
  · nofun
  · simp only [he, false_and, if_false]
    split <;> nofun

theorem sound_readToken_scanned (hI : Inv w) (hx : w.host.known x = true) :
    Sound (fun r w' ↦ Still w w' ∧ Probed x w' r) (readToken x .scanned) w := by
  refine (sound_ask_tokenCarries hI).bind fun r w₁ hI₁ ⟨hstill, hr⟩ ↦ ?_
  rcases r with e | carries
  · obtain ⟨hcall, hunprobed⟩ := hr
    refine (sound_hasExited hI₁).bind fun exited w₂ hI₂ ⟨hstill₂, hexited⟩ ↦ ?_
    rcases exited
    · refine (sound_ofFailure_scanned hI₂ (hstill₂.unprobed hunprobed) ?_).mono
        fun r w' _ ⟨hs, hp⟩ ↦ ⟨(hstill.trans hstill₂).trans hs, hp⟩
      exact ofError_ne_noSuchProcess (by rw [hcall]; nofun)
    · have hknown := hstill₂.later.known x (hstill.later.known x hx)
      exact safe_pure hI₂ ⟨hstill.trans hstill₂, hknown, hexited rfl⟩
  · obtain rfl : carries = w₁.host.carries x := hr
    show Sound _ (openedFromTokenRead x .scanned (.ok (w₁.host.carries x))) w₁
    rcases hcarries : w₁.host.carries x
    · exact safe_pure hI₁ ⟨hstill, .inr hcarries⟩
    · exact safe_pure hI₁ ⟨hstill, rfl⟩

theorem sound_openListedProcess (hI : Inv w) (hx : w.host.known x = true) :
    Sound (fun r w' ↦ Still w w' ∧ Probed x w' r) (openListedProcess x) w := by
  refine (sound_ask_openProcess hI).bind fun r w₁ hI₁ ⟨hstill, hr⟩ ↦ ?_
  have hx₁ : w₁.host.known x = true := hstill.later.known x hx
  rcases r with e | h
  · show Sound _ (Opened.ofFailure .scanned e) w₁
    by_cases hno : ProbeFailure.ofError e = .noSuchProcess
    · have hdead : ∀ y, y.pid = x.pid → w₁.host.alive y = false := by
        simpa only [OpenedAs, hno, if_true] using hr
      simp only [Opened.ofFailure, hno, Basis.verdict]
      exact safe_pure hI₁ ⟨hstill, hx₁, hdead x rfl⟩
    · have hunprobed : x.pid ∈ w₁.unprobed := by
        simpa only [OpenedAs, hno, if_false] using hr
      exact (sound_ofFailure_scanned hI₁ hunprobed hno).mono
        fun r w' _ ⟨hs, hp⟩ ↦ ⟨hstill.trans hs, hp⟩
  · obtain ⟨hpid, huniq⟩ := hr
    refine (sound_ask_processTimes hI₁).bind fun r w₂ hI₂ ⟨hstill₂, hr⟩ ↦ ?_
    have hs := hstill.trans hstill₂
    rcases r with e | created
    · obtain ⟨hcall, hunprobed⟩ := hr
      have hno : ProbeFailure.ofError e ≠ .noSuchProcess :=
        ofError_ne_noSuchProcess (by rw [hcall]; nofun)
      exact (sound_ofFailure_scanned hI₂ (hpid ▸ hunprobed) hno).mono
        fun r w' _ ⟨hs', hp⟩ ↦ ⟨hs.trans hs', hp⟩
    · obtain rfl : created = h.created := hr
      show Sound _ (if h.created = x.created then readToken h .scanned else pure .noSuchProcess) w₂
      split
      · rename_i hcreated
        obtain rfl : h = x := by
          rcases h with ⟨pid, created⟩
          rcases x with ⟨pid', created'⟩
          simp_all
        exact (sound_readToken_scanned hI₂ (hs.later.known h hx)).mono
          fun r w' _ ⟨hs', hp⟩ ↦ ⟨hs.trans hs', hp⟩
      · rename_i hcreated
        -- The id leads to another process, so no live one has the listed identity.
        have hdead : w₁.host.alive x = false := by
          rw [Bool.eq_false_iff]
          intro halive
          exact hcreated (congrArg ListedProcess.created (huniq x rfl halive))
        exact safe_pure hI₂ ⟨hs, hstill₂.later.gone x ⟨hx₁, hdead⟩⟩

end Probes

/-! ### Scans -/

/-- At the last listing every live process of the service, other than the process `this`, was one
whose probe then failed. -/
def Cleared (this : Nat) (w : World) : Prop :=
  ∃ ps, w.listed = some ps ∧ ∀ p ∈ ps, p.pid ≠ this → p.pid ∈ w.unprobed

/-- What a listing tells. -/
def ListedAs (w w' : World) : Except CallError (List ListedProcess) → Prop
  | .ok listing =>
    w'.listed = some w'.host.carriers ∧ (∀ x ∈ w'.host.carriers, x ∈ listing) ∧
      ∀ x ∈ listing, w'.host.known x = true
  | .error _ => w'.listed = w.listed

theorem listingOf_lists (t : Turn) (h : Host) : h.Lists (t.listingOf h) := by
  unfold Turn.listingOf
  split
  · assumption
  · refine ⟨fun p hp _ ↦ List.mem_map_of_mem hp, fun x hx ↦ ?_⟩
    obtain ⟨p, hp, rfl⟩ := List.mem_map.1 hx
    exact Host.known_iff.2 ⟨p, hp, rfl⟩

theorem sound_ask_list {w : World} (hI : Inv w) :
    Sound (fun r w' ↦ (w'.log = w.log ∧ Host.Later w.host w'.host) ∧ ListedAs w w' r)
      (ask .list) w := by
  refine ⟨hI, fun t ↦ ?_⟩
  have hstill := still_at w t
  show Inv (worldNext (w.at t) t .list) ∧ ((worldNext (w.at t) t .list).log = w.log ∧
      Host.Later w.host (worldNext (w.at t) t .list).host) ∧
      ListedAs w (worldNext (w.at t) t .list) (t.orFailed .processList (t.listingOf (w.at t).host))
  rcases hf : t.failed with - | code
  · simp only [worldNext, Turn.orFailed, hf]
    obtain ⟨hall, hknown⟩ := listingOf_lists t (w.at t).host
    refine ⟨⟨(hI.at t).allowed, (hI.at t).notified⟩, ⟨hstill.log, hstill.later⟩, rfl,
      fun x hx ↦ ?_, hknown⟩
    obtain ⟨p, hp, rfl, hlive⟩ := Host.alive_iff.1 (Host.mem_carriers hx).1
    exact hall p hp hlive
  · simp only [worldNext, Turn.orFailed, hf]
    exact ⟨hI.at t, ⟨hstill.log, hstill.later⟩, hstill.listed⟩

/-- Where a scan stands: what is left of the listing, what it has found, and that every process of
the service that the listing showed alive is left, unprobed, found alive or found gone. -/
structure ScanLoop (this : Nat) (before ps : List ListedProcess) (w₁ : World)
    (xs : List ListedProcess) (r : ScanResult) (w : World) : Prop where
  still : Still w₁ w
  known : ∀ x ∈ xs, w.host.known x = true
  gone : ∀ x ∈ r.unprobeable, w.host.Gone x
  vanished : ∀ x ∈ r.unprobeable, x ∉ before → x ∈ r.vanished
  covers : ∀ p ∈ ps, p.pid ≠ this → p ∈ xs ∨ p.pid ∈ w.unprobed ∨ r.alive ≠ [] ∨ p ∈ r.unprobeable

section Scan

variable {this : Nat} {before ps xs : List ListedProcess} {w₁ w w' : World}
  {r r' : ScanResult} {x : ListedProcess}

/-- A round that tells what `x` is. -/
theorem ScanLoop.next (h : ScanLoop this before ps w₁ (x :: xs) r w) (hs : Still w w')
    (halive : r.alive ≠ [] → r'.alive ≠ []) (hsub : r.unprobeable ⊆ r'.unprobeable)
    (hgone : ∀ y ∈ r'.unprobeable, w'.host.Gone y)
    (hvanished : ∀ y ∈ r'.unprobeable, y ∉ before → y ∈ r'.vanished)
    (hx : x ∈ ps → x.pid ≠ this → x.pid ∈ w'.unprobed ∨ r'.alive ≠ [] ∨ x ∈ r'.unprobeable) :
    ScanLoop this before ps w₁ xs r' w' where
  still := h.still.trans hs
  known y hy := hs.later.known y (h.known y (List.mem_cons_of_mem x hy))
  gone := hgone
  vanished := hvanished
  covers p hp hpid := by
    obtain hmem | hunprobed | hfound | hun := h.covers p hp hpid
    · rcases List.mem_cons.1 hmem with rfl | hmem
      · exact .inr (hx hp hpid)
      · exact .inl hmem
    · exact .inr (.inl (hs.unprobed hunprobed))
    · exact .inr (.inr (.inl (halive hfound)))
    · exact .inr (.inr (.inr (hsub hun)))

/-- A round that adds nothing to what was found. -/
theorem ScanLoop.pass (h : ScanLoop this before ps w₁ (x :: xs) r w) (hs : Still w w')
    (hx : x ∈ ps → x.pid ≠ this → x.pid ∈ w'.unprobed) :
    ScanLoop this before ps w₁ xs r w' :=
  h.next hs id (fun _ hy ↦ hy) (fun y hy ↦ hs.later.gone y (h.gone y hy)) h.vanished
    fun hp hpid ↦ .inl (hx hp hpid)

/-- A round that finds `x` gone. -/
theorem ScanLoop.goneAtProbe (h : ScanLoop this before ps w₁ (x :: xs) r w) (hs : Still w w')
    (hx : w'.host.Gone x) : ScanLoop this before ps w₁ xs (r.goneAtProbe x before) w' := by
  have hmem (y : ListedProcess) (hy : y ∈ (r.goneAtProbe x before).unprobeable) :
      y ∈ r.unprobeable ∨ y = x := by
    simpa [ScanResult.goneAtProbe] using hy
  refine h.next hs id ?_ (fun y hy ↦ ?_) (fun y hy hbefore ↦ ?_) fun _ _ ↦ .inr (.inr ?_)
  · exact List.subset_append_left r.unprobeable [x]
  · obtain hy | rfl := hmem y hy
    · exact hs.later.gone y (h.gone y hy)
    · exact hx
  · show y ∈ if x ∈ before then r.vanished else r.vanished ++ [x]
    obtain hy | rfl := hmem y hy
    · have hvanished := h.vanished y hy hbefore
      split
      · exact hvanished
      · exact List.mem_append_left [x] hvanished
    · rw [if_neg hbefore]
      exact List.mem_append_right _ (List.mem_singleton_self y)
  · exact List.mem_append_right _ (List.mem_singleton_self x)

theorem sound_scanOne (hI : Inv w) (h : ScanLoop this before ps w₁ (x :: xs) r w)
    (hps : ∀ p ∈ ps, w₁.host.carries p = true) :
    Sound (ScanLoop this before ps w₁ xs) (scanOne this before r x) w := by
  unfold scanOne
  split
  · rename_i hthis
    exact safe_pure hI (h.pass (Still.refl w) fun _ hne ↦ absurd hthis hne)
  · have hknown : w.host.known x = true := h.known x (.head _)
    refine (sound_openListedProcess hI hknown).bind fun opened w' hI' ⟨hs, hprobed⟩ ↦ ?_
    rcases opened with - | - | h' | code
    · exact safe_pure hI' (h.goneAtProbe hs hprobed)
    · refine safe_pure hI' (h.pass hs fun hp _ ↦ hprobed.resolve_right ?_)
      have hcarries := (h.still.trans hs).later.carries x (hps x hp)
      simp [hcarries]
    · obtain rfl : h' = x := hprobed
      refine (sound_hasExited hI').bind fun exited w'' hI'' ⟨hs', hexited⟩ ↦ ?_
      have hs'' := hs.trans hs'
      rcases exited
      · refine safe_pure hI'' (h.next hs'' (fun _ ↦ ?_) (fun _ hy ↦ hy)
          (fun y hy ↦ hs''.later.gone y (h.gone y hy)) h.vanished fun _ _ ↦ .inr (.inl ?_))
        · simp
        · simp
      · exact safe_pure hI'' (h.goneAtProbe hs'' ⟨hs''.later.known h' hknown, hexited rfl⟩)
    · have h' := h.pass hs fun _ _ ↦ hprobed
      exact safe_pure hI' ⟨h'.still, h'.known, h'.gone, h'.vanished, h'.covers⟩

/-- A scan that finds nothing has cleared the host, if what the scan before found gone was gone. -/
theorem sound_scan (hI : Inv w) (hbefore : ∀ x ∈ before, w.host.Gone x) :
    Sound (fun r w' ↦ w'.log = w.log ∧ (∀ x ∈ r.unprobeable, w'.host.Gone x) ∧
      (r.finding = .nothing → Cleared this w')) (scan this before) w := by
  refine (sound_ask_list hI).bind ?_
  rintro (e | listing) w₁ hI₁ ⟨⟨hlog, hlater⟩, hlisted⟩
  · exact safe_throw hI₁ nofun
  · obtain ⟨hps, hall, hknown⟩ := hlisted
    have hcarries (p : ListedProcess) (hp : p ∈ w₁.host.carriers) : w₁.host.carries p = true :=
      (Host.mem_carriers hp).2
    -- A process that was gone at the scan before is not alive at this listing.
    have hnew (p : ListedProcess) (hp : p ∈ w₁.host.carriers) : p ∉ before := by
      intro hpb
      have halive := (Host.mem_carriers hp).1
      rw [(hlater.gone p (hbefore p hpb)).2] at halive
      cases halive
    have hstart : ScanLoop this before w₁.host.carriers w₁ listing ⟨[], [], [], []⟩ w₁ :=
      ⟨Still.refl w₁, hknown, nofun, nofun, fun p hp _ ↦ .inl (hall p hp)⟩
    refine (Fallible.safe_foldlM listing hI₁ hstart fun x xs r w' hI' h ↦
      sound_scanOne hI' h hcarries).mono fun r w' _ h ↦ ⟨h.still.log.trans hlog, h.gone, ?_⟩
    intro hnothing
    refine ⟨w₁.host.carriers, h.still.listed.trans hps, fun p hp hpid ↦ ?_⟩
    have hempty : r.alive = [] ∧ r.vanished = [] := by
      unfold ScanResult.finding at hnothing
      split at hnothing
      · cases hnothing
      · split at hnothing
        · cases hnothing
        · simp_all
    obtain hmem | hunprobed | halive | hun := h.covers p hp hpid
    · cases hmem
    · exact hunprobed
    · exact absurd hempty.1 halive
    · have hvanished := h.vanished p hun (hnew p hp)
      rw [hempty.2] at hvanished
      cases hvanished

end Scan

/-! ### Looks -/

/-- A look that saw `o`: it only read, and `o` last. -/
structure Looked (w w' : World) (o : Observed) : Prop where
  log : ∃ os : List Observed, w'.log = .read o :: (os.map .read ++ w.log)
  later : Host.Later w.host w'.host
  listed : w'.listed = w.listed
  unprobed : w.unprobed ⊆ w'.unprobed

section Looks

variable {w w₁ w' : World} {o : Observed} {fuel pid : Nat} {holds : ProcessHolds}

theorem Looked.still (h : Looked w w₁ o) (h' : Still w₁ w') : Looked w w' o where
  log := by
    obtain ⟨os, hos⟩ := h.log
    exact ⟨os, h'.log.trans hos⟩
  later := h.later.trans h'.later
  listed := h'.listed.trans h.listed
  unprobed _ hx := h'.unprobed (h.unprobed hx)

theorem Looked.again {o' : Observed} (h : Looked w w₁ o) (h' : Looked w₁ w' o') :
    Looked w w' o' where
  log := by
    obtain ⟨os, hos⟩ := h.log
    obtain ⟨os', hos'⟩ := h'.log
    exact ⟨os' ++ o :: os, by rw [hos', hos]; simp⟩
  later := h.later.trans h'.later
  listed := h'.listed.trans h.listed
  unprobed _ hx := h'.unprobed (h.unprobed hx)

theorem Looked.lastLook_eq (h : Looked w w' o) : lastLook w'.log = some o := by
  obtain ⟨os, hos⟩ := h.log
  rw [hos]
  rfl

theorem Looked.lookSinceArm_eq (h : Looked w w' o) : lookSinceArm w'.log = some o := by
  obtain ⟨os, hos⟩ := h.log
  rw [hos]
  rfl

theorem Looked.armedFor_eq (h : Looked w w' o) : armedFor w'.log = armedFor w.log := by
  obtain ⟨os, hos⟩ := h.log
  rw [hos]
  show armedFor (os.map StopEvent.read ++ w.log) = armedFor w.log
  clear hos
  induction os with
  | nil => rfl
  | cons o' os ih => exact ih

theorem Looked.cleared {this : Nat} (h : Looked w w' o) (hw : Cleared this w) :
    Cleared this w' := by
  obtain ⟨ps, hps, hall⟩ := hw
  exact ⟨ps, h.listed.trans hps, fun p hp hpid ↦ h.unprobed (hall p hp hpid)⟩

theorem sound_readService (hI : Inv w) :
    Sound (fun r w' ↦ Looked w w' r.observed) readService w := by
  refine safe_call hI fun t ↦ ?_
  have hstill := still_at w t
  have hIt := hI.at t
  have hread : Inv ((w.at t).record (.read (w.at t).scm)) := ⟨⟨trivial, hIt.allowed⟩, hIt.notified⟩
  have hlooked : Looked w ((w.at t).record (.read (w.at t).scm)) (w.at t).scm :=
    ⟨⟨[], congrArg (StopEvent.read (w.at t).scm :: ·) hstill.log⟩, hstill.later,
      hstill.listed, hstill.unprobed⟩
  show Sound _ (orFail (t.orFailed .queryServiceStatusEx (Reading.mk (w.at t).scm t.pid)))
    (worldNext (w.at t) t .read)
  rcases hf : t.failed with - | code
  · simp only [worldNext, Turn.orFailed, hf]
    exact safe_pure hread hlooked
  · simp only [worldNext, Turn.orFailed, hf]
    exact safe_throw hIt nofun

/-- A process that the SCM names is one that its state may name. -/
theorem processToHold_spec {r : Reading} (h : r.processToHold = some pid) :
    r.observed.reportedPid ≠ .never := by
  intro hnever
  simp [Reading.processToHold, Observed.namesAProcess, hnever] at h

variable {claim : ReportedPid}

/-- A probe of a process that the SCM named in a state that names one is decided. -/
theorem sound_ofFailure_named {e : CallError} (hI : Inv w) (hclaim : claim ≠ .never) :
    Sound (fun r w' ↦ Still w w' ∧ ∀ code, r ≠ .undetermined code)
      (Opened.ofFailure (.named claim) e) w := by
  have hgo {r : Opened} (hr : ∀ code, r ≠ .undetermined code) :
      Sound (fun r w' ↦ Still w w' ∧ ∀ code, r ≠ .undetermined code) (pure r : HoldM Opened) w :=
    safe_pure hI ⟨Still.refl w, hr⟩
  unfold Opened.ofFailure
  cases claim with
  | never => exact absurd rfl hclaim
  | valid =>
    cases ProbeFailure.ofError e with
    | noSuchProcess => exact hgo nofun
    | accessDenied => exact safe_throw hI nofun
    | other => exact safe_throw hI nofun
  | mayBeInvalid =>
    cases ProbeFailure.ofError e with
    | noSuchProcess => exact hgo nofun
    | accessDenied => exact hgo nofun
    | other => exact safe_throw hI nofun

theorem sound_readToken_named {h : ListedProcess} (hI : Inv w) (hclaim : claim ≠ .never) :
    Sound (fun r w' ↦ Still w w' ∧ ∀ code, r ≠ .undetermined code)
      (readToken h (.named claim)) w := by
  refine (sound_ask_tokenCarries hI).bind fun r w₁ hI₁ ⟨hs, _⟩ ↦ ?_
  rcases r with e | - | -
  · refine (sound_hasExited hI₁).bind fun exited w₂ hI₂ ⟨hs₂, _⟩ ↦ ?_
    rcases exited
    · exact (sound_ofFailure_named hI₂ hclaim).mono
        fun r w' _ ⟨hs', hr⟩ ↦ ⟨(hs.trans hs₂).trans hs', hr⟩
    · exact safe_pure hI₂ ⟨hs.trans hs₂, nofun⟩
  · exact safe_pure hI₁ ⟨hs, nofun⟩
  · exact safe_pure hI₁ ⟨hs, nofun⟩

theorem sound_openProcess_named (hI : Inv w) (hclaim : claim ≠ .never) :
    Sound (fun r w' ↦ Still w w' ∧ ∀ code, r ≠ .undetermined code)
      (openProcess pid (.named claim)) w := by
  refine (sound_ask_openProcess hI).bind fun r w₁ hI₁ ⟨hs, _⟩ ↦ ?_
  rcases r with e | h
  · exact (sound_ofFailure_named hI₁ hclaim).mono fun r w' _ ⟨hs', hr⟩ ↦ ⟨hs.trans hs', hr⟩
  · exact (sound_readToken_named hI₁ hclaim).mono fun r w' _ ⟨hs', hr⟩ ↦ ⟨hs.trans hs', hr⟩

/-- What a hold that is reported as held needs to be read. -/
def Found (holds : ProcessHolds) (hold : Hold) : Prop :=
  hold.named = .held → (hold.reading.processToHold.bind holds.find).isSome = true

theorem isSome_find_reclaim {held : List Held}
    (h : (held.find? fun x ↦ x.pid == pid).isSome = true) :
    ((reclaim pid claim held).find? fun x ↦ x.pid == pid).isSome = true := by
  induction held with
  | nil => exact h
  | cons x held ih =>
    unfold reclaim
    split
    · rename_i hx
      simp [hx]
    · rename_i hx
      simp only [List.find?_cons, beq_eq_false_iff_ne.2 hx] at h ⊢
      exact ih h

/-- What holding the process that the service names comes to. -/
def HeldAs (w : World) (vanished : List ListedProcess) (r : Hold × ProcessHolds) (w' : World) :
    Prop :=
  Looked w w' r.1.reading.observed ∧ Found r.2 r.1 ∧ r.2.vanished = vanished

theorem sound_holdConfirmed {w₀ : World} {reading again : Reading}
    {candidate : Option ListedProcess}
    (hI : Inv w) (hlook : Looked w₀ w again.observed) (hpid : reading.processToHold = some pid)
    (hagain : again.processToHold = some pid) :
    Sound (HeldAs w₀ holds.vanished) (holdConfirmed holds pid reading again candidate) w := by
  cases candidate with
  | none => exact safe_pure hI ⟨hlook, nofun, rfl⟩
  | some h =>
    have hclaim := processToHold_spec hpid
    unfold holdConfirmed
    rcases hfirst : Origin.firstHeldOn reading.observed.reportedPid with - | origin
    · rcases hreported : reading.observed.reportedPid with - | - | -
      · rw [hreported] at hfirst
        nomatch hfirst
      · rw [hreported] at hfirst
        nomatch hfirst
      · exact absurd hreported hclaim
    · refine safe_pure hI ⟨hlook, fun _ ↦ ?_, rfl⟩
      show (again.processToHold.bind _).isSome = true
      rw [hagain]
      simp [ProcessHolds.find]

theorem sound_holdFrom {w₀ : World} {reading : Reading} (hI : Inv w)
    (hlook : Looked w₀ w reading.observed) :
    Sound (HeldAs w₀ holds.vanished) (holdFrom fuel holds reading) w := by
  induction fuel generalizing reading w with
  | zero => exact safe_throw hI nofun
  | succ fuel ih =>
    unfold holdFrom
    split
    · exact safe_pure hI ⟨hlook, nofun, rfl⟩
    · rename_i pid hpid
      split
      · rename_i held hfind
        refine safe_pure hI ⟨hlook, fun _ ↦ ?_, rfl⟩
        show (reading.processToHold.bind _).isSome = true
        rw [hpid]
        exact isSome_find_reclaim (by simpa [ProcessHolds.find] using congrArg Option.isSome hfind)
      · -- The candidate is acted on only if the second look names the same id.
        have hconfirm {w : World} {candidate : Option ListedProcess} (hI : Inv w)
            (hlook : Looked w₀ w reading.observed) :
            Sound (HeldAs w₀ holds.vanished)
              (confirm (holdFrom fuel holds) holds pid reading candidate) w := by
          refine (sound_readService hI).bind fun again w' hI' hagain ↦ ?_
          have hlook' := hlook.again hagain
          split
          · rename_i hsame
            exact sound_holdConfirmed hI' hlook' hpid hsame
          · exact ih hI' hlook'
        refine (sound_openProcess_named hI (processToHold_spec hpid)).bind
          fun opened w' hI' ⟨hs, hopened⟩ ↦ ?_
        rcases opened with - | - | h | code
        · exact safe_pure hI' ⟨hlook.still hs, nofun, rfl⟩
        · exact hconfirm hI' (hlook.still hs)
        · exact hconfirm hI' (hlook.still hs)
        · exact absurd rfl (hopened code)

theorem sound_fate {hold : Hold} (hI : Inv w) (hfound : Found holds hold) :
    Sound (fun _ w' ↦ Still w w') (fate holds hold) w := by
  unfold fate
  split
  · exact safe_pure hI (Still.refl w)
  · exact safe_pure hI (Still.refl w)
  · exact safe_pure hI (Still.refl w)
  · rename_i hnamed
    have hsome := hfound hnamed
    split
    · rename_i hnone
      rw [hnone] at hsome
      nomatch hsome
    · exact (sound_hasExited hI).bind fun _ w' hI' ⟨hs, _⟩ ↦ safe_pure hI' hs

theorem sound_anyAlive {held : List Held} (hI : Inv w) :
    Sound (fun _ w' ↦ Still w w') (anyAlive held) w := by
  induction held generalizing w with
  | nil => exact safe_pure hI (Still.refl w)
  | cons x held ih =>
    refine (sound_hasExited hI).bind fun exited w' hI' ⟨hs, _⟩ ↦ ?_
    split
    · exact (ih hI').mono fun _ _ _ hs' ↦ hs.trans hs'
    · exact safe_pure hI' hs

theorem sound_look (hI : Inv w) :
    Sound (fun r w' ↦ Looked w w' r.1.observed ∧ r.2.vanished = holds.vanished)
      (look fuel holds) w := by
  have hhold : Sound (HeldAs w holds.vanished) (holdCurrent fuel holds) w :=
    (sound_readService hI).bind fun reading w' hI' hlook ↦ sound_holdFrom hI' hlook
  refine hhold.bind fun ⟨hold, holds'⟩ w₁ hI₁ ⟨hlook, hfound, hvanished⟩ ↦ ?_
  refine (sound_fate hI₁ hfound).bind fun fate w₂ hI₂ hs₂ ↦ ?_
  refine (sound_anyAlive hI₂).bind fun heldAlive w₃ hI₃ hs₃ ↦ ?_
  exact safe_pure hI₃ ⟨hlook.still (hs₂.trans hs₃), hvanished⟩

end Looks

/-! ### The loop -/

/-- What the wait carries is true: every process that the last scan found gone is gone. -/
def Carried (st : Settle) (w : World) : Prop := ∀ x ∈ st.holds.vanished, w.host.Gone x

/-- Where a step of the loop leaves it: on a look, or settled. -/
def Left (this : Nat) (r : Next × Settle) (w : World) : Prop :=
  Carried r.2 w ∧
    match r.1 with
    | .look l => lastLook w.log = some l.observed
    | .settled => Cleared this w

section Loop

variable {w w' : World} {this fuel : Nat} {st : Settle} {l : Look}

theorem Carried.later (h : Carried st w) (hl : Host.Later w.host w'.host) : Carried st w' :=
  fun x hx ↦ hl.gone x (h x hx)

theorem sound_inStep {α : Type} {Q : α → World → Prop} {step : SettleFailure} {p : HoldM α}
    (h : Sound Q p w) : Sound Q (inStep step p) w := by
  refine Fallible.safe_adapt (Prog.Safe.mono h fun r w' _ hr ↦ ?_)
  rcases r with e | a
  · rcases e with e | - | -
    · nofun
    · exact absurd rfl hr
    · nofun
  · exact hr

theorem sound_observe (hI : Inv w) (hst : Carried st w) :
    Sound (fun r w' ↦ Looked w w' r.1.observed ∧ Carried r.2 w' ∧ r.2.refused = st.refused)
      (observeService fuel st) w := by
  refine (sound_inStep (sound_look hI)).bind fun ⟨l, holds⟩ w' hI' ⟨hlook, hvanished⟩ ↦ ?_
  refine safe_pure hI' ⟨hlook, ?_, rfl⟩
  have hcarried := hst.later hlook.later
  exact fun x hx ↦ hcarried x (hvanished ▸ hx)

theorem vanished_adopt (found : List (Nat × ListedProcess)) (holds : ProcessHolds) :
    (found.foldl ProcessHolds.adopt holds).vanished = holds.vanished := by
  induction found generalizing holds with
  | nil => rfl
  | cons x found ih =>
    rw [List.foldl_cons, ih]
    unfold ProcessHolds.adopt
    split <;> rfl

theorem sound_scanService (hI : Inv w) (hst : Carried st w) :
    Sound (fun r w' ↦ w'.log = w.log ∧ Carried r.2 w' ∧ r.2.refused = st.refused ∧
      (r.1 = .nothing → Cleared this w')) (scanService this st) w := by
  have hholds : Sound (fun r w' ↦ w'.log = w.log ∧ (∀ x ∈ r.2.vanished, w'.host.Gone x) ∧
      (r.1 = .nothing → Cleared this w')) (holdScanned this st.holds) w := by
    refine (sound_scan hI hst).bind fun r w' hI' ⟨hlog, hgone, hcleared⟩ ↦ ?_
    refine safe_pure hI' ⟨hlog, ?_, hcleared⟩
    rw [vanished_adopt]
    exact hgone
  exact (sound_inStep hholds).bind fun r w' hI' ⟨hlog, hgone, hcleared⟩ ↦
    safe_pure hI' ⟨hlog, hgone, rfl, hcleared⟩

theorem sound_lookAgain (hI : Inv w) (hst : Carried st w) :
    Sound (Left this) (lookAgain fuel st) w :=
  (sound_observe hI hst).bind fun _ _ hI' ⟨hlook, hst', _⟩ ↦
    safe_pure hI' ⟨hst', hlook.lastLook_eq⟩

/-- A process is ended on a look that saw the service stopped. -/
theorem Inv.terminate (hI : Inv w) {pid : Nat} (hlook : lastLook w.log = some .stopped) :
    Inv (w.record (.terminate pid)) :=
  ⟨⟨hlook, hI.allowed⟩, hI.notified⟩

theorem sound_terminate {pid : Nat} {h : ListedProcess} (hI : Inv w)
    (hlook : lastLook w.log = some .stopped) :
    Sound (fun _ w' ↦ lastLook w'.log = some .stopped ∧ Host.Later w.host w'.host)
      (terminate pid h) w := by
  refine safe_call hI fun t ↦ ?_
  have hstill := still_at w t
  have hlook' : lastLook (w.at t).log = some .stopped := by rw [hstill.log, hlook]
  have hIt : Inv ((w.at t).record (.terminate pid)) := (hI.at t).terminate hlook'
  have hanswer : world.answer w (.terminate pid) t = t.orFailed .terminateProcess () := rfl
  show Sound _ _ (worldNext (w.at t) t (.terminate pid))
  rcases hf : t.failed with - | code
  · simp only [hanswer, worldNext, Turn.orFailed, hf]
    rcases (w.at t).host.liveAt pid with - | p
    · exact safe_pure hIt ⟨hlook', hstill.later⟩
    · exact safe_pure ⟨hIt.allowed, hIt.notified⟩
        ⟨hlook', hstill.later.trans (Host.later_exit _ _)⟩
  · simp only [hanswer, worldNext, Turn.orFailed, hf]
    refine (sound_hasExited hIt).bind ?_
    rintro exited w' hI' ⟨hs, _⟩
    split
    · refine safe_pure hI' ⟨?_, hstill.later.trans hs.later⟩
      rw [hs.log]
      exact hlook'
    · exact safe_throw hI' nofun

theorem sound_terminateLive {orphans : List (Nat × ListedProcess)} (hI : Inv w)
    (hlook : lastLook w.log = some .stopped) :
    Sound (fun _ w' ↦ Host.Later w.host w'.host) (terminateLive orphans) w := by
  induction orphans generalizing w with
  | nil => exact safe_pure hI (Host.Later.refl _)
  | cons x orphans ih =>
    refine (sound_hasExited hI).bind fun exited w₁ hI₁ ⟨hs, _⟩ ↦ ?_
    have hlook₁ : lastLook w₁.log = some .stopped := by rw [hs.log, hlook]
    split
    · exact (ih hI₁ hlook₁).mono fun _ _ _ hl ↦ hs.later.trans hl
    · refine (sound_terminate hI₁ hlook₁).bind fun _ w₂ hI₂ ⟨hlook₂, hl₂⟩ ↦ ?_
      exact (ih hI₂ hlook₂).mono fun _ _ _ hl ↦ (hs.later.trans hl₂).trans hl

theorem sound_awaitExits {holds : ProcessHolds} {wait : ExitWait} (hI : Inv w)
    (hlook : wait.terminatesOrphans = true → lastLook w.log = some .stopped) :
    Sound (fun _ w' ↦ Host.Later w.host w'.host) (awaitExits holds wait) w := by
  have horphans : Sound (fun _ w' ↦ Host.Later w.host w'.host) (terminateOrphans holds wait) w := by
    unfold terminateOrphans
    split
    · rename_i hwait
      exact sound_terminateLive hI (hlook hwait)
    · exact safe_pure hI (Host.Later.refl _)
  refine horphans.bind fun _ w₁ hI₁ hl ↦ ?_
  exact safe_call hI₁ fun t ↦ sound_orFail (hI₁.at t) fun _ _ ↦
    hl.trans (still_at w₁ t).later

/-- The wait that a look asks for ends processes only where the look saw the service stopped. -/
theorem observed_of_terminatesOrphans (h : l.exitWait.terminatesOrphans = true) :
    l.observed = .stopped := by
  rcases l with ⟨observed, fate, heldAlive, everHeld⟩
  cases observed <;> simp_all [Look.exitWait, ExitWait.terminatesOrphans]

theorem sound_awaitExitsThenLook (hI : Inv w) (hst : Carried st w)
    (hlook : lastLook w.log = some l.observed) :
    Sound (Left this) (awaitExitsThenLook fuel l.exitWait st) w := by
  have hwait (h : l.exitWait.terminatesOrphans = true) : lastLook w.log = some .stopped := by
    rw [hlook, observed_of_terminatesOrphans h]
  refine (sound_inStep (sound_awaitExits hI hwait)).bind fun _ w' hI' hl ↦ ?_
  exact sound_lookAgain hI' (hst.later hl)

/-- A sleep after an arm loses nothing. -/
theorem Inv.wait (hI : Inv w) (hw : Waits w.log) : Inv (w.record (.wait w.lost)) := by
  refine ⟨⟨⟨?_, hw⟩, hI.allowed⟩, nofun⟩
  obtain ⟨o, harmed, -⟩ := hw
  have hlost : w.lost = (!w.fired && (leaving o).contains w.scm) := by
    simp only [World.lost, harmed]
  rw [hlost]
  rcases hscm : (leaving o).contains w.scm
  · exact Bool.and_false _
  · rw [hI.notified _ harmed hscm]
    rfl

theorem sound_awaitCallback (hI : Inv w) (hw : Waits w.log) :
    Sound (fun _ w' ↦ Host.Later w.host w'.host) awaitCallback w := by
  refine sound_inStep (safe_call hI fun t ↦ ?_)
  have hstill := still_at w t
  have hIt : Inv ((w.at t).record (.wait (w.at t).lost)) := (hI.at t).wait (hstill.log ▸ hw)
  exact sound_orFail hIt fun _ _ ↦ hstill.later

theorem leaving_ne_nil (o : Observed) : (leaving o).isEmpty = false := by
  cases o <;> rfl

/-- What an arm leaves. -/
structure ArmedAs (o : Observed) (w : World) (r : Bool × Settle) (w' : World) : Prop where
  carried : Carried r.2 w'
  lastLook : lastLook w'.log = lastLook w.log
  armed : r.1 = true → w'.log = .arm (leaving o) :: w.log

theorem sound_armLeaving {o : Observed} (hI : Inv w) (hst : Carried st w) :
    Sound (ArmedAs o w) (armLeaving o st) w := by
  unfold armLeaving
  split
  · exact safe_pure hI ⟨hst, rfl, nofun⟩
  · show Sound _ (if (leaving o).isEmpty then _ else _) w
    rw [leaving_ne_nil]
    refine safe_call hI fun t ↦ ?_
    have hstill := still_at w t
    have hIt := hI.at t
    have hst' := hst.later hstill.later
    have hlast : lastLook (w.at t).log = lastLook w.log := congrArg Service.lastLook hstill.log
    show Sound _ (armed st (t.orFailed .notifyServiceStatusChange ()))
      (worldNext (w.at t) t (.arm (leaving o)))
    rcases hf : t.failed with - | code
    · simp only [worldNext, Turn.orFailed, hf]
      have harmed : Inv { (w.at t).record (.arm (leaving o)) with
          fired := (leaving o).contains (w.at t).scm } := by
        refine ⟨⟨trivial, hIt.allowed⟩, fun states hstates hscm ↦ ?_⟩
        obtain rfl : leaving o = states := Option.some.inj hstates
        exact hscm
      exact safe_pure harmed
        ⟨hst', hlast, fun _ ↦ congrArg (StopEvent.arm (leaving o) :: ·) hstill.log⟩
    · simp only [worldNext, Turn.orFailed, hf]
      have hrefused : Inv ((w.at t).record .armRefused) := ⟨⟨trivial, hIt.allowed⟩, nofun⟩
      unfold armed
      split
      · nomatch ‹Except.error _ = Except.ok ()›
      · split
        · split
          · exact safe_pure hrefused ⟨hst', hlast, nofun⟩
          · exact safe_throw hrefused nofun
        · exact safe_throw hrefused nofun

theorem sound_withoutArm (hI : Inv w) (hst : Carried st w) :
    Sound (Left this) (withoutArm this fuel st) w := by
  refine (sound_scanService hI hst).bind fun ⟨finding, st₁⟩ w₁ hI₁ ⟨_, hst₁, _, hcleared⟩ ↦ ?_
  refine (sound_observe hI₁ hst₁).bind fun ⟨l, st₂⟩ w₂ hI₂ ⟨hlook, hst₂, _⟩ ↦ ?_
  have hlast := hlook.lastLook_eq
  show Sound _ (withoutArmOn fuel finding l st₂) w₂
  unfold withoutArmOn
  split
  · exact sound_awaitExitsThenLook hI₂ hst₂ hlast
  · split
    · exact safe_pure hI₂ ⟨hst₂, hlast⟩
    · split
      · exact safe_pure hI₂ ⟨hst₂, hlast⟩
      · rename_i hends
        split
        · have hnothing : finding = .nothing := by
            cases finding <;> simp_all [ScanFinding.endsTheWait]
          exact safe_pure hI₂ ⟨hst₂, hlook.cleared (hcleared hnothing)⟩
        · exact sound_awaitExitsThenLook hI₂ hst₂ hlast

theorem sound_quiesce (hI : Inv w) (hst : Carried st w) :
    Sound (Left this) (quiesce this fuel st) w := by
  refine (sound_scanService hI hst).bind fun ⟨finding, st₁⟩ w₁ hI₁ ⟨_, hst₁, _, hcleared⟩ ↦ ?_
  refine (sound_observe hI₁ hst₁).bind fun ⟨l, st₂⟩ w₂ hI₂ ⟨hlook, hst₂, _⟩ ↦ ?_
  show Sound _ (if finding.endsTheWait && l.settleStep.endsTheWait then _ else _) w₂
  split
  · rename_i hends
    have hnothing : finding = .nothing := by
      cases finding <;> simp_all [ScanFinding.endsTheWait]
    exact safe_pure hI₂ ⟨hst₂, hlook.cleared (hcleared hnothing)⟩
  · exact safe_pure hI₂ ⟨hst₂, hlook.lastLook_eq⟩

/-- A look that asks to wait for leaving a state saw that state. -/
theorem observed_of_awaitChange {o : Observed} (h : l.settleStep = .awaitChange o) :
    l.observed = o := by
  rcases l with ⟨observed, fate, heldAlive, everHeld⟩
  cases observed <;> cases fate <;> cases heldAlive <;> simp_all [Look.settleStep]

/-- A look that asks for a Stop saw the service running. -/
theorem observed_of_sendStop (h : l.settleStep = .sendStop) : l.observed = .running := by
  rcases l with ⟨observed, fate, heldAlive, everHeld⟩
  cases observed <;> cases fate <;> cases heldAlive <;> simp_all [Look.settleStep]

theorem sound_awaitChange {o : Observed} (hI : Inv w) (hst : Carried st w) :
    Sound (Left this) (awaitChange this fuel (.awaitChange o) st) w := by
  refine (sound_armLeaving (o := o) hI hst).bind fun ⟨armed, st₁⟩ w₁ hI₁ harm ↦ ?_
  show Sound _ (if armed then awaitChangeArmed fuel (.awaitChange o) st₁
    else withoutArm this fuel st₁) w₁
  split
  · rename_i harmed
    refine (sound_observe hI₁ harm.carried).bind fun ⟨again, st₂⟩ w₂ hI₂ ⟨hlook, hst₂, _⟩ ↦ ?_
    show Sound _ (if again.settleStep ≠ .awaitChange o then _ else _) w₂
    split
    · exact safe_pure hI₂ ⟨hst₂, hlook.lastLook_eq⟩
    · rename_i hsame
      have hobserved : again.observed = o := observed_of_awaitChange (not_not.1 hsame)
      have hwaits : Waits w₂.log := by
        refine ⟨o, ?_, .inr ?_⟩
        · rw [hlook.armedFor_eq, harm.armed harmed]
          rfl
        · rw [hlook.lookSinceArm_eq, hobserved]
      refine (sound_awaitCallback hI₂ hwaits).bind fun _ w₃ hI₃ hl ↦ ?_
      exact sound_lookAgain hI₃ (hst₂.later hl)
  · exact sound_withoutArm hI₁ harm.carried

/-- A Stop goes out on a look that saw the service running. -/
theorem Inv.stop (hI : Inv w) {accepted : Bool} (hlook : lastLook w.log = some .running) :
    Inv (w.record (.stop accepted)) :=
  ⟨⟨hlook, hI.allowed⟩, hI.notified⟩

theorem sound_stop (hI : Inv w) (hst : Carried st w) (hlook : lastLook w.log = some l.observed)
    (hl : l.observed = .running) : Sound (Left this) (stop this fuel l st) w := by
  -- Armed or not, nothing has looked since; where it is armed, the arm is the last act.
  have harm : Sound (fun r w' ↦ ArmedAs .running w r w') (armForStop l st) w := by
    unfold armForStop
    split
    · exact safe_pure hI ⟨hst, rfl, nofun⟩
    · rw [hl]
      exact sound_armLeaving hI hst
  refine harm.bind ?_
  rintro ⟨armed, st₁⟩ w₁ hI₁ harmed
  refine safe_call hI₁ fun t ↦ ?_
  have hstill := still_at w₁ t
  have hlook₁ : lastLook (w₁.at t).log = some .running := by
    rw [hstill.log, harmed.lastLook, hlook, hl]
  have hst₁ : Carried st₁ (w₁.at t) := harmed.carried.later hstill.later
  have hIt : Inv ((w₁.at t).record (.stop t.failed.isNone)) := (hI₁.at t).stop hlook₁
  have hanswer : world.answer w₁ .controlStop t = t.orFailed .controlService () := rfl
  show Sound _ _ ((w₁.at t).record (.stop t.failed.isNone))
  rcases hf : t.failed with - | code
  · rw [hf] at hIt
    simp only [hanswer, Turn.orFailed, hf]
    unfold awaitStop
    split
    · exact sound_awaitExitsThenLook hIt hst₁ (hlook₁.trans (congrArg some hl.symm))
    · split
      · rename_i htrue
        have hwaits : Waits ((w₁.at t).record (.stop true)).log := by
          refine ⟨.running, ?_, .inl rfl⟩
          show armedFor (w₁.at t).log = _
          rw [hstill.log, harmed.armed htrue]
          rfl
        refine (sound_awaitCallback hIt hwaits).bind fun _ w₂ hI₂ hlater ↦ ?_
        exact sound_lookAgain hI₂ (hst₁.later hlater)
      · exact sound_withoutArm hIt hst₁
  · rw [hf] at hIt
    simp only [hanswer, Turn.orFailed, hf]
    refine (sound_observe hIt hst₁).bind ?_
    rintro ⟨again, st₂⟩ w₂ hI₂ ⟨hlook₂, hst₂, _⟩
    show Sound _ (if again.settleStep.isAStopTheServiceTakes then _ else _) w₂
    split
    · exact safe_throw hI₂ nofun
    · exact safe_pure hI₂ ⟨hst₂, hlook₂.lastLook_eq⟩

theorem sound_settleTurn (hI : Inv w) (hst : Carried st w)
    (hlook : lastLook w.log = some l.observed) :
    Sound (Left this) (settleTurn this fuel l st) w := by
  unfold settleTurn
  split
  · exact sound_quiesce hI hst
  · rename_i hstep
    exact sound_stop hI hst hlook (observed_of_sendStop hstep)
  · exact sound_awaitExitsThenLook hI hst hlook
  · exact sound_awaitChange hI hst

theorem sound_settleLoop {turns : Nat} (hI : Inv w) (hst : Carried st w)
    (hlook : lastLook w.log = some l.observed) :
    Sound (fun _ ↦ Cleared this) (settleLoop this fuel turns l st) w := by
  induction turns generalizing w st l with
  | zero => exact safe_throw hI nofun
  | succ turns ih =>
    refine (sound_settleTurn hI hst hlook).bind fun ⟨next, st'⟩ w' hI' ⟨hst', hnext⟩ ↦ ?_
    cases next with
    | look again => exact ih hI' hst' hnext
    | settled => exact safe_pure hI' hnext

theorem sound_settleStopped {turns : Nat} (hI : Inv w) :
    Sound (fun _ ↦ Cleared this) (settleStopped this fuel turns) w := by
  have hnone : Carried ⟨⟨[], []⟩, false⟩ w := fun _ hx ↦ absurd hx List.not_mem_nil
  refine (sound_observe hI hnone).bind fun ⟨l, st⟩ w' hI' ⟨hlook, hst, _⟩ ↦ ?_
  exact sound_settleLoop hI' hst hlook.lastLook_eq

end Loop

/-! ### Runs -/

/-- The world in which the stop wait begins. -/
def World.start (host : Host) (scm : Observed) : World := ⟨host, scm, false, [], none, []⟩

/-- A run of the stop wait, by the process with id `this`. -/
def runStop (this fuel turns : Nat) (w : World) (ts : List Turn) :
    Option (Except (Halt SettleError) Unit) × World × List Turn :=
  Prog.run world (settleStopped this fuel turns).run w ts

/-- **The stop wait is sound.** From any host and any state of the service, whatever happens between
its calls and whichever of them fail, and however far the run gets:

* every Stop was sent on a look that saw the service running, every process was ended on one that
  saw it stopped, and every sleep was armed, with a Stop accepted since or the last look since in
  the state that the arm is for leaving, and lost no transition;
* no branch that the source calls unreachable was reached;
* where the run returned, every process of the service that was alive at its last listing, other
  than the caller, is one whose probe failed. -/
theorem settleStopped_sound (host : Host) (scm : Observed) (this fuel turns : Nat)
    (ts : List Turn) :
    let ended := runStop this fuel turns (World.start host scm) ts
    (∀ newer e older, ended.2.1.log = newer ++ e :: older → Allowed older e) ∧
      ended.1 ≠ some (.error .panicked) ∧
      (ended.1 = some (.ok ()) → Cleared this ended.2.1) := by
  intro ended
  have hstart : Inv (World.start host scm) := ⟨trivial, nofun⟩
  have hsound : Sound (fun _ ↦ Cleared this) (settleStopped this fuel turns)
    (World.start host scm) :=
    sound_settleStopped hstart
  obtain ⟨hI, hpost⟩ := Prog.Safe.sound hsound ts
  refine ⟨fun newer e older hlog ↦ ?_, fun hpanic ↦ ?_, fun hok ↦ hpost _ hok⟩
  · have hallowed : Justified Allowed ended.2.1.log := hI.allowed
    rw [hlog] at hallowed
    exact hallowed.of_split
  · exact hpost _ hpanic rfl

/-- A call in which nothing else happens and nothing fails. -/
def calmTurn : Turn := ⟨[], none, 0, none, []⟩

example :
    let host : Host := ⟨[⟨⟨7, 1⟩, true, false⟩], by decide, by decide⟩
    (runStop 1 1 1 (World.start host .stopped) (List.replicate 6 calmTurn)).1 = some (.ok ()) :=
  rfl

/-- The sleep after a Stop is armed after the look that it comes from. -/
theorem not_armed_before_look :
    let host : Host := ⟨[], nofun, nofun⟩
    let ended := runStop 1 1 1 (World.start host .running) (List.replicate 4 calmTurn)
    ended.2.1.log = [.wait false, .stop true, .arm (leaving .running), .read .running] ∧
      lookSinceArm [.stop true, .arm (leaving .running), .read .running] = none :=
  ⟨rfl, rfl⟩

end Hole.Service
