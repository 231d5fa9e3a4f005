import Hole.Service.ChangeMark
import Hole.Service.Retire

/-!
# What a status read shows of the service

`display` of `bridge/src/service_scm/repair.rs` reads the change mark, the start type, the record
and the mark again, without the start-type lock, and goes again until the two marks are equal. It
runs here against holders of the lock that begin a change, rewrite the start type and the record and
end the change, crash in between, and delete and recreate the service's key (`SiteEvent`).

What is shown is what one look at a single instant between the two marks would have shown, and equal
marks have no change begin or end between them (`display_of_run`). The reader has the service open,
so the key of a service that is deleted stays until it is done: with the key, the marks count every
begin and end, and the count of a pass does not go all the way round.
-/

namespace Hole.Service

open Effect
open Function (update update_of_ne)

/-! ### The read -/

/-- `Changer`. -/
inductive Changer
  | running
  | notRunning
  deriving DecidableEq

/-- `ChangeMark`: the value exactly as read, and whether the process that it names runs. -/
structure ChangeMark where
  raw : Option (List Char)
  holder : Option Changer
  deriving DecidableEq

/-- `DisabledState`. -/
inductive DisabledState
  | notDisabled
  | by (who : DisabledBy)
  | inChange

/-- `DisabledState::of`. -/
def DisabledState.of (holder changer : Option Changer) (disabledBy : Option DisabledBy) :
    DisabledState :=
  if holder = some .running ∨ changer = some .running then .inChange
  else
    match disabledBy with
    | some who => .by who
    | none => .notDisabled

/-- The reads of a status call. -/
inductive ReadOp
  | mark
  | startType
  | changer

/-- The answers; a start type that could not be read is `none`. -/
@[reducible] def ReadOp.Ans : ReadOp → Type
  | mark => ChangeMark
  | startType => Option StartType
  | changer => Option Changer

/-- What a pass shows of what it read. -/
def shown (mark : ChangeMark) (start : Option StartType) (changer : Option Changer) :
    DisabledState :=
  let record : RecordState :=
    match changer with
    | some _ => .present
    | none => .absent
  DisabledState.of mark.holder changer (start.bind fun start ↦
  (RepairStep.of record start).disabledBy)

/-- `display`, for so many passes. -/
def display : Nat → Prog ReadOp ReadOp.Ans (Option DisabledState)
  | 0 => pure none
  | passes + 1 => do
    let before : ChangeMark ← Prog.perform ReadOp.mark
    let start : Option StartType ← Prog.perform ReadOp.startType
    let changer : Option Changer ← Prog.perform ReadOp.changer
    let after : ChangeMark ← Prog.perform ReadOp.mark
    if after ≠ before then display passes else pure (some (shown before start changer))

/-! ### The service and the holders of the lock -/

/-- The service's key, as its readers see it: a value that is not a string is no mark, and a record
that names no writer. -/
structure Key where
  start : StartType
  record : Option (List Char)
  mark : Option (List Char)

/-- A hold of the start-type lock. -/
structure LockHold where
  holder : Stamp
  /-- The holder has marked its change in the key that there is: it did not make the key, or it
  has marked the change again since. -/
  marked : Bool

/-- The service's key, the lock, and the processes. -/
structure Site where
  /-- The reader has the service open (`StatusSession::service`). -/
  opened : Bool
  key : Option Key
  lock : Option LockHold
  /-- A stamp names one process for ever, so a process that has exited stays so. -/
  exited : Stamp → Bool
  /-- `ENDED` of each process. -/
  ended : Stamp → UInt64

/-- What can happen between two reads. -/
inductive SiteEvent
  /-- A process takes the lock and begins a change; the mark may not be written. -/
  | take (p : Stamp) (failed : Bool)
  | setStart (start : StartWrite)
  | writeRecord
  | clearRecord
  /-- The key of a deregistered service goes, when the last handle to it is closed. -/
  | deleteKey
  | createKey (start : StartType)
  /-- `Held::mark_again`. -/
  | markAgain (failed : Bool)
  | release (failed : Bool)
  /-- A process exits; a lock that it holds is abandoned, with the mark left as it is. -/
  | exits (p : Stamp)

namespace Site

variable (s : Site)

/-- The change mark. -/
def mark : Option (List Char) := s.key.bind Key.mark

/-- The count of the next transition. -/
def nextCount : UInt64 := (s.mark.map counted).getD 0 + 1

/-- `ChangeKey::write`: with no key there is nothing to write. -/
def writeMark (failed : Bool) (value : UInt64 → List Char) : Site :=
  if failed then s
  else { s with key := s.key.map ({ · with mark := some (value s.nextCount) }) }

/-- A holder that has marked its change rewrites the key. -/
def rewrite (f : Stamp → Key → Key) : Site :=
  match s.lock with
  | some ⟨p, true⟩ => { s with key := s.key.map (f p) }
  | _ => s

/-- What an event does; one that cannot happen does nothing. -/
def happen : SiteEvent → Site
  | .take p failed =>
    if s.lock.isNone && !s.exited p then
      { s.writeMark failed (begun · p) with lock := some ⟨p, true⟩ }
    else s
  | .setStart start => s.rewrite fun _ k ↦ { k with start := start.startType }
  | .writeRecord => s.rewrite fun p k ↦ { k with record := some p.encode }
  | .clearRecord => s.rewrite fun _ k ↦ { k with record := none }
  | .deleteKey => if s.opened then s else { s with key := none }
  | .createKey start =>
    match s.lock, s.key with
    | some ⟨p, _⟩, none => { s with key := some ⟨start, none, none⟩, lock := some ⟨p, false⟩ }
    | _, _ => s
  | .markAgain failed =>
    match s.lock with
    | some ⟨p, _⟩ => { s.writeMark failed (begun · p) with lock := some ⟨p, true⟩ }
    | none => s
  | .release failed =>
    match s.lock with
    | some ⟨p, _⟩ =>
      { s.writeMark failed (atRest · p (s.ended p)) with
        lock := none
        ended := update s.ended p (s.ended p + 1) }
    | none => s
  | .exits p =>
    { s with
      lock := s.lock.filter (·.holder ≠ p)
      exited := update s.exited p true }

/-- What so many events do. -/
def happens (es : List SiteEvent) : Site := es.foldl happen s

/-- The sites that so many events pass through, the first and the last included. -/
def states : Site → List SiteEvent → List Site
  | s, [] => [s]
  | s, e :: es => s :: (s.happen e).states es

/-- The events among so many that meet `P` of the site they find. -/
def count (P : Site → SiteEvent → Bool) : Site → List SiteEvent → Nat
  | _, [] => 0
  | s, e :: es => (P s e).toNat + (s.happen e).count P es

/-- The event begins or ends a change. -/
def changesBy : SiteEvent → Bool
  | .take p _ => s.lock.isNone && !s.exited p
  | .release _ => s.lock.isSome
  | _ => false

/-- The event is one that writes the mark. -/
def marksBy : SiteEvent → Bool
  | .markAgain _ => s.lock.isSome
  | e => s.changesBy e

end Site

/-! ### The reads -/

/-- `Stamp::is_running`. -/
def Site.probe (s : Site) (p : Stamp) : Changer := if s.exited p then .notRunning else .running

/-- `ChangeKey::read`. -/
def Site.readMark (s : Site) : ChangeMark := ⟨s.mark, (s.mark.bind holderOf).map s.probe⟩

/-- The start type; a service that is gone has none to read. -/
def Site.readStartType (s : Site) : Option StartType := s.key.map Key.start

/-- `RecordKey::changer`. -/
def Site.readChanger (s : Site) : Option Changer :=
  (s.key.bind Key.record).map fun text ↦ ((Stamp.decode text).map s.probe).getD .notRunning

/-- What a look at this one instant shows. -/
def Site.shows (s : Site) : DisabledState := shown s.readMark s.readStartType s.readChanger

/-- One read of a status call: what happens before it, and how it fails. -/
structure Glance where
  events : List SiteEvent
  failed : Bool
  unprobed : Bool

/-- A pass of the reader, from its first mark on. -/
structure Pass where
  first : Site
  before : ChangeMark
  events : List SiteEvent

/-- The site, and the reader's passes. -/
structure Watch where
  site : Site
  current : Option Pass
  /-- The passes that are over, each with its second mark. -/
  closed : List (Pass × ChangeMark)

/-- What happens before a read. -/
def Watch.at (w : Watch) (c : Glance) : Watch :=
  { w with
    site := w.site.happens c.events
    current := w.current.map fun p ↦ { p with events := p.events ++ c.events } }

/-- A probe that may fail: a process that cannot be probed counts as gone. -/
def Glance.changer (c : Glance) (found : Changer) : Changer :=
  if c.unprobed then .notRunning else found

/-- The answer to a read. A mark that cannot be read counts as none, a record as one that names no
writer. -/
def Site.answer (s : Site) (c : Glance) : (o : ReadOp) → o.Ans
  | .mark => if c.failed then ⟨none, none⟩ else ⟨s.mark, s.readMark.holder.map c.changer⟩
  | .startType => if c.failed then none else s.readStartType
  | .changer => if c.failed then some .notRunning else s.readChanger.map c.changer

/-- The surroundings of a status read. -/
def reads : Env ReadOp ReadOp.Ans Watch Glance where
  answer w o c := (w.at c).site.answer c o
  next w o c :=
    let w := w.at c
    match o with
    | .mark =>
      let m : ChangeMark := w.site.answer c .mark
      match w.current with
      | none => { w with current := some ⟨w.site, m, []⟩ }
      | some p => { w with current := none, closed := (p, m) :: w.closed }
    | _ => w

/-! ### What an event can do -/

/-- Whether the holder could not write its mark. -/
def SiteEvent.failed : SiteEvent → Bool
  | take _ failed => failed
  | markAgain failed => failed
  | release failed => failed
  | _ => false

/-- What the holders keep while the reader has the service open, where their marks are written. -/
structure Consistent (s : Site) : Prop where
  opened : s.opened = true
  keyed : ∃ k, s.key = some k
  holder_runs : ∀ l, s.lock = some l → s.exited l.holder = false
  /-- A key that is being rewritten carries the holder's mark. -/
  marked : ∀ p k, s.lock = some ⟨p, true⟩ → s.key = some k → ∃ n, k.mark = some (begun n p)

/-- What an event does, the marks of the holders being written. -/
inductive Happened (s : Site) (e : SiteEvent) : Site → Prop
  | idle (hidle : s.marksBy e = false) : Happened s e s
  | rewritten {p : Stamp} {k k' : Key} (hlock : s.lock = some ⟨p, true⟩) (hkey : s.key = some k)
      (hmark : k'.mark = k.mark) (hidle : s.marksBy e = false) :
      Happened s e { s with key := some k' }
  | begun {p : Stamp} (hruns : s.exited p = false) (hmarks : s.marksBy e = true) : Happened s e
        { s with
          key := s.key.map ({ · with mark := some (begun s.nextCount p) })
          lock := some ⟨p, true⟩ }
  | ended {p : Stamp} (hruns : s.exited p = false) (hmarks : s.marksBy e = true) : Happened s e
        { s with
          key := s.key.map ({ · with mark := some (atRest s.nextCount p (s.ended p)) })
          lock := none
          ended := update s.ended p (s.ended p + 1) }
  | exited {p : Stamp} (hidle : s.marksBy e = false) : Happened s e
        { s with
          lock := s.lock.filter (·.holder ≠ p)
          exited := update s.exited p true }

section Events

variable {s : Site} {e : SiteEvent}

theorem happened_rewrite {f : Stamp → Key → Key} (hf : ∀ p k, (f p k).mark = k.mark)
    (hidle : s.marksBy e = false) : Happened s e (s.rewrite f) := by
  unfold Site.rewrite
  split
  · rename_i p hlock
    cases hkey : s.key with
    | none =>
      have hsame : ({ s with key := none } : Site) = s := by rw [← hkey]
      rw [Option.map_none, hsame]
      exact .idle hidle
    | some k => exact .rewritten hlock hkey (hf p k) hidle
  · exact .idle hidle

/-- What an event can do. -/
theorem Consistent.happened (h : Consistent s) (he : e.failed = false) :
    Happened s e (s.happen e) := by
  cases e with
  | take p failed =>
    obtain rfl : failed = false := he
    show Happened s _ (if s.lock.isNone && !s.exited p then _ else s)
    split
    · rename_i htaken
      have hruns : s.exited p = false := by
        simpa using (Bool.and_eq_true_iff.1 htaken).2
      exact .begun hruns htaken
    · rename_i hidle
      exact .idle (Bool.not_eq_true _ ▸ hidle)
  | setStart start => exact happened_rewrite (fun _ _ ↦ rfl) rfl
  | writeRecord => exact happened_rewrite (fun _ _ ↦ rfl) rfl
  | clearRecord => exact happened_rewrite (fun _ _ ↦ rfl) rfl
  | deleteKey =>
    -- The reader has the service open: the key is gone only when it is done.
    rw [Site.happen, if_pos h.opened]
    exact .idle rfl
  | createKey start =>
    obtain ⟨k, hkey⟩ := h.keyed
    cases hlock : s.lock with
    | none => simpa only [Site.happen, hlock] using .idle rfl
    | some l => simpa only [Site.happen, hlock, hkey] using .idle rfl
  | markAgain failed =>
    obtain rfl : failed = false := he
    cases hlock : s.lock with
    | none => simpa only [Site.happen, hlock] using .idle (by simp [Site.marksBy, hlock])
    | some l =>
      simpa only [Site.happen, hlock] using
        .begun (h.holder_runs l hlock) (by simp [Site.marksBy, hlock])
  | release failed =>
    obtain rfl : failed = false := he
    cases hlock : s.lock with
    | none =>
      simpa only [Site.happen, hlock] using .idle (by simp [Site.marksBy, Site.changesBy, hlock])
    | some l =>
      simpa only [Site.happen, hlock] using
        .ended (h.holder_runs l hlock) (by simp [Site.marksBy, Site.changesBy, hlock])
  | exits p => exact .exited rfl

theorem Consistent.happen (h : Consistent s) (he : e.failed = false) : Consistent (s.happen e) := by
  have hhappened := h.happened he
  generalize s.happen e = s' at hhappened ⊢
  cases hhappened with
  | idle => exact h
  | @rewritten p k k' hlock hkey hmark =>
    refine ⟨h.opened, ⟨k', rfl⟩, h.holder_runs, fun p _ hp hk ↦ ?_⟩
    cases hk
    exact hmark ▸ h.marked p k hp hkey
  | @begun p hruns =>
    obtain ⟨k₀, hkey⟩ := h.keyed
    refine ⟨h.opened, ⟨_, congrArg (Option.map _) hkey⟩, fun l hl ↦ ?_, fun q k hq hk ↦ ?_⟩
    · cases hl
      exact hruns
    · obtain ⟨k₀, -, rfl⟩ := Option.map_eq_some_iff.1 hk
      obtain rfl : p = q := congrArg LockHold.holder (Option.some.inj hq)
      exact ⟨_, rfl⟩
  | ended =>
    obtain ⟨k₀, hkey⟩ := h.keyed
    exact ⟨h.opened, ⟨_, congrArg (Option.map _) hkey⟩, nofun, nofun⟩
  | @exited p =>
    refine ⟨h.opened, h.keyed, fun l hl ↦ ?_, fun q k hq hk ↦ ?_⟩
    · obtain ⟨hlock, hne⟩ := Option.filter_eq_some_iff.1 hl
      have hother : update s.exited p true l.holder = s.exited l.holder :=
        update_of_ne (by simpa using hne) ..
      exact hother.trans (h.holder_runs l hlock)
    · exact h.marked q k (Option.filter_eq_some_iff.1 hq).1 hk

theorem Consistent.happens (h : Consistent s) {es : List SiteEvent}
    (hes : ∀ e ∈ es, e.failed = false) : Consistent (s.happens es) := by
  induction es generalizing s with
  | nil => exact h
  | cons e es ih =>
    obtain ⟨he, hes⟩ := List.forall_mem_cons.1 hes
    exact ih (h.happen he) hes

/-- A process that has exited does not come back. -/
theorem exited_happen (h : Consistent s) (he : e.failed = false) {p : Stamp}
    (hp : s.exited p = true) : (s.happen e).exited p = true := by
  have hhappened := h.happened he
  generalize s.happen e = s' at hhappened ⊢
  cases hhappened with
  | @exited q =>
    show update s.exited q true p = true
    by_cases hpq : p = q
    · rw [hpq, Function.update_self]
    · rwa [update_of_ne hpq]
  | _ => exact hp

theorem marksBy_of_changesBy (h : s.changesBy e = true) : s.marksBy e = true := by
  cases e with
  | markAgain => cases h
  | _ => exact h

end Events

/-! ### Equal marks -/

/-- Fewer than `2 ^ 64` steps of a counter do not come back to where it was. -/
theorem eq_zero_of_eq_add {a : UInt64} {n : Nat} (hn : n < 2 ^ 64) (h : a = a + UInt64.ofNat n) :
    n = 0 := by
  have hnat := congrArg UInt64.toNat h
  have ha := a.toNat_lt
  rw [UInt64.toNat_add, UInt64.toNat_ofNat', Nat.mod_eq_of_lt hn] at hnat
  omega

section Marks

variable {s : Site} {e : SiteEvent} {es : List SiteEvent} {T : List Char}

theorem count_changesBy_le : s.count Site.changesBy es ≤ s.count Site.marksBy es := by
  induction es generalizing s with
  | nil => exact Nat.le_refl 0
  | cons e es ih =>
    have hstep : (s.changesBy e).toNat ≤ (s.marksBy e).toNat := by
      cases hchanges : s.changesBy e with
      | false => exact Nat.zero_le _
      | true => rw [marksBy_of_changesBy hchanges]
    exact Nat.add_le_add hstep ih

theorem counted_happen (h : Consistent s) (he : e.failed = false) (hmark : s.mark = some T) :
    ∃ T', (s.happen e).mark = some T' ∧
      counted T' = counted T + UInt64.ofNat (s.marksBy e).toNat := by
  have hsame (hidle : s.marksBy e = false) :
      counted T = counted T + UInt64.ofNat (s.marksBy e).toNat := by
    rw [hidle]
    exact (UInt64.add_zero _).symm
  have hnext : s.nextCount = counted T + 1 := by rw [Site.nextCount, hmark]; rfl
  obtain ⟨k, hkey, hk⟩ := Option.bind_eq_some_iff.1 hmark
  have hhappened := h.happened he
  generalize s.happen e = s' at hhappened ⊢
  cases hhappened with
  | idle hidle => exact ⟨T, hmark, hsame hidle⟩
  | @rewritten p k₀ k' hlock hkey' hkeeps hidle =>
    obtain rfl : k = k₀ := Option.mem_unique hkey hkey'
    exact ⟨T, hkeeps.trans hk, hsame hidle⟩
  | @begun p hruns hmarks =>
    refine ⟨begun s.nextCount p, by simp [Site.mark, hkey], ?_⟩
    rw [counted_begun, hnext, hmarks]
    rfl
  | @ended p hruns hmarks =>
    refine ⟨atRest s.nextCount p (s.ended p), by simp [Site.mark, hkey], ?_⟩
    rw [counted_atRest, hnext, hmarks]
    rfl
  | exited hidle => exact ⟨T, hmark, hsame hidle⟩

/-- The mark counts the transitions. -/
theorem counted_happens (h : Consistent s) (hes : ∀ e ∈ es, e.failed = false)
    (hmark : s.mark = some T) :
    ∃ T', (s.happens es).mark = some T' ∧
      counted T' = counted T + UInt64.ofNat (s.count Site.marksBy es) := by
  induction es generalizing s T with
  | nil => exact ⟨T, hmark, (UInt64.add_zero _).symm⟩
  | cons e es ih =>
    obtain ⟨he, hes⟩ := List.forall_mem_cons.1 hes
    obtain ⟨T₁, hmark₁, hcount₁⟩ := counted_happen h he hmark
    obtain ⟨T₂, hmark₂, hcount₂⟩ := ih (h.happen he) hes hmark₁
    refine ⟨T₂, hmark₂, ?_⟩
    rw [hcount₂, hcount₁, UInt64.add_assoc, ← UInt64.ofNat_add]
    rfl

/-- An event that writes the mark leaves one. -/
theorem marked_happen (h : Consistent s) (he : e.failed = false) (hmarks : s.marksBy e = true) :
    ∃ T, (s.happen e).mark = some T := by
  obtain ⟨k, hkey⟩ := h.keyed
  have hhappened := h.happened he
  generalize s.happen e = s' at hhappened ⊢
  cases hhappened with
  | begun => exact ⟨_, by simp only [Site.mark, hkey]; rfl⟩
  | ended => exact ⟨_, by simp only [Site.mark, hkey]; rfl⟩
  | idle hidle => cases hmarks.symm.trans hidle
  | rewritten _ _ _ hidle => cases hmarks.symm.trans hidle
  | exited hidle => cases hmarks.symm.trans hidle

/-- No mark is written before one is missing. -/
theorem count_marksBy_of_unmarked (h : Consistent s) (hes : ∀ e ∈ es, e.failed = false)
    (hmark : (s.happens es).mark = none) : s.count Site.marksBy es = 0 := by
  induction es generalizing s with
  | nil => rfl
  | cons e es ih =>
    obtain ⟨he, hes⟩ := List.forall_mem_cons.1 hes
    have hidle : s.marksBy e = false := by
      by_contra hmarks
      obtain ⟨T, hT⟩ := marked_happen h he (Bool.not_eq_false _ ▸ hmarks)
      obtain ⟨T', hT', -⟩ := counted_happens (h.happen he) hes hT
      cases hT'.symm.trans hmark
    show (s.marksBy e).toNat + _ = 0
    rw [hidle, ih (h.happen he) hes hmark]
    rfl

/-- **Between two equal marks none was written.** -/
theorem count_marksBy_of_equal (h : Consistent s) (hes : ∀ e ∈ es, e.failed = false)
    (hbounded : s.count Site.marksBy es < 2 ^ 64) (hmark : (s.happens es).mark = s.mark) :
    s.count Site.marksBy es = 0 := by
  cases hT : s.mark with
  | none => exact count_marksBy_of_unmarked h hes (hmark.trans hT)
  | some T =>
    obtain ⟨T', hT', hcount⟩ := counted_happens h hes hT
    obtain rfl : T' = T := Option.some.inj (hT'.symm.trans (hmark.trans hT))
    exact eq_zero_of_eq_add hbounded hcount

/-- A key that no holder has marked stays as it is until one marks it. -/
theorem key_happens (h : Consistent s) (hes : ∀ e ∈ es, e.failed = false)
    (hidle : s.count Site.marksBy es = 0) (hlock : ∀ p, s.lock ≠ some ⟨p, true⟩) :
    (s.happens es).key = s.key := by
  induction es generalizing s with
  | nil => rfl
  | cons e es ih =>
    obtain ⟨he, hes⟩ := List.forall_mem_cons.1 hes
    obtain ⟨hnow, hlater⟩ := Nat.add_eq_zero_iff.1 hidle
    have hnone : s.marksBy e = false := Bool.toNat_eq_zero.1 hnow
    have hstep : (s.happen e).key = s.key ∧ ∀ p, (s.happen e).lock ≠ some ⟨p, true⟩ := by
      have hhappened := h.happened he
      generalize s.happen e = s' at hhappened ⊢
      cases hhappened with
      | idle => exact ⟨rfl, hlock⟩
      | rewritten hlock' => exact absurd hlock' (hlock _)
      | begun _ hmarks => cases hmarks.symm.trans hnone
      | ended _ hmarks => cases hmarks.symm.trans hnone
      | exited => exact ⟨rfl, fun p hp ↦ hlock p (Option.filter_eq_some_iff.1 hp).1⟩
    exact (ih (h.happen he) hes hlater hstep.2).trans hstep.1

end Marks

/-! ### Passes -/

section Passes

variable {s : Site} {es xs ys zs : List SiteEvent} {m m' : ChangeMark}
  {start : Option StartType} {changer : Option Changer}

/-- A holder that has marked its change is the one that the mark names, and runs. -/
theorem holder_of_lock (h : Consistent s) {p : Stamp} (hlock : s.lock = some ⟨p, true⟩) :
    s.readMark.holder = some .running := by
  obtain ⟨k, hkey⟩ := h.keyed
  obtain ⟨n, hn⟩ := h.marked p k hlock hkey
  have hruns : s.exited p = false := h.holder_runs _ hlock
  simp [Site.readMark, Site.mark, hkey, hn, holderOf_begun, Site.probe, hruns]

theorem shown_of_running (h : m.holder = some .running) : shown m start changer = .inChange := by
  simp [shown, DisabledState.of, h]

theorem shown_congr (h : m.holder ≠ some .running) (h' : m'.holder ≠ some .running) :
    shown m start changer = shown m' start changer := by
  simp [shown, DisabledState.of, h, h']

theorem happens_append : s.happens (xs ++ ys) = (s.happens xs).happens ys := List.foldl_append

theorem happens_mem_states : s.happens xs ∈ s.states (xs ++ ys) := by
  induction xs generalizing s with
  | nil =>
    cases ys with
    | nil => exact List.mem_singleton_self s
    | cons e ys => exact .head _
  | cons e xs ih => exact .tail _ ih

theorem exited_happens (h : Consistent s) (hes : ∀ e ∈ es, e.failed = false) {p : Stamp}
    (hp : s.exited p = true) : (s.happens es).exited p = true := by
  induction es generalizing s with
  | nil => exact hp
  | cons e es ih =>
    obtain ⟨he, hes⟩ := List.forall_mem_cons.1 hes
    exact ih (h.happen he) hes (exited_happen h he hp)

/-- A mark that names no holder that runs does not come to name one while it stays. -/
theorem not_running_of_kept (h : Consistent s) (hes : ∀ e ∈ es, e.failed = false)
    (hkey : (s.happens es).key = s.key) (hruns : s.readMark.holder ≠ some .running) :
    (s.happens es).readMark.holder ≠ some .running := by
  have hmark : (s.happens es).mark = s.mark := congrArg (Option.bind · Key.mark) hkey
  intro hholder
  obtain ⟨p, hp, hprobe⟩ := Option.map_eq_some_iff.1 hholder
  refine hruns (Option.map_eq_some_iff.2 ⟨p, hmark ▸ hp, ?_⟩)
  cases hexited : s.exited p with
  | false => simp [Site.probe, hexited]
  | true => simp [Site.probe, exited_happens h hes hexited] at hprobe

theorem count_append {P : Site → SiteEvent → Bool} :
    s.count P (xs ++ ys) = s.count P xs + (s.happens xs).count P ys := by
  induction xs generalizing s with
  | nil => exact (Nat.zero_add _).symm
  | cons e xs ih =>
    show (P s e).toNat + (s.happen e).count P (xs ++ ys) = _ + _ + _
    rw [ih, Nat.add_assoc]
    rfl

/-- **A pass shows one instant.** What is shown of the start type and the record, read one after the
other between two equal marks, is what the site shows at a single instant between them. -/
theorem shown_mem_states (h : Consistent s) (hes : ∀ e ∈ xs ++ ys ++ zs, e.failed = false)
    (hidle : s.count Site.marksBy (xs ++ ys ++ zs) = 0) :
    ∃ s' ∈ s.states (xs ++ ys ++ zs),
      shown s.readMark (s.happens xs).readStartType (s.happens (xs ++ ys)).readChanger =
        s'.shows := by
  by_cases hruns : s.readMark.holder = some .running
  · have hmem : s.happens [] ∈ s.states ([] ++ (xs ++ ys ++ zs)) := happens_mem_states
    refine ⟨s, hmem, ?_⟩
    rw [Site.shows, shown_of_running hruns, shown_of_running hruns]
  · have hlock : ∀ p, s.lock ≠ some ⟨p, true⟩ := fun p hp ↦ hruns (holder_of_lock h hp)
    rw [count_append, Nat.add_eq_zero_iff] at hidle
    have hidle' := hidle.1
    rw [count_append, Nat.add_eq_zero_iff] at hidle'
    have hxs := key_happens h (fun e he ↦ hes e (by simp [he])) hidle'.1 hlock
    have hwritten : ∀ e ∈ xs ++ ys, e.failed = false := fun e he ↦
      hes e (List.mem_append_left _ he)
    have hys := key_happens h hwritten hidle.1 hlock
    refine ⟨s.happens (xs ++ ys), happens_mem_states, ?_⟩
    rw [shown_congr hruns (not_running_of_kept h hwritten hys hruns), Site.shows,
      Site.readStartType, Site.readStartType, hxs, hys]

end Passes

/-! ### Runs -/

/-- Nothing fails at the read, nor did a mark before it. -/
structure Glance.Succeeds (c : Glance) : Prop where
  read : c.failed = false
  probed : c.unprobed = false
  written : ∀ e ∈ c.events, e.failed = false

/-- What is known of a pass. -/
structure Pass.Known (p : Pass) : Prop where
  consistent : Consistent p.first
  before : p.before = p.first.readMark
  written : ∀ e ∈ p.events, e.failed = false

/-- What is known of the reader's passes. -/
structure Watched (w : Watch) : Prop where
  consistent : Consistent w.site
  current : ∀ p, w.current = some p → p.Known ∧ w.site = p.first.happens p.events
  closed : ∀ x ∈ w.closed, x.1.Known ∧ x.2 = (x.1.first.happens x.1.events).readMark

/-- What is shown was read in one pass, with equal marks. -/
def ShownInPass (w : Watch) (d : DisabledState) : Prop :=
  ∃ x ∈ w.closed, x.2 = x.1.before ∧ ∃ xs ys zs, x.1.events = xs ++ ys ++ zs ∧
    d = shown x.1.first.readMark (x.1.first.happens xs).readStartType
      (x.1.first.happens (xs ++ ys)).readChanger

section Runs

variable {s : Site} {w : Watch} {c : Glance} {p : Pass}

theorem Glance.Succeeds.changer_eq (hc : c.Succeeds) (found : Option Changer) :
    found.map c.changer = found := by
  have hid : c.changer = id := by
    funext found
    simp [Glance.changer, hc.probed]
  rw [hid, Option.map_id_fun, id]

theorem Glance.Succeeds.answer_mark (hc : c.Succeeds) : s.answer c .mark = s.readMark := by
  simp [Site.answer, hc.read, hc.changer_eq, Site.readMark]

theorem Glance.Succeeds.answer_startType (hc : c.Succeeds) :
    s.answer c .startType = s.readStartType := by
  simp [Site.answer, hc.read]

theorem Glance.Succeeds.answer_changer (hc : c.Succeeds) : s.answer c .changer = s.readChanger := by
  simp [Site.answer, hc.read, hc.changer_eq]

theorem Watched.at (h : Watched w) (hc : c.Succeeds) : Watched (w.at c) := by
  refine ⟨h.consistent.happens hc.written, fun p' hp' ↦ ?_, h.closed⟩
  obtain ⟨p, hp, rfl⟩ := Option.map_eq_some_iff.1 hp'
  obtain ⟨hknown, hsite⟩ := h.current p hp
  refine ⟨⟨hknown.consistent, hknown.before, fun e he ↦ ?_⟩, ?_⟩
  · exact (List.mem_append.1 he).elim (hknown.written e) (hc.written e)
  · show w.site.happens c.events = _
    rw [hsite, ← happens_append]

/-- The first mark of a pass. -/
theorem Watched.opens (h : Watched w) (hnone : w.current = none) (hc : c.Succeeds) :
    Watched (reads.next w .mark c) ∧ (reads.next w .mark c).current =
        some ⟨(w.at c).site, (w.at c).site.readMark, []⟩ := by
  have hat : (w.at c).current = none := by simp [Watch.at, hnone]
  have hnext : reads.next w .mark c =
      { w.at c with current := some ⟨(w.at c).site, (w.at c).site.readMark, []⟩ } := by
    simp only [reads, hat, hc.answer_mark]
  rw [hnext]
  refine ⟨⟨(h.at hc).consistent, fun p hp ↦ ?_, h.closed⟩, rfl⟩
  cases hp
  exact ⟨⟨(h.at hc).consistent, rfl, List.forall_mem_nil _⟩, rfl⟩

/-- The second mark of a pass. -/
theorem Watched.closes (h : Watched w) (hp : w.current = some p) (hc : c.Succeeds) :
    Watched (reads.next w .mark c) ∧ (reads.next w .mark c).current = none ∧
      ({ p with events := p.events ++ c.events }, (w.at c).site.readMark) ∈
        (reads.next w .mark c).closed := by
  have hat : (w.at c).current = some { p with events := p.events ++ c.events } := by
    simp [Watch.at, hp]
  obtain ⟨hknown, hsite⟩ := (h.at hc).current _ hat
  have hnext : reads.next w .mark c =
      { w.at c with
        current := none
        closed := ({ p with events := p.events ++ c.events }, (w.at c).site.readMark) ::
          w.closed } := by
    simp only [reads, hat, hc.answer_mark]
    rfl
  rw [hnext]
  refine ⟨⟨(h.at hc).consistent, fun _ hp ↦ (Option.some_ne_none _ hp.symm).elim,
    List.forall_mem_cons.2 ⟨⟨hknown, congrArg Site.readMark hsite⟩, h.closed⟩⟩, rfl,
    (.head _)⟩

/-- The status read's program logic. -/
def Shows {α : Type} (Q : α → Watch → Prop) (p : Prog ReadOp ReadOp.Ans α) (w : Watch) : Prop :=
  p.Safe (reads.restrict Glance.Succeeds) Watched Q w

variable {α : Type} {Q : α → Watch → Prop}

theorem shows_mark {k : ChangeMark → Prog ReadOp ReadOp.Ans α} (h : Watched w)
    (hk : ∀ c : Glance, c.Succeeds → Shows Q (k (w.at c).site.readMark) (reads.next w .mark c)) :
    Shows Q (.call ReadOp.mark k) w := by
  refine ⟨h, fun ⟨c, hc⟩ ↦ ?_⟩
  show Shows Q (k ((w.at c).site.answer c .mark)) _
  rw [hc.answer_mark]
  exact hk c hc

theorem shows_startType {k : Option StartType → Prog ReadOp ReadOp.Ans α} (h : Watched w)
    (hk : ∀ c : Glance, c.Succeeds → Shows Q (k (w.at c).site.readStartType) (w.at c)) :
    Shows Q (.call ReadOp.startType k) w := by
  refine ⟨h, fun ⟨c, hc⟩ ↦ ?_⟩
  show Shows Q (k ((w.at c).site.answer c .startType)) _
  rw [hc.answer_startType]
  exact hk c hc

theorem shows_changer {k : Option Changer → Prog ReadOp ReadOp.Ans α} (h : Watched w)
    (hk : ∀ c : Glance, c.Succeeds → Shows Q (k (w.at c).site.readChanger) (w.at c)) :
    Shows Q (.call ReadOp.changer k) w := by
  refine ⟨h, fun ⟨c, hc⟩ ↦ ?_⟩
  show Shows Q (k ((w.at c).site.answer c .changer)) _
  rw [hc.answer_changer]
  exact hk c hc

theorem shows_display (h : Watched w) (hnone : w.current = none) (passes : Nat) :
    Shows (fun r w' ↦ ∀ d, r = some d → ShownInPass w' d) (display passes) w := by
  induction passes generalizing w with
  | zero => exact ⟨h, nofun⟩
  | succ passes ih =>
    refine shows_mark h fun c₁ hc₁ ↦ ?_
    obtain ⟨h₁, hopen⟩ := h.opens hnone hc₁
    generalize reads.next w .mark c₁ = w₁ at h₁ hopen
    generalize (w.at c₁).site = s at hopen
    refine shows_startType h₁ fun c₂ hc₂ ↦ ?_
    have h₂ := h₁.at hc₂
    have hcurrent₂ : (w₁.at c₂).current = some ⟨s, s.readMark, c₂.events⟩ := by
      simp [Watch.at, hopen]
    have hsite₂ : (w₁.at c₂).site = s.happens c₂.events := (h₂.current _ hcurrent₂).2
    generalize w₁.at c₂ = w₂ at h₂ hcurrent₂ hsite₂
    refine shows_changer h₂ fun c₃ hc₃ ↦ ?_
    have h₃ := h₂.at hc₃
    have hcurrent₃ : (w₂.at c₃).current = some ⟨s, s.readMark, c₂.events ++ c₃.events⟩ := by
      simp [Watch.at, hcurrent₂]
    have hsite₃ : (w₂.at c₃).site = s.happens (c₂.events ++ c₃.events) := (h₃.current _ hcurrent₃).2
    generalize w₂.at c₃ = w₃ at h₃ hcurrent₃ hsite₃
    refine shows_mark h₃ fun c₄ hc₄ ↦ ?_
    obtain ⟨h₄, hnone₄, hclosed⟩ := h₃.closes hcurrent₃ hc₄
    show Shows _ (if (w₃.at c₄).site.readMark ≠ s.readMark then display passes else _) _
    split
    · exact ih h₄ hnone₄
    · -- Both reads lie between equal marks.
      rename_i hequal
      refine ⟨h₄, fun d hd ↦
        ⟨_, hclosed, not_not.1 hequal, c₂.events, c₃.events, c₄.events, rfl, ?_⟩⟩
      rw [← Option.some.inj hd, hsite₂, hsite₃]

end Runs

/-- A run of a status read, of at most so many passes. -/
def runDisplay (passes : Nat) (s : Site) (cs : List Glance) :
    Option (Option DisabledState) × Watch × List Glance :=
  Prog.run reads (display passes) ⟨s, none, []⟩ cs

/-- **The displayed state is not torn.** Whatever the holders of the lock do between the reads,
where no read and no write of a mark fails and fewer than `2 ^ 64` marks are written in a pass: what
is shown is what the site showed at one instant between two equal marks of a pass, and between two
equal marks no change began or ended. A mark names its holder while a change runs, and none at
rest. -/
theorem display_of_run (s : Site) (h : Consistent s) (passes : Nat) (cs : List Glance)
    (hcs : ∀ c ∈ cs, c.Succeeds) :
    let ended := runDisplay passes s cs
    (∀ x ∈ ended.2.1.closed, x.1.first.count Site.marksBy x.1.events < 2 ^ 64) →
      (∀ d, ended.1 = some (some d) → ∃ x ∈ ended.2.1.closed, x.2 = x.1.before ∧
        ∃ s' ∈ x.1.first.states x.1.events, d = s'.shows) ∧
      (∀ x ∈ ended.2.1.closed, x.2 = x.1.before →
        x.1.first.count Site.changesBy x.1.events = 0) ∧
      ∀ n p, holderOf (begun n p) = some p ∧ ∀ seq, holderOf (atRest n p seq) = none := by
  intro ended hbounded
  have hwatched : Watched ⟨s, none, []⟩ :=
    ⟨h, fun _ hp ↦ (Option.some_ne_none _ hp.symm).elim, List.forall_mem_nil _⟩
  have hsound : Watched ended.2.1 ∧
      ∀ r, ended.1 = some r → ∀ d, r = some d → ShownInPass ended.2.1 d :=
    (shows_display hwatched rfl passes).sound_restrict hcs
  obtain ⟨hend, hpost⟩ := hsound
  have hidle : ∀ x ∈ ended.2.1.closed, x.2 = x.1.before →
      x.1.first.count Site.marksBy x.1.events = 0 := by
    intro x hx hequal
    obtain ⟨hknown, hafter⟩ := hend.closed x hx
    have hmark : (x.1.first.happens x.1.events).mark = x.1.first.mark :=
      congrArg ChangeMark.raw (hafter.symm.trans (hequal.trans hknown.before))
    exact count_marksBy_of_equal hknown.consistent hknown.written (hbounded x hx) hmark
  refine ⟨fun d hd ↦ ?_, fun x hx hequal ↦ ?_, fun n p ↦ ⟨holderOf_begun n p, holderOf_atRest n p⟩⟩
  · obtain ⟨x, hx, hequal, xs, ys, zs, hevents, rfl⟩ := hpost _ hd d rfl
    have hknown := (hend.closed x hx).1
    refine ⟨x, hx, hequal, ?_⟩
    have hi := hidle x hx hequal
    have hw := hknown.written
    rw [hevents] at hi hw ⊢
    exact shown_mem_states hknown.consistent hw hi
  · exact Nat.eq_zero_of_le_zero (hidle x hx hequal ▸ count_changesBy_le)

/-- A read before which so much happens, and which does not fail. -/
def Glance.after (events : List SiteEvent) : Glance := ⟨events, false, false⟩

/-- An installed service that has not been changed yet, opened by a reader. -/
def Site.installed : Site := ⟨true, some ⟨.auto, none, none⟩, none, fun _ ↦ false, fun _ ↦ 0⟩

theorem consistent_installed : Consistent Site.installed where
  opened := rfl
  keyed := ⟨_, rfl⟩
  holder_runs _ h := nomatch h
  marked _ _ h := nomatch h

/-- A status read that a change and a deletion overtake goes again, and shows the change. -/
def overtaken : List Glance :=
  [Glance.after [], .after [.take ⟨7, 1⟩ false], .after [.setStart .disabled, .deleteKey]] ++
    List.replicate 5 (Glance.after [])

theorem display_overtaken :
    let ended := runDisplay 2 .installed overtaken
    ended.1 = some (some .inChange) ∧ ∃ x ∈ ended.2.1.closed, x.2 = x.1.before ∧
        ∃ s' ∈ x.1.first.states x.1.events, .inChange = s'.shows := by
  have hsucceeds : ∀ c ∈ overtaken, c.Succeeds := by
    intro c hc
    refine ⟨?_, ?_, ?_⟩ <;> revert c <;> decide
  have hbounded : ∀ x ∈ (runDisplay 2 .installed overtaken).2.1.closed,
      x.1.first.count Site.marksBy x.1.events < 2 ^ 64 :=
    List.forall_mem_cons.2 ⟨by decide, List.forall_mem_cons.2 ⟨by decide, List.forall_mem_nil _⟩⟩
  exact ⟨rfl,
    (display_of_run .installed consistent_installed 2 overtaken hsucceeds hbounded).1 _ rfl⟩

end Hole.Service
