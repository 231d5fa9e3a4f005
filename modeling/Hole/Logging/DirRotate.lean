import Hole.Effect.History
import Mathlib.Logic.Function.Basic

/-!
# The rotated log file

`crates/common/src/logging/dir_rotate.rs`: a log file that is renamed once it reaches its limit, and
what becomes of the bytes that are written to it if renames, unlinks and opens may each fail at any
time. `log` says what was done, and all that holds of the files is said of it: an active file holds
what was appended since it was last renamed (`activeOf`), and it is longer than the limit only where
the last rotation found no name that could take it, or it was so when it was found (`OverFull`).
-/

namespace Hole.Logging

open Effect
open Function (update update_self update_of_ne)

/-- What was done with the active file. -/
inductive LogEvent
  | opened
  | openFailed
  /-- The name took the file, with all that it held. -/
  | rotated (name : String) (content : List UInt8)
  /-- No name could take the file. -/
  | stayed
  | appended (bytes : List UInt8)
  /-- A line that was said to be taken. -/
  | dropped (bytes : List UInt8)
  deriving DecidableEq

/-- `DirRotate`. The file at the active name is one that `append_own_file` does not replace. -/
structure DirRotate where
  dir : String → Option (List UInt8)
  name : String
  limit : Nat
  isOpen : Bool
  count : Nat
  noticed : Bool
  notices : Nat
  /-- What was done, newest first. -/
  log : List LogEvent

/-- How the calls of one `write` end. -/
structure Outcomes where
  openFirst : Bool
  rename : Bool
  unlink : Bool
  renameFallback : Bool
  reopen : Bool
  /-- How much the file takes, of which at least one byte. -/
  takes : Nat

namespace DirRotate

variable (d : DirRotate)

def rotatedName : String := d.name ++ ".1"

def fallbackName : String := d.rotatedName ++ ".fallback"

/-- What a `DirRotate` is made for. -/
def config : String × Nat := (d.name, d.limit)

/-- What the active file holds. -/
def active : List UInt8 := (d.dir d.name).getD []

/-- `open_active`, by whether `append_own_file` succeeds. -/
def openActive (ok : Bool) : DirRotate :=
  if ok then
    { d with
      dir := update d.dir d.name (some d.active)
      isOpen := true
      count := d.active.length
      log := .opened :: d.log }
  else
    { d with
      isOpen := false
      count := 0
      noticed := true
      notices := if d.noticed then d.notices else d.notices + 1
      log := .openFailed :: d.log }

/-- A rename of the active file over another name. -/
def renameTo (name : String) : DirRotate :=
  { d with
    dir := update (update d.dir name (d.dir d.name)) d.name none
    log := .rotated name d.active :: d.log }

/-- The removal of the fallback. -/
def unlinkFallback (ok : Bool) : DirRotate :=
  if ok then { d with dir := update d.dir d.fallbackName none } else d

/-- The active file goes to the name that can take it. -/
def makeRoom (o : Outcomes) : DirRotate :=
  let closed := { d with isOpen := false }
  if o.rename then (closed.renameTo d.rotatedName).unlinkFallback o.unlink
  else if o.renameFallback then closed.renameTo d.fallbackName
  else { closed with log := .stayed :: closed.log }

/-- `rotate`. -/
def rotate (o : Outcomes) : DirRotate := (d.makeRoom o).openActive o.reopen

/-- The file is opened if it is not. -/
def ensureOpen (o : Outcomes) : DirRotate := if d.isOpen then d else d.openActive o.openFirst

/-- What `write` does before it writes. -/
def prepare (o : Outcomes) : DirRotate :=
  if (d.ensureOpen o).isOpen = true ∧ d.limit ≤ (d.ensureOpen o).count then
    (d.ensureOpen o).rotate o
  else d.ensureOpen o

/-- `self.limit.checked_sub(self.count).filter(|room| *room > 0)`. -/
def room : Option Nat :=
  (if d.count ≤ d.limit then some (d.limit - d.count) else none).filter (0 < ·)

/-- What `file.write` is given. -/
def offered (buf : List UInt8) : List UInt8 := buf.take (d.room.elim buf.length (min buf.length))

/-- The bytes are appended to the active file. -/
def append (bytes : List UInt8) : DirRotate :=
  { d with
    dir := update d.dir d.name (some (d.active ++ bytes))
    count := d.count + bytes.length
    log := .appended bytes :: d.log }

/-- `write`, which returns how much was taken. -/
def write (o : Outcomes) (buf : List UInt8) : DirRotate × Nat :=
  let ready := d.prepare o
  if ready.isOpen then
    let taken := (ready.offered buf).take (max 1 o.takes)
    (ready.append taken, taken.length)
  else ({ ready with log := .dropped buf :: ready.log }, buf.length)

/-- `DirRotate::new`. A limit of zero panics. -/
def new (dir : String → Option (List UInt8)) (name : String) (limit : Nat) (ok : Bool) :
    Option DirRotate :=
  if 0 < limit then
    let this : DirRotate :=
      { dir := dir
        name := name
        limit := limit
        isOpen := false
        count := 0
        noticed := false
        notices := 0
        log := [] }
    some (this.openActive ok)
  else none

/-- `write_all`, with the outcomes of each call of `write`. A `write` that takes nothing is an
error. -/
def writeAll (d : DirRotate) (os : Nat → Outcomes) (buf : List UInt8) : Except Unit DirRotate :=
  if buf = [] then .ok d
  else if (d.write (os 0) buf).2 = 0 then .error ()
  else (d.write (os 0) buf).1.writeAll (fun i ↦ os (i + 1)) (buf.drop (d.write (os 0) buf).2)
termination_by buf.length
decreasing_by
  rename_i hne hpos
  have hbuf := List.length_pos_iff.2 hne
  rw [List.length_drop]
  omega

/-- Calls of `write_all`, one after the other. -/
def run (calls : List (List UInt8 × (Nat → Outcomes))) : Except Unit DirRotate :=
  calls.foldlM (fun d call ↦ d.writeAll call.2 call.1) d

end DirRotate

/-! ### What the log says -/

section Log

/-- What the active file holds, if it held `found` at the start. -/
def activeOf (found : List UInt8) : List LogEvent → List UInt8
  | [] => found
  | .appended bytes :: log => activeOf found log ++ bytes
  | .rotated _ _ :: _ => []
  | .opened :: log | .openFailed :: log | .stayed :: log | .dropped _ :: log => activeOf found log

/-- The bytes that were appended. -/
def keptOf : List LogEvent → List UInt8
  | [] => []
  | .appended bytes :: log => keptOf log ++ bytes
  | .opened :: log | .openFailed :: log | .stayed :: log | .dropped _ :: log |
    .rotated _ _ :: log => keptOf log

/-- The bytes that were said to be taken. -/
def takenOf : List LogEvent → List UInt8
  | [] => []
  | .appended bytes :: log | .dropped bytes :: log => takenOf log ++ bytes
  | .opened :: log | .openFailed :: log | .stayed :: log | .rotated _ _ :: log => takenOf log

/-- What the rotations moved, oldest first. -/
def archiveOf : List LogEvent → List (String × List UInt8)
  | [] => []
  | .rotated name content :: log => archiveOf log ++ [(name, content)]
  | .opened :: log | .openFailed :: log | .stayed :: log | .dropped _ :: log |
    .appended _ :: log => archiveOf log

/-- The last rotation that was tried found no name that could take the file, or none was tried, and
the file was found longer than the limit. -/
def OverFull (limit : Nat) (found : List UInt8) : List LogEvent → Prop
  | [] => limit < found.length
  | .stayed :: _ => True
  | .rotated _ _ :: _ => False
  | .opened :: log | .openFailed :: log | .dropped _ :: log | .appended _ :: log =>
    OverFull limit found log

/-- What an event says of those before it. -/
def Grounds (limit : Nat) (found : List UInt8) (older : List LogEvent) : LogEvent → Prop
  | .rotated _ content => content = activeOf found older ∧ limit ≤ content.length ∧
      (limit < content.length → OverFull limit found older)
  | .stayed => limit ≤ (activeOf found older).length
  | .appended bytes =>
    (activeOf found older).length + bytes.length ≤ limit ∨ OverFull limit found older
  | .dropped _ => older.head? = some .openFailed
  | .opened | .openFailed => True

variable {log : List LogEvent}

/-- **All that was held is in one place**: in the files that were moved, in order, and then in the
active one. -/
theorem archive_append_activeOf {limit : Nat} {found : List UInt8}
    (h : Justified (Grounds limit found) log) :
    (archiveOf log).flatMap Prod.snd ++ activeOf found log = found ++ keptOf log := by
  induction log with
  | nil => exact (List.append_nil found).symm
  | cons e log ih =>
    obtain ⟨hgrounds, hlog⟩ := justified_cons.1 h
    have hrest := ih hlog
    cases e with
    | rotated name content =>
      have hcontent : content = activeOf found log := hgrounds.1
      rw [archiveOf, activeOf, keptOf, List.flatMap_append, List.flatMap_singleton, hcontent,
        List.append_nil, hrest]
    | appended bytes => rw [archiveOf, activeOf, keptOf, ← List.append_assoc, hrest,
        List.append_assoc]
    | _ => exact hrest

/-- **The active file is longer than the limit only where no name could take it**, or it was found
so. -/
theorem overFull_of_lt {limit : Nat} {found : List UInt8} (h : Justified (Grounds limit found) log)
    (hlt : limit < (activeOf found log).length) : OverFull limit found log := by
  induction log with
  | nil => exact hlt
  | cons e log ih =>
    obtain ⟨hgrounds, hlog⟩ := justified_cons.1 h
    cases e with
    | rotated name content => exact absurd hlt (Nat.not_lt_zero _)
    | appended bytes =>
      rw [activeOf, List.length_append] at hlt
      exact hgrounds.resolve_left (Nat.not_le.2 hlt)
    | stayed => trivial
    | _ => exact ih hlog hlt

/-- Where nothing was dropped, all that was taken was appended. -/
theorem keptOf_eq_takenOf (h : ∀ bytes, .dropped bytes ∉ log) : keptOf log = takenOf log := by
  induction log with
  | nil => rfl
  | cons e log ih =>
    have hrest := ih fun bytes hmem ↦ h bytes (List.mem_cons_of_mem e hmem)
    cases e with
    | appended bytes => rw [keptOf, takenOf, hrest]
    | dropped bytes => exact absurd (.head _) (h bytes)
    | _ => exact hrest

end Log

namespace DirRotate

theorem name_ne_rotatedName (d : DirRotate) : d.rotatedName ≠ d.name := by
  intro h
  have hlength := congrArg (fun s : String ↦ s.toList.length) h
  simp [rotatedName] at hlength

theorem rotatedName_ne_fallbackName (d : DirRotate) : d.fallbackName ≠ d.rotatedName := by
  intro h
  have hlength := congrArg (fun s : String ↦ s.toList.length) h
  simp [fallbackName] at hlength

theorem name_ne_fallbackName (d : DirRotate) : d.fallbackName ≠ d.name := by
  intro h
  have hlength := congrArg (fun s : String ↦ s.toList.length) h
  simp [fallbackName, rotatedName] at hlength

/-- What holds of the files after any calls: `before` is the directory and `found` the active file
at the start. -/
structure Held (before : String → Option (List UInt8)) (found : List UInt8) (d : DirRotate) :
    Prop where
  active : d.active = activeOf found d.log
  opened : d.isOpen = true → d.dir d.name = some d.active ∧ d.count = d.active.length
  justified : Justified (Grounds d.limit found) d.log
  /-- The file that was moved last is still where it was moved to. -/
  last : ∀ name content, (archiveOf d.log).getLast? = some (name, content) →
    (name = d.rotatedName ∨ name = d.fallbackName) ∧ d.dir name = some content
  others : ∀ name, name ≠ d.name → name ≠ d.rotatedName → name ≠ d.fallbackName →
    d.dir name = before name
  said : d.notices = if d.noticed then 1 else 0

section Steps

variable {before : String → Option (List UInt8)} {found : List UInt8} {d : DirRotate}

theorem Held.bounded (h : Held before found d) (hlt : d.limit < d.active.length) :
    OverFull d.limit found d.log := overFull_of_lt h.justified (h.active ▸ hlt)

/-- A file that was moved is not at the active name. -/
theorem Held.last_ne (h : Held before found d) {name : String} {content : List UInt8}
    (hlast : (archiveOf d.log).getLast? = some (name, content)) : name ≠ d.name := by
  rcases (h.last name content hlast).1 with rfl | rfl
  · exact d.name_ne_rotatedName
  · exact d.name_ne_fallbackName

theorem Held.openActive (h : Held before found d) (ok : Bool) :
    Held before found (d.openActive ok) := by
  cases ok with
  | false =>
    refine ⟨h.active, nofun, ⟨trivial, h.justified⟩, h.last, h.others, ?_⟩
    have hsaid := h.said
    cases hnoticed : d.noticed with
    | false =>
      rw [hnoticed] at hsaid
      simp [DirRotate.openActive, hnoticed, hsaid]
    | true =>
      rw [hnoticed] at hsaid
      simp [DirRotate.openActive, hnoticed, hsaid]
  | true =>
    have hdir : (d.openActive true).dir d.name = some d.active := update_self _ _ _
    have hactive : (d.openActive true).active = d.active := by
      have hget := congrArg (Option.getD · []) hdir
      exact hget
    refine ⟨hactive.trans h.active, fun _ ↦ ⟨?_, ?_⟩, ⟨trivial, h.justified⟩,
      fun name content hlast ↦ ?_, fun name hname hrotated hfallback ↦ ?_, h.said⟩
    · rw [hactive]
      exact hdir
    · rw [hactive]
      rfl
    · refine ⟨(h.last name content hlast).1, ?_⟩
      exact (update_of_ne (h.last_ne hlast) _ _).trans (h.last name content hlast).2
    · exact (update_of_ne hname _ _).trans (h.others name hname hrotated hfallback)

/-- The file is closed. -/
theorem Held.close (h : Held before found d) : Held before found { d with isOpen := false } :=
  ⟨h.active, nofun, h.justified, h.last, h.others, h.said⟩

/-- The active file is moved to one of the two names. -/
theorem Held.renameTo (h : Held before found d) (hclosed : d.isOpen = false) {name : String}
    (hname : name = d.rotatedName ∨ name = d.fallbackName)
    (hactive : d.dir d.name = some d.active) (hlimit : d.limit ≤ d.active.length) :
    Held before found (d.renameTo name) := by
  have hne : name ≠ d.name := by
    rcases hname with rfl | rfl
    · exact d.name_ne_rotatedName
    · exact d.name_ne_fallbackName
  have hgone : (d.renameTo name).dir d.name = none := update_self _ _ _
  have hempty : (d.renameTo name).active = [] := congrArg (Option.getD · []) hgone
  have hother {n : String} (hn : n ≠ d.name) (hn' : n ≠ name) :
      (d.renameTo name).dir n = d.dir n :=
    (update_of_ne hn _ _).trans (update_of_ne hn' _ _)
  refine ⟨hempty, fun hopen ↦ ?_, ⟨⟨h.active, hlimit, h.bounded⟩, h.justified⟩,
    fun n content hlast ↦ ?_, fun n hn hrotated hfallback ↦ ?_, h.said⟩
  · cases hclosed.symm.trans hopen
  · have hconcat : (archiveOf d.log ++ [(name, d.active)]).getLast? = some (n, content) := hlast
    rw [List.getLast?_concat] at hconcat
    cases hconcat
    refine ⟨hname, (update_of_ne hne _ _).trans ?_⟩
    exact (update_self _ _ _).trans hactive
  · refine (hother hn ?_).trans (h.others n hn hrotated hfallback)
    rintro rfl
    exact hname.elim hrotated hfallback

/-- The fallback is removed, which is not the file that was moved last. -/
theorem Held.unlinkFallback (h : Held before found d)
    (hlast : ∀ content, (archiveOf d.log).getLast? ≠ some (d.fallbackName, content)) (ok : Bool) :
    Held before found (d.unlinkFallback ok) := by
  cases ok with
  | false => exact h
  | true =>
    have hother {n : String} (hn : n ≠ d.fallbackName) :
        (d.unlinkFallback true).dir n = d.dir n := update_of_ne hn _ _
    have hdir := hother (Ne.symm d.name_ne_fallbackName)
    have hactive : (d.unlinkFallback true).active = d.active := congrArg (Option.getD · []) hdir
    refine ⟨hactive.trans h.active, fun hopen ↦ ?_, h.justified,
      fun n content hn ↦ ?_, fun n hn hrotated hfallback ↦ ?_, h.said⟩
    · rw [hactive]
      exact ⟨hdir.trans (h.opened hopen).1, (h.opened hopen).2⟩
    · refine ⟨(h.last n content hn).1, (hother ?_).trans (h.last n content hn).2⟩
      rintro rfl
      exact hlast content hn
    · exact (hother hfallback).trans (h.others n hn hrotated hfallback)

/-- **A rotation loses nothing**, whatever of it fails. -/
theorem Held.makeRoom (h : Held before found d) (hopen : d.isOpen = true)
    (hlimit : d.limit ≤ d.count) (o : Outcomes) : Held before found (d.makeRoom o) := by
  obtain ⟨hdir, hcount⟩ := h.opened hopen
  have hle : d.limit ≤ d.active.length := hcount ▸ hlimit
  rw [DirRotate.makeRoom]
  split
  · refine (h.close.renameTo rfl (Or.inl rfl) hdir hle).unlinkFallback (fun content hlast ↦ ?_) _
    have hconcat : (archiveOf d.log ++ [(d.rotatedName, d.active)]).getLast? =
        some (d.fallbackName, content) := hlast
    rw [List.getLast?_concat] at hconcat
    exact d.rotatedName_ne_fallbackName (Prod.mk.inj (Option.some.inj hconcat)).1.symm
  · split
    · exact h.close.renameTo rfl (Or.inr rfl) hdir hle
    · have hstayed : d.limit ≤ (activeOf found d.log).length := h.active ▸ hle
      exact ⟨h.active, nofun, ⟨hstayed, h.justified⟩, h.last, h.others, h.said⟩

theorem config_openActive (d : DirRotate) (ok : Bool) : (d.openActive ok).config = d.config := by
  cases ok <;> rfl

theorem config_ensureOpen (d : DirRotate) (o : Outcomes) : (d.ensureOpen o).config = d.config := by
  rw [ensureOpen]
  split
  · rfl
  · exact d.config_openActive _

theorem limit_ensureOpen (d : DirRotate) (o : Outcomes) : (d.ensureOpen o).limit = d.limit :=
  congrArg Prod.snd (d.config_ensureOpen o)

/-- A rotation moves the file, or says that it could not. -/
theorem log_makeRoom (d : DirRotate) (o : Outcomes) : (d.makeRoom o).config = d.config ∧
    ((∃ name, (d.makeRoom o).log = .rotated name d.active :: d.log) ∨
      (d.makeRoom o).log = .stayed :: d.log) := by
  rw [makeRoom]
  split
  · cases o.unlink <;> exact ⟨rfl, Or.inl ⟨_, rfl⟩⟩
  · split
    · exact ⟨rfl, Or.inl ⟨_, rfl⟩⟩
    · exact ⟨rfl, Or.inr rfl⟩

theorem config_prepare (d : DirRotate) (o : Outcomes) : (d.prepare o).config = d.config := by
  rw [prepare]
  split
  · rw [rotate, config_openActive, (log_makeRoom _ _).1, config_ensureOpen]
  · exact d.config_ensureOpen o

theorem limit_prepare (d : DirRotate) (o : Outcomes) : (d.prepare o).limit = d.limit :=
  congrArg Prod.snd (d.config_prepare o)

theorem Held.ensureOpen (h : Held before found d) (o : Outcomes) :
    Held before found (d.ensureOpen o) := by
  rw [DirRotate.ensureOpen]
  split
  · exact h
  · exact h.openActive _

theorem Held.prepare (h : Held before found d) (o : Outcomes) :
    Held before found (d.prepare o) := by
  rw [DirRotate.prepare]
  split
  · next hfull =>
    have hlimit := hfull.2
    rw [← d.limit_ensureOpen o] at hlimit
    exact ((h.ensureOpen o).makeRoom hfull.1 hlimit o).openActive _
  · exact h.ensureOpen o

/-- What is appended to a file that has room stays below the limit, and to another one all of it is
appended. -/
theorem length_offered (buf : List UInt8) :
    d.count + (d.offered buf).length ≤ d.limit ∨ d.limit ≤ d.count ∧ d.offered buf = buf := by
  rw [offered, room]
  by_cases hroom : d.count < d.limit
  · left
    have hsub : 0 < d.limit - d.count := by omega
    rw [if_pos (Nat.le_of_lt hroom), Option.filter_some, if_pos (by simpa using hsub),
      Option.elim_some, List.length_take]
    omega
  · right
    refine ⟨Nat.le_of_not_lt hroom, ?_⟩
    have hnone : (if d.count ≤ d.limit then some (d.limit - d.count) else none).filter (0 < ·) =
        none := by
      split
      · rw [Option.filter_some, if_neg (by simp; omega)]
      · rfl
    rw [hnone, Option.elim_none, List.take_length]

/-- Of a line something is offered. -/
theorem offered_ne_nil {buf : List UInt8} (h : buf ≠ []) : d.offered buf ≠ [] := by
  have hpos := List.length_pos_iff.2 h
  rw [offered, room]
  split
  · by_cases hroom : 0 < d.limit - d.count
    · rw [Option.filter_some, if_pos (by simpa using hroom), Option.elim_some]
      refine List.ne_nil_of_length_pos ?_
      rw [List.length_take]
      omega
    · rw [Option.filter_some, if_neg (by simpa using hroom), Option.elim_none, List.take_length]
      exact h
  · rw [Option.filter_none, Option.elim_none, List.take_length]
    exact h

/-- Bytes are appended to an open file. Past the limit they are only if no name could take it. -/
theorem Held.append (h : Held before found d) (hopen : d.isOpen = true) {bytes : List UInt8}
    (hbytes : d.count + bytes.length ≤ d.limit ∨ OverFull d.limit found d.log) :
    Held before found (d.append bytes) := by
  obtain ⟨hdir, hcount⟩ := h.opened hopen
  have hnew : (d.append bytes).dir d.name = some (d.active ++ bytes) := update_self _ _ _
  have hactive : (d.append bytes).active = d.active ++ bytes := by
    have hget := congrArg (Option.getD · []) hnew
    exact hget
  have hgrounds : (activeOf found d.log).length + bytes.length ≤ d.limit ∨
      OverFull d.limit found d.log := by
    rwa [← h.active, ← hcount]
  refine ⟨?_, fun _ ↦ ⟨?_, ?_⟩, ⟨hgrounds, h.justified⟩, fun n content hlast ↦ ?_,
    fun n hn hrotated hfallback ↦ ?_, h.said⟩
  · rw [hactive, h.active]
    rfl
  · rw [hactive]
    exact hnew
  · rw [hactive, List.length_append, ← hcount]
    rfl
  · refine ⟨(h.last n content hlast).1, ?_⟩
    exact (update_of_ne (h.last_ne hlast) _ _).trans (h.last n content hlast).2
  · exact (update_of_ne hn _ _).trans (h.others n hn hrotated hfallback)

/-- After the preparations of a `write` an open file has room, or no name could take it. -/
theorem Held.overFull_of_prepare (h : Held before found d) (hlimit : 0 < d.limit) (o : Outcomes)
    (hopen : (d.prepare o).isOpen = true) (hfull : d.limit ≤ (d.prepare o).count) :
    OverFull d.limit found (d.prepare o).log := by
  have hheld := (h.prepare o).opened hopen
  rw [DirRotate.prepare] at hopen hfull hheld ⊢
  split at hopen
  · next hrotated =>
    rw [if_pos hrotated] at hfull hheld ⊢
    have hroom := hrotated.2
    rw [← d.limit_ensureOpen o] at hroom
    have hmoved := (h.ensureOpen o).makeRoom hrotated.1 hroom o
    have hreopen : o.reopen = true := by
      rcases hok : o.reopen with - | -
      · rw [rotate, hok] at hopen
        cases hopen
      · rfl
    rw [rotate, hreopen] at hfull ⊢
    rcases (log_makeRoom (d.ensureOpen o) o).2 with ⟨name, hlog⟩ | hlog
    · have hempty : ((d.ensureOpen o).makeRoom o).active = [] := by
        rw [hmoved.active, hlog]
        rfl
      have hcount : (((d.ensureOpen o).makeRoom o).openActive true).count = 0 :=
        congrArg List.length hempty
      omega
    · have hhead : (((d.ensureOpen o).makeRoom o).openActive true).log =
          .opened :: .stayed :: (d.ensureOpen o).log := congrArg (LogEvent.opened :: ·) hlog
      rw [hhead]
      trivial
  · next hnot =>
    rw [if_neg hnot] at hfull
    exact absurd ⟨hopen, hfull⟩ hnot

theorem openFailed_of_openActive {ok : Bool} (h : (d.openActive ok).isOpen = false) :
    (d.openActive ok).log.head? = some .openFailed := by
  cases ok with
  | false => rfl
  | true => cases h

/-- A line is dropped only where the file could not be opened. -/
theorem openFailed_of_prepare (o : Outcomes) (hclosed : (d.prepare o).isOpen = false) :
    (d.prepare o).log.head? = some .openFailed := by
  rw [prepare] at hclosed ⊢
  split at hclosed
  · next hrotated =>
    rw [if_pos hrotated]
    exact openFailed_of_openActive hclosed
  · next hnot =>
    rw [if_neg hnot]
    rw [ensureOpen] at hclosed ⊢
    split at hclosed
    · next hopen => cases hopen.symm.trans hclosed
    · next hopen =>
      rw [if_neg hopen]
      exact openFailed_of_openActive hclosed

theorem takenOf_openActive (d : DirRotate) (ok : Bool) :
    takenOf (d.openActive ok).log = takenOf d.log := by
  cases ok <;> rfl

theorem takenOf_makeRoom (d : DirRotate) (o : Outcomes) :
    takenOf (d.makeRoom o).log = takenOf d.log := by
  rcases (d.log_makeRoom o).2 with ⟨name, hlog⟩ | hlog
  · rw [hlog]
    rfl
  · rw [hlog]
    rfl

theorem takenOf_ensureOpen (d : DirRotate) (o : Outcomes) :
    takenOf (d.ensureOpen o).log = takenOf d.log := by
  rw [ensureOpen]
  split
  · rfl
  · exact d.takenOf_openActive _

theorem takenOf_prepare (d : DirRotate) (o : Outcomes) :
    takenOf (d.prepare o).log = takenOf d.log := by
  rw [prepare]
  split
  · rw [rotate, takenOf_openActive, takenOf_makeRoom, takenOf_ensureOpen]
  · exact d.takenOf_ensureOpen o

/-- What `write` does, by whether the file could be opened. -/
theorem write_cases (d : DirRotate) (o : Outcomes) (buf : List UInt8) :
    ((d.prepare o).isOpen = true ∧
      ∃ taken, taken = ((d.prepare o).offered buf).take (max 1 o.takes) ∧
        d.write o buf = ((d.prepare o).append taken, taken.length)) ∨
    ((d.prepare o).isOpen = false ∧
      d.write o buf =
        ({ d.prepare o with log := .dropped buf :: (d.prepare o).log }, buf.length)) := by
  rw [write]
  dsimp only
  cases hopen : (d.prepare o).isOpen with
  | true => exact Or.inl ⟨rfl, _, rfl, rfl⟩
  | false => exact Or.inr ⟨rfl, rfl⟩

/-- **What holds of the files is kept by a `write`.** -/
theorem Held.write (h : Held before found d) (hlimit : 0 < d.limit) (o : Outcomes)
    (buf : List UInt8) : Held before found (d.write o buf).1 := by
  have hready := h.prepare o
  rcases d.write_cases o buf with ⟨hopen, taken, htaken, hwrite⟩ | ⟨hclosed, hwrite⟩
  · rw [hwrite]
    refine hready.append hopen ?_
    have hle : taken.length ≤ ((d.prepare o).offered buf).length := by
      rw [htaken, List.length_take]
      exact Nat.min_le_right _ _
    rcases length_offered (d := d.prepare o) buf with hroom | ⟨hfull, -⟩
    · left
      omega
    · right
      rw [d.limit_prepare o] at hfull ⊢
      exact h.overFull_of_prepare hlimit o hopen hfull
  · rw [hwrite]
    have hnot (hopen : (d.prepare o).isOpen = true) : False := nomatch hclosed.symm.trans hopen
    exact ⟨hready.active, fun hopen ↦ (hnot hopen).elim,
      ⟨openFailed_of_prepare o hclosed, hready.justified⟩, hready.last, hready.others,
      hready.said⟩

theorem config_write (d : DirRotate) (o : Outcomes) (buf : List UInt8) :
    (d.write o buf).1.config = d.config := by
  rcases d.write_cases o buf with ⟨-, taken, -, hwrite⟩ | ⟨-, hwrite⟩
  · rw [hwrite]
    exact d.config_prepare o
  · rw [hwrite]
    exact d.config_prepare o

/-- What `write` says that it took is what it took, from the front of the line. -/
theorem takenOf_write (d : DirRotate) (o : Outcomes) (buf : List UInt8) :
    takenOf (d.write o buf).1.log = takenOf d.log ++ buf.take (d.write o buf).2 := by
  rcases d.write_cases o buf with ⟨-, taken, htaken, hwrite⟩ | ⟨-, hwrite⟩
  · have hpre : taken <+: buf := by
      rw [htaken]
      exact (List.take_prefix _ _).trans (List.take_prefix _ _)
    rw [hwrite, ← List.prefix_iff_eq_take.1 hpre, ← d.takenOf_prepare o]
    rfl
  · rw [hwrite, List.take_length, ← d.takenOf_prepare o]
    rfl

/-- **A `write` takes something of every line.** -/
theorem write_pos (d : DirRotate) (o : Outcomes) {buf : List UInt8} (hbuf : buf ≠ []) :
    0 < (d.write o buf).2 := by
  rcases d.write_cases o buf with ⟨-, taken, htaken, hwrite⟩ | ⟨-, hwrite⟩
  · rw [hwrite, htaken, List.length_take]
    have hoffered := List.length_pos_iff.2 (offered_ne_nil (d := d.prepare o) hbuf)
    omega
  · rw [hwrite]
    exact List.length_pos_iff.2 hbuf

/-- **A `write_all` takes the whole line**, in as many calls as it needs. -/
theorem Held.writeAll (h : Held before found d) (hlimit : 0 < d.limit) (os : Nat → Outcomes)
    (buf : List UInt8) : ∃ d', d.writeAll os buf = .ok d' ∧ Held before found d' ∧
      d'.config = d.config ∧ takenOf d'.log = takenOf d.log ++ buf := by
  induction hn : buf.length using Nat.strongRecOn generalizing d os buf with
  | ind n ih =>
    subst hn
    rw [DirRotate.writeAll]
    by_cases hbuf : buf = []
    · rw [if_pos hbuf, hbuf, List.append_nil]
      exact ⟨d, rfl, h, rfl, rfl⟩
    · have hpos := d.write_pos (os 0) hbuf
      have hconfig := d.config_write (os 0) buf
      have hsame : (d.write (os 0) buf).1.limit = d.limit := congrArg Prod.snd hconfig
      have hlimit' : 0 < (d.write (os 0) buf).1.limit := by rwa [hsame]
      have hlt : (buf.drop (d.write (os 0) buf).2).length < buf.length := by
        have hlength := List.length_pos_iff.2 hbuf
        rw [List.length_drop]
        omega
      obtain ⟨d', hrun, hheld, hsame', htaken⟩ :=
        ih _ hlt (h.write hlimit (os 0) buf) hlimit' (fun i ↦ os (i + 1)) _ rfl
      rw [if_neg hbuf, if_neg (Nat.ne_of_gt hpos)]
      refine ⟨d', hrun, hheld, hsame'.trans hconfig, ?_⟩
      rw [htaken, takenOf_write, List.append_assoc, List.take_append_drop]

/-- A run of `write_all` calls takes all that it is given. -/
theorem Held.run (h : Held before found d) (hlimit : 0 < d.limit)
    (calls : List (List UInt8 × (Nat → Outcomes))) :
    ∃ d', d.run calls = .ok d' ∧ Held before found d' ∧ d'.config = d.config ∧
      takenOf d'.log = takenOf d.log ++ calls.flatMap Prod.fst := by
  induction calls generalizing d with
  | nil => exact ⟨d, rfl, h, rfl, (List.append_nil _).symm⟩
  | cons call calls ih =>
    obtain ⟨mid, hmid, hheld, hsame, htaken⟩ := h.writeAll hlimit call.2 call.1
    have heq : mid.limit = d.limit := congrArg Prod.snd hsame
    have hlimit' : 0 < mid.limit := by rwa [heq]
    obtain ⟨d', hrun, hheld', hsame', htaken'⟩ := ih hheld hlimit'
    refine ⟨d', ?_, hheld', hsame'.trans hsame, ?_⟩
    · rw [DirRotate.run, List.foldlM_cons, hmid]
      exact hrun
    · rw [htaken', htaken, List.flatMap_cons, List.append_assoc]

end Steps

/-- **What becomes of the bytes that are given**, if the directory was `before` and the active file
held `found`. -/
structure Kept (before : String → Option (List UInt8)) (found given : List UInt8)
    (d : DirRotate) : Prop where
  /-- What was found and what was appended is in the moved files and the active one, in order and
  once. -/
  stream : (archiveOf d.log).flatMap Prod.snd ++ d.active = found ++ keptOf d.log
  taken : takenOf d.log = given
  /-- Bytes are dropped only after an open that failed. -/
  dropped : ∀ newer bytes older, d.log = newer ++ .dropped bytes :: older →
    older.head? = some .openFailed
  all : .openFailed ∉ d.log → keptOf d.log = given
  /-- A file is moved once it is full, and is split exactly there. -/
  split : ∀ newer name content older, d.log = newer ++ .rotated name content :: older →
    content = activeOf found older ∧ d.limit ≤ content.length ∧
      (d.limit < content.length → OverFull d.limit found older)
  bounded : ∀ older, older <:+ d.log → d.limit < (activeOf found older).length →
    OverFull d.limit found older
  suffix : ∀ name content, (archiveOf d.log).getLast? = some (name, content) →
    (name = d.rotatedName ∨ name = d.fallbackName) ∧ d.dir name = some content ∧
      content ++ d.active <:+ found ++ keptOf d.log
  others : ∀ name, name ≠ d.name → name ≠ d.rotatedName → name ≠ d.fallbackName →
    d.dir name = before name
  progress : ∀ o buf, buf ≠ [] → (d.write o buf).2 ≠ 0

section Kept

variable {before : String → Option (List UInt8)} {found given : List UInt8} {d : DirRotate}

theorem Held.kept (h : Held before found d) (htaken : takenOf d.log = given) :
    Kept before found given d := by
  have hstream := archive_append_activeOf h.justified
  rw [← h.active] at hstream
  have hdropped (newer : List LogEvent) (bytes : List UInt8) (older : List LogEvent)
      (hlog : d.log = newer ++ .dropped bytes :: older) : older.head? = some .openFailed :=
    Justified.of_split (hlog ▸ h.justified)
  refine ⟨hstream, htaken, hdropped, fun hopen ↦ ?_, fun newer name content older hlog ↦ ?_,
    fun older hsuffix hlt ↦ ?_, fun name content hlast ↦ ?_, h.others,
    fun o buf hbuf ↦ Nat.ne_of_gt (d.write_pos o hbuf)⟩
  · rw [← htaken]
    refine keptOf_eq_takenOf fun bytes hmem ↦ hopen ?_
    obtain ⟨newer, older, hlog⟩ := List.append_of_mem hmem
    have hhead : .openFailed ∈ older := List.mem_of_mem_head? (hdropped newer bytes older hlog)
    rw [hlog]
    exact List.mem_append_right _ (.tail _ hhead)
  · exact Justified.of_split (hlog ▸ h.justified)
  · obtain ⟨newer, hlog⟩ := hsuffix
    exact overFull_of_lt (Justified.of_append (hlog ▸ h.justified)) hlt
  · refine ⟨(h.last name content hlast).1, (h.last name content hlast).2, ?_⟩
    obtain ⟨older, harchive⟩ := List.getLast?_eq_some_iff.1 hlast
    refine ⟨older.flatMap Prod.snd, ?_⟩
    rw [← hstream, harchive, List.flatMap_append, List.flatMap_singleton, List.append_assoc]

theorem held_new {name : String} {limit : Nat} {ok : Bool} (h : new before name limit ok = some d) :
    Held before ((before name).getD []) d ∧ d.config = (name, limit) ∧ takenOf d.log = [] ∧
      0 < limit := by
  rw [new] at h
  split at h
  · next hlimit =>
    have hstart : Held before ((before name).getD [])
        { dir := before
          name := name
          limit := limit
          isOpen := false
          count := 0
          noticed := false
          notices := 0
          log := [] } :=
      ⟨rfl, nofun, trivial, nofun, fun n _ _ _ ↦ rfl, rfl⟩
    rw [← Option.some.inj h]
    exact ⟨hstart.openActive ok, config_openActive _ ok, takenOf_openActive _ ok, hlimit⟩
  · cases h

end Kept

/-- **A rotation loses no line that it could keep.** Whatever of the renames, unlinks and opens
fails, a run of `write_all` calls takes all that it is given, what it appends is in the files in
order and once, and nothing is dropped but after an open that failed. -/
theorem run_keeps_lines {before : String → Option (List UInt8)} {name : String} {limit : Nat}
    {ok : Bool} {start : DirRotate} (hnew : new before name limit ok = some start)
    (calls : List (List UInt8 × (Nat → Outcomes))) :
    ∃ d, start.run calls = .ok d ∧ d.name = name ∧ d.limit = limit ∧
      Kept before ((before name).getD []) (calls.flatMap Prod.fst) d := by
  obtain ⟨hheld, hconfig, htaken, hpos⟩ := held_new hnew
  have hlimit : start.limit = limit := congrArg Prod.snd hconfig
  obtain ⟨d, hrun, hheld', hsame, htaken'⟩ := hheld.run (hlimit ▸ hpos) calls
  have hconfig' := hsame.trans hconfig
  rw [htaken, List.nil_append] at htaken'
  exact ⟨d, hrun, congrArg Prod.fst hconfig', congrArg Prod.snd hconfig', hheld'.kept htaken'⟩

/-- A file that is full at the second byte and is moved, but whose fallback stays. -/
def sampleOutcomes : Outcomes where
  openFirst := true
  rename := true
  unlink := false
  renameFallback := false
  reopen := true
  takes := 2

/-- Three bytes, of which the file that is moved takes two. -/
theorem run_keeps_lines_sample : ∃ start d, new (fun _ ↦ none) "hole.log" 2 true = some start ∧
    start.run [([1, 2, 3], fun _ ↦ sampleOutcomes)] = .ok d ∧
    Kept (fun _ ↦ none) [] [1, 2, 3] d := by
  obtain ⟨d, hrun, -, -, hkept⟩ := @run_keeps_lines (fun _ ↦ none) "hole.log" 2 true _ rfl
    [([1, 2, 3], fun _ ↦ sampleOutcomes)]
  exact ⟨_, d, rfl, hrun, hkept⟩

/-- A file of a run with a larger limit is over this one before any rotation is tried. -/
theorem found_over_limit : ¬∀ (before : String → Option (List UInt8)) (name : String)
    (limit : Nat) (ok : Bool) (start d : DirRotate)
    (calls : List (List UInt8 × (Nat → Outcomes))), new before name limit ok = some start →
    start.run calls = .ok d → d.limit < d.active.length → .stayed ∈ d.log := by
  intro h
  have hstayed := h (fun _ ↦ some [1, 2]) "hole.log" 1 true _ _ [] rfl rfl (by decide)
  exact absurd hstayed (by decide)

end DirRotate

end Hole.Logging
