import Hole.State.Generation
import Hole.State.Preserved

/-!
# What observations have in common

What holds of the history of `Generation` in every run. A lock is taken with the bytes at the name
that the last lock was taken with, unless the generation has moved since, and with those that the
last update left (`Due`). That is an invariant of the pool (`Inv`): while a call holds the lock no
other call is inside, and nothing that could change the file is called before the generation moves.

While a call holds the lock, only other processes write. So each call has a section of the history
for itself, and there, where no other process wrote, it goes the way of its program without the lock
(`Within`, `Course`).

`observations_agree` has what follows: two observations of one generation were made with no attempt
to write in between, and saw the same bytes; and no update is lost (`Serial`): it decides by what
the last one left, and writes what `Backups.update` writes there.
-/

namespace Hole.State.Backups

open Effect

variable {σ ρ : Type}

/-! ### Histories -/

/-- How often the generation moved. -/
def moves : List (Event σ) → Nat
  | [] => 0
  | .attempt :: log => moves log + 1
  | .locked _ _ :: log => moves log
  | .observed _ _ _ :: log => moves log
  | .finished _ :: log => moves log
  | .outside :: log => moves log

theorem moves_append (log log' : List (Event σ)) :
    moves (log ++ log') = moves log + moves log' := by
  induction log with
  | nil => exact (Nat.zero_add _).symm
  | cons e log ih =>
    cases e with
    | attempt => exact (congrArg (· + 1) ih).trans (Nat.add_right_comm ..)
    | _ => exact ih

theorem moves_outside {outs : List (Event σ)} (h : ∀ e ∈ outs, e = .outside) : moves outs = 0 := by
  induction outs with
  | nil => rfl
  | cons e outs ih =>
    obtain ⟨rfl, hrest⟩ := List.forall_mem_cons.1 h
    exact ih hrest

/-- No attempt to write, and no write of another process. -/
def Still (e : Event σ) : Prop := e ≠ .attempt ∧ e ≠ .outside

/-- No update ended, and no other process wrote. -/
def Unfinished (e : Event σ) : Prop := (∀ bytes, e ≠ .finished bytes) ∧ e ≠ .outside

/-- What an event has to do with the history before it. -/
def Due (schema : Schema σ) (older : List (Event σ)) : Event σ → Prop
  | .locked _ bytes =>
    (∀ k b, Since Still (· = .locked k b) older → bytes = b) ∧
      ∀ b, Since Unfinished (· = .finished b) older → bytes = b
  | .observed i g loaded => g = moves older ∧
    ∃ (outs : List (Event σ)) (bytes : Option Bytes) (before : List (Event σ)),
      older = outs ++ Event.locked i bytes :: before ∧ (∀ e ∈ outs, e = .outside) ∧
        (outs = [] → Sees schema bytes loaded)
  | _ => True

/-- Two kinds of events are not each the last of the two. -/
theorem not_since_both {Q Q' R R' : Event σ → Prop} (hR : ∀ e, R e → ¬R' e)
    (hQ : ∀ e, R' e → ¬Q e) (hQ' : ∀ e, R e → ¬Q' e) {log : List (Event σ)}
    (h : Since Q R log) (h' : Since Q' R' log) : False := by
  induction log with
  | nil => exact h
  | cons e log ih =>
    rcases h with he | ⟨he, h⟩
    · rcases h' with he' | ⟨he', -⟩
      · exact hR e he he'
      · exact hQ' e he he'
    · rcases h' with he' | ⟨-, h'⟩
      · exact hQ e he' he
      · exact ih h h'

/-! ### The bytes at the name -/

section Bytes

variable {place : Place} {file : FileName} {s t : Shelf}

theorem bytesAt_of_same (h : Wf s) (hsame : Same place file s t) :
    t.bytesAt file = s.bytesAt file := by
  rw [Shelf.bytesAt, Shelf.bytesAt, hsame.own]
  cases hname : s.names file with
  | none => rfl
  | some i => rw [Option.map_some, Option.map_some, hsame.node i (h.bound hname)]

theorem bytesAt_of_absent (h : s.names file = none) : s.bytesAt file = none := by
  rw [Shelf.bytesAt, h]
  rfl

/-- What was read is what is at the name. -/
theorem bytesAt_of_read (h : Wf s) {c : Choice} {bytes : Bytes}
    (hread : (surroundings place file).answer s (.read file) c = .ok bytes) :
    s.bytesAt file = some bytes := by
  obtain ⟨-, hsame⟩ := same_others place file h c.takers
  rcases call_cases place file s (.read file) c with
    ⟨f, -, hf, -⟩ | ⟨kind, -, hk, -⟩ | ⟨r, hact, hr, -⟩
  · rw [hf] at hread
    cases hread
  · rw [hk] at hread
    cases hread
  · rw [hr] at hread
    cases hread
    rw [← bytesAt_of_same h hsame]
    simp only [Shelf.act] at hact
    split at hact
    · cases hact
    · next i hname =>
      rw [Shelf.bytesAt, hname, Option.map_some]
      split at hact
      · next read hnode =>
        cases hact
        rw [Node.read] at hnode
        split at hnode
        · exact congrArg some (Except.ok.inj hnode)
        · cases hnode
      · cases hact

theorem reader_ne_notFound (c : Choice) :
    (surroundings place file).answer s .reader c ≠ .error .notFound := by
  intro hreader
  rcases call_cases place file s .reader c with
    ⟨f, -, hf, -⟩ | ⟨kind, hact, -, -⟩ | ⟨r, -, hr, -⟩
  · rw [hf] at hreader
    cases f <;> cases hreader
  · cases hact
  · rw [hr] at hreader
    cases hreader

/-- The calls of an observation say the truth about the bytes at the name, and leave them. -/
theorem learn_true (h : Wf s) {o : Call} (ho : Looks file o) (c : Choice)
    {known : Option (Option Bytes)} (hknown : ∀ b, known = some b → b = s.bytesAt file) :
    ∀ b, learn o ((surroundings place file).answer s o c) known = some b → b = s.bytesAt file := by
  obtain ⟨hdir, hread, hkind⟩ := absent_of_answer place file h c
  intro b hb
  rcases ho with rfl | rfl | rfl | rfl
  · rcases hanswer : (surroundings place file).answer s (.openDir false) c with kind | u
    · rw [hanswer] at hb
      cases kind with
      | notFound =>
        cases hb
        exact (bytesAt_of_absent (hdir hanswer)).symm
      | _ => exact hknown b hb
    · rw [hanswer] at hb
      exact hknown b hb
  · rcases hanswer : (surroundings place file).answer s .reader c with kind | u
    · rw [hanswer] at hb
      cases kind with
      | notFound => exact absurd hanswer (reader_ne_notFound c)
      | _ => exact hknown b hb
    · rw [hanswer] at hb
      exact hknown b hb
  · rcases hanswer : (surroundings place file).answer s (.read file) c with kind | bytes
    · rw [hanswer] at hb
      cases kind with
      | notFound =>
        cases hb
        exact (bytesAt_of_absent (hread hanswer)).symm
      | _ => exact hknown b hb
    · rw [hanswer] at hb
      cases hb
      exact (bytesAt_of_read h hanswer).symm
  · rcases hanswer : (surroundings place file).answer s (.kindOf file) c with kind | kind
    · rw [hanswer] at hb
      exact hknown b hb
    · rw [hanswer] at hb
      cases kind with
      | none =>
        cases hb
        exact (bytesAt_of_absent (hkind hanswer)).symm
      | some kind => exact hknown b hb

theorem quiet_of_looks {o : Call} (ho : Looks file o) : o.Quiet := by
  rcases ho with rfl | rfl | rfl | rfl <;> exact trivial

end Bytes

/-! ### The invariant -/

/-- The phases in which the lock is held. -/
def Phase.Holds : Phase → Prop
  | .start => False
  | .inside _ => True
  | .ready => True
  | .acting => True
  | .over => False

/-- Since a task took the lock, only other processes wrote; and if not even they did, what it knows
of the bytes at the name is so. -/
def Knows (file : FileName) (w : World σ) (i : Nat) (known : Option (Option Bytes)) : Prop :=
  ∃ (outs : List (Event σ)) (bytes : Option Bytes) (before : List (Event σ)),
    w.log = outs ++ Event.locked i bytes :: before ∧ (∀ e ∈ outs, e = .outside) ∧
    (outs = [] → w.shelf.bytesAt file = bytes ∧ ∀ b, known = some b → b = bytes)

/-- What holds of the world and the phases of the calls. -/
structure Inv (schema : Schema σ) (file : FileName) (w : World σ)
    (φ : Nat → Option (Caller σ ρ × Phase)) : Prop where
  wf : Wf w.shelf
  generation : w.generation = moves w.log
  holder : ∀ i k ph, φ i = some (k, ph) → ph.Holds → w.holder = some i
  inside : ∀ i k known, φ i = some (k, .inside known) → Knows file w i known
  acting : ∀ i k, φ i = some (k, .acting) →
    Since (fun e ↦ ∀ j b, e ≠ .locked j b) (· = .attempt) w.log
  still : ∀ k b, Since Still (· = .locked k b) w.log → w.shelf.bytesAt file = b
  left : (∀ i k, φ i ≠ some (k, .acting)) → ∀ b, Since Unfinished (· = .finished b) w.log →
    w.shelf.bytesAt file = b
  due : Justified (Due schema) w.log

section Steps

variable {schema : Schema σ} {file : FileName} {w : World σ}
  {φ : Nat → Option (Caller σ ρ × Phase)} {i : Nat} {k : Caller σ ρ} {ph : Phase}

/-- While one holds the lock, no other does. -/
theorem Inv.alone (h : Inv schema file w φ) (hi : φ i = some (k, ph)) (hph : ph.Holds) {j : Nat}
    {k' : Caller σ ρ} {ph' : Phase} (hj : φ j = some (k', ph')) (hph' : ph'.Holds) : j = i :=
  Option.some.inj ((h.holder j k' ph' hj hph').symm.trans (h.holder i k ph hi hph))

theorem inv_initial {shelf : Shelf} (h : Wf shelf) :
    Inv schema file (World.initial file shelf) fun _ ↦ (none : Option (Caller σ ρ × Phase)) where
  wf := h
  generation := rfl
  holder := nofun
  inside := nofun
  acting := nofun
  still k b hsince := by
    rcases hsince with h | ⟨-, h⟩
    · cases h
    · exact h.elim
  left _ b hsince := by
    rcases hsince with h | ⟨-, h⟩
    · exact Event.finished.inj h
    · exact h.elim
  due := ⟨trivial, trivial⟩

/-- A phase of another call is as it was. -/
theorem eq_of_update {x y : Caller σ ρ × Phase} {j : Nat}
    (h : Function.update φ i (some x) j = some y) : (j = i ∧ x = y) ∨ φ j = some y := by
  rcases of_update_some h with h | ⟨-, h⟩
  · exact .inl h
  · exact .inr h

/-- The one that holds the lock goes on. -/
theorem Inv.holder_update (h : Inv schema file w φ) (hi : φ i = some (k, ph)) (hph : ph.Holds)
    {x : Phase} (j : Nat) (k' : Caller σ ρ) (ph' : Phase)
    (hj : Function.update φ i (some (k, x)) j = some (k', ph')) (hph' : ph'.Holds) :
    w.holder = some j := by
  rcases eq_of_update hj with ⟨rfl, -⟩ | hj
  · exact h.holder j k ph hi hph
  · exact h.holder j k' ph' hj hph'

theorem Inv.lock (h : Inv schema file w φ) (hfree : w.holder = none) (c : Choice) :
    Inv schema file (w.next file i .lock c) (Function.update φ i (some (k, .inside none))) := by
  have hnone (j : Nat) (k' : Caller σ ρ) (ph' : Phase) (hj : φ j = some (k', ph')) :
      ¬ph'.Holds := by
    intro hph'
    have hholder := h.holder j k' ph' hj hph'
    rw [hfree] at hholder
    cases hholder
  have hidle (j : Nat) (k' : Caller σ ρ) : φ j ≠ some (k', .acting) :=
    fun hj ↦ hnone j k' .acting hj trivial
  constructor
  case wf => exact h.wf
  case generation => exact h.generation
  case holder =>
    intro j k' ph' hj hph'
    rcases eq_of_update hj with ⟨rfl, -⟩ | hj
    · rfl
    · exact absurd hph' (hnone j k' ph' hj)
  case inside =>
    intro j k' known hj
    rcases eq_of_update hj with ⟨rfl, heq⟩ | hj
    · cases heq
      exact ⟨[], _, w.log, rfl, nofun, fun _ ↦ ⟨rfl, nofun⟩⟩
    · exact absurd trivial (hnone j k' (.inside known) hj)
  case acting =>
    intro j k' hj
    rcases eq_of_update hj with ⟨-, heq⟩ | hj
    · cases heq
    · exact absurd hj (hidle j k')
  case still =>
    rintro k' b (heq | ⟨-, hsince⟩)
    · cases heq
      rfl
    · exact h.still k' b hsince
  case left =>
    rintro - b (heq | ⟨-, hsince⟩)
    · cases heq
    · exact h.left hidle b hsince
  case due => exact ⟨⟨h.still, h.left hidle⟩, h.due⟩

variable {known : Option (Option Bytes)}

theorem Inv.look (h : Inv schema file w φ) (hi : φ i = some (k, .inside known)) (place : Place)
    {o : Call} (ho : Looks file o) (c : Choice) :
    Inv schema file (w.next file i (.fs place o) c) (Function.update φ i
      (some (k, .inside (learn o ((surroundings place file).answer w.shelf o c) known)))) := by
  have hbytes : ((surroundings place file).next w.shelf o c).bytesAt file = w.shelf.bytesAt file :=
    bytesAt_of_same h.wf (same_next place file h.wf (quiet_of_looks ho) c)
  constructor
  case wf => exact wf_next place file h.wf o c
  case generation => exact h.generation
  case holder => exact h.holder_update hi trivial
  case inside =>
    intro j k' known' hj
    rcases eq_of_update hj with ⟨rfl, heq⟩ | hj
    · cases heq
      obtain ⟨outs, bytes, before, hlog, houts, hknown⟩ := h.inside j k known hi
      refine ⟨outs, bytes, before, hlog, houts, fun hnil ↦ ?_⟩
      obtain ⟨hsame, htrue⟩ := hknown hnil
      refine ⟨hbytes.trans hsame, fun b hb ↦ ?_⟩
      exact (learn_true h.wf ho c (fun b hb ↦ (htrue b hb).trans hsame.symm) b hb).trans hsame
    · obtain ⟨outs, bytes, before, hlog, houts, hknown⟩ := h.inside j k' known' hj
      exact ⟨outs, bytes, before, hlog, houts,
        fun hnil ↦ ⟨hbytes.trans (hknown hnil).1, (hknown hnil).2⟩⟩
  case acting =>
    intro j k' hj
    rcases eq_of_update hj with ⟨-, heq⟩ | hj
    · cases heq
    · exact h.acting j k' hj
  case still => exact fun k' b hsince ↦ hbytes.trans (h.still k' b hsince)
  case left =>
    refine fun hidle b hsince ↦ hbytes.trans (h.left (fun j k' hj ↦ ?_) b hsince)
    obtain rfl := h.alone hi trivial hj trivial
    rw [hi] at hj
    cases hj
  case due => exact h.due

theorem Inv.act (h : Inv schema file w φ) (hi : φ i = some (k, .acting)) (place : Place) (o : Call)
    (c : Choice) :
    Inv schema file (w.next file i (.fs place o) c) (Function.update φ i (some (k, .acting))) := by
  constructor
  case wf => exact wf_next place file h.wf o c
  case generation => exact h.generation
  case holder => exact h.holder_update hi trivial
  case inside =>
    intro j k' known hj
    rcases eq_of_update hj with ⟨-, heq⟩ | hother
    · cases heq
    · obtain rfl := h.alone hi trivial hother trivial
      rw [hi] at hother
      cases hother
  case acting =>
    intro j k' hj
    rcases eq_of_update hj with ⟨rfl, -⟩ | hj
    · exact h.acting j k hi
    · exact h.acting j k' hj
  case still =>
    -- No lock was taken since the generation moved.
    intro j b hsince
    refine (not_since_both ?_ ?_ ?_ hsince (h.acting i k hi)).elim
    · rintro e rfl
      exact nofun
    · rintro e rfl hstill
      exact hstill.1 rfl
    · rintro e rfl hnot
      exact hnot j b rfl
  case left => exact fun hidle ↦ absurd (Function.update_self i _ φ) (hidle i k)
  case due => exact h.due

/-- No other call is inside. -/
theorem Inv.not_inside (h : Inv schema file w φ) (hi : φ i = some (k, ph)) (hph : ph.Holds)
    (hnot : ∀ known, ph ≠ .inside known) (j : Nat) (k' : Caller σ ρ)
    (known : Option (Option Bytes)) : φ j ≠ some (k', .inside known) := by
  intro hj
  obtain rfl := h.alone hi hph hj trivial
  rw [hi] at hj
  cases hj
  exact hnot known rfl

/-- No call acts, where one that holds the lock does not. -/
theorem Inv.not_acting (h : Inv schema file w φ) (hi : φ i = some (k, ph)) (hph : ph.Holds)
    (hnot : ph ≠ .acting) (j : Nat) (k' : Caller σ ρ) : φ j ≠ some (k', .acting) := by
  intro hj
  obtain rfl := h.alone hi hph hj trivial
  rw [hi] at hj
  cases hj
  exact hnot rfl

theorem Inv.observe (h : Inv schema file w φ) (hi : φ i = some (k, .inside known))
    {loaded : Loaded σ} (htold : Told schema known loaded) (c : Choice) :
    Inv schema file (w.next file i (.generation loaded) c)
      (Function.update φ i (some (k, .ready))) := by
  have hidle := h.not_acting hi trivial nofun
  constructor
  case wf => exact h.wf
  case generation => exact h.generation
  case holder => exact h.holder_update hi trivial
  case inside =>
    intro j k' known' hj
    rcases of_update_some hj with ⟨-, heq⟩ | ⟨hne, hother⟩
    · cases heq
    · exact absurd (h.alone hi trivial hother trivial) hne
  case acting =>
    intro j k' hj
    rcases eq_of_update hj with ⟨-, heq⟩ | hj
    · cases heq
    · exact absurd hj (hidle j k')
  case still =>
    rintro k' b (heq | ⟨-, hsince⟩)
    · cases heq
    · exact h.still k' b hsince
  case left =>
    rintro - b (heq | ⟨-, hsince⟩)
    · cases heq
    · exact h.left hidle b hsince
  case due =>
    obtain ⟨outs, bytes, before, hlog, houts, hknown⟩ := h.inside i k known hi
    refine ⟨⟨h.generation, outs, bytes, before, hlog, houts, fun hnil ↦ ?_⟩, h.due⟩
    rcases htold with hfailed | ⟨b, hb, hread⟩
    · exact .inl hfailed
    · rw [(hknown hnil).2 b hb] at hread
      exact .inr hread

theorem Inv.bump (h : Inv schema file w φ) (hi : φ i = some (k, .ready)) (c : Choice) :
    Inv schema file (w.next file i .bump c) (Function.update φ i (some (k, .acting))) := by
  constructor
  case wf => exact h.wf
  case generation => exact congrArg (· + 1) h.generation
  case holder => exact h.holder_update hi trivial
  case inside =>
    intro j k' known hj
    rcases eq_of_update hj with ⟨-, heq⟩ | hother
    · cases heq
    · exact absurd hother (h.not_inside hi trivial nofun j k' known)
  case acting =>
    intro j k' hj
    exact .inl rfl
  case still =>
    rintro k' b (heq | ⟨hstill, -⟩)
    · cases heq
    · exact absurd rfl hstill.1
  case left => exact fun hidle ↦ absurd (Function.update_self i _ φ) (hidle i k)
  case due => exact ⟨trivial, h.due⟩

/-- Where a call that holds the lock is over, none holds it. -/
theorem Inv.none_holds (h : Inv schema file w φ) (hi : φ i = some (k, ph)) (hph : ph.Holds)
    (j : Nat) (k' : Caller σ ρ) (ph' : Phase)
    (hj : Function.update φ i (some (k, .over)) j = some (k', ph')) : ¬ph'.Holds := by
  intro hph'
  rcases of_update_some hj with ⟨-, heq⟩ | ⟨hne, hold⟩
  · cases heq
    exact hph'
  · exact hne (h.alone hi hph hold hph')

theorem Inv.unlock (h : Inv schema file w φ) (hi : φ i = some (k, ph)) (hph : ph.Holds)
    {update : Bool} (hupdate : ph = .acting → update = true) (c : Choice) :
    Inv schema file (w.next file i (.unlock update) c) (Function.update φ i (some (k, .over))) := by
  have hnone := h.none_holds hi hph
  constructor
  case wf => cases update <;> exact h.wf
  case generation => cases update <;> exact h.generation
  case holder => exact fun j k' ph' hj hph' ↦ absurd hph' (hnone j k' ph' hj)
  case inside => exact fun j k' known hj ↦ absurd trivial (hnone j k' _ hj)
  case acting => exact fun j k' hj ↦ absurd trivial (hnone j k' _ hj)
  case still =>
    intro k' b hsince
    cases update with
    | false => exact h.still k' b hsince
    | true =>
      rcases hsince with heq | ⟨-, hsince⟩
      · cases heq
      · exact h.still k' b hsince
  case left =>
    intro _ b hsince
    cases update with
    | false => exact h.left (h.not_acting hi hph fun heq ↦ by cases hupdate heq) b hsince
    | true =>
      rcases hsince with heq | ⟨hunfinished, -⟩
      · exact Event.finished.inj heq
      · exact absurd rfl (hunfinished.1 _)
  case due =>
    cases update with
    | false => exact h.due
    | true => exact ⟨trivial, h.due⟩

theorem Inv.outside (h : Inv schema file w φ) (f : Outside) (c : Choice) :
    Inv schema file (w.next file i (.outside f) c) (Function.update φ i (some (k, .over))) := by
  have hold {j : Nat} {k' : Caller σ ρ} {ph' : Phase}
      (hj : Function.update φ i (some (k, .over)) j = some (k', ph')) (hph' : ph' ≠ .over) :
      φ j = some (k', ph') := by
    rcases eq_of_update hj with ⟨-, heq⟩ | hj
    · cases heq
      exact absurd rfl hph'
    · exact hj
  constructor
  case wf => exact f.2 _ h.wf
  case generation => exact h.generation
  case holder =>
    intro j k' ph' hj hph'
    refine h.holder j k' ph' (hold hj ?_) hph'
    rintro rfl
    exact hph'
  case inside =>
    intro j k' known hj
    obtain ⟨outs, bytes, before, hlog, houts, -⟩ := h.inside j k' known (hold hj nofun)
    refine ⟨.outside :: outs, bytes, before, congrArg (Event.outside :: ·) hlog, ?_, nofun⟩
    exact List.forall_mem_cons.2 ⟨rfl, houts⟩
  case acting => exact fun j k' hj ↦ .inr ⟨nofun, h.acting j k' (hold hj nofun)⟩
  case still =>
    rintro k' b (heq | ⟨hstill, -⟩)
    · cases heq
    · exact absurd rfl hstill.2
  case left =>
    rintro - b (heq | ⟨hunfinished, -⟩)
    · cases heq
    · exact absurd rfl hunfinished.2
  case due => exact ⟨trivial, h.due⟩

/-- A call starts, or has returned. -/
theorem Inv.update (h : Inv schema file w φ) {x : Option (Caller σ ρ × Phase)}
    (hx : ∀ k ph, x = some (k, ph) → ¬ph.Holds)
    (hi : ∀ k ph, φ i = some (k, ph) → ¬ph.Holds) :
    Inv schema file w (Function.update φ i x) := by
  have hold {j : Nat} {k' : Caller σ ρ} {ph' : Phase}
      (hj : Function.update φ i x j = some (k', ph')) (hph' : ph'.Holds) :
      φ j = some (k', ph') := by
    by_cases hji : j = i
    · subst hji
      rw [Function.update_self] at hj
      exact absurd hph' (hx k' ph' hj)
    · rwa [Function.update_of_ne hji] at hj
  constructor
  case wf => exact h.wf
  case generation => exact h.generation
  case holder => exact fun j k' ph' hj hph' ↦ h.holder j k' ph' (hold hj hph') hph'
  case inside => exact fun j k' known hj ↦ h.inside j k' known (hold hj trivial)
  case acting => exact fun j k' hj ↦ h.acting j k' (hold hj trivial)
  case still => exact h.still
  case left =>
    refine fun hidle b hsince ↦ h.left (fun j k' hj ↦ ?_) b hsince
    have hji : j ≠ i := by
      rintro rfl
      exact hi k' .acting hj trivial
    exact hidle j k' (by rwa [Function.update_of_ne hji])
  case due => exact h.due

end Steps

/-! ### What a call did -/

/-- Where a call works, and whether it is an update. -/
def Caller.site : Caller σ ρ → Option (Place × Bool)
  | .observe place => some (place, false)
  | .update place _ _ => some (place, true)
  | .outside _ => none

/-- What a call returns, given what it was told of the file, and of its generation. -/
def Answers : Caller σ ρ → Option (Loaded σ × Nat) → Returned σ ρ → Prop
  | .observe _, told, r => ∃ loaded g, told = some (loaded, g) ∧ r = .observed loaded g
  | .update _ _ _, none, r => ∃ stop, r = .updated ⟨none, .error stop⟩
  | .update _ _ decide, some (loaded, g), r => match decide loaded g with
    | none => r = .panicked
    | some (_, given) =>
      ∃ result, r = .updated ⟨some loaded, result⟩ ∧ ∀ x, result = .ok x → x.1 = given
  | .outside _, _, _ => True

/-- What a call was told, as a protocol. -/
def tellProtocol (k : Caller σ ρ) (place : Place) (update : Bool) :
    Protocol (LockedOp σ) Reply (Caller σ ρ) (Returned σ ρ) (Option (Loaded σ × Nat)) where
  enter _ := none
  allows _
    | .fs place' _ => place' = place
    | .unlock update' => update' = update
    | .outside _ => False
    | _ => True
  after
    | _, .generation loaded, (g : Nat) => some (loaded, g)
    | told, _, _ => told
  leaves := Answers k

section Tells

variable {schema : Schema σ} {file : FileName} {role : Role} {k : Caller σ ρ} {place : Place}
  {update : Bool} {told : Option (Loaded σ × Nat)}

theorem tells_lift {α : Type} (p : Prog Call Ans α) :
    (lift place p).Follows (tellProtocol k place update) (fun _ told' ↦ told' = told) told := by
  induction p with
  | pure a => rfl
  | call o f ih => exact ⟨rfl, ih⟩

theorem tells_unlock {r : Returned σ ρ} (h : Answers k told r) :
    (ask (.unlock update) >>= fun _ ↦ Prog.pure r).Obeys (tellProtocol k place update) told :=
  ⟨rfl, fun _ ↦ h⟩

theorem tells_program (h : k.site = some (place, update)) :
    (program schema file role k).Obeys (tellProtocol k place update) none := by
  cases k with
  | outside f => cases h
  | observe place =>
    cases h
    refine ⟨trivial, fun _ ↦ (tells_lift (observe schema file)).bind ?_⟩
    rintro loaded _ rfl
    exact ⟨trivial, fun g ↦ tells_unlock ⟨loaded, g, rfl, rfl⟩⟩
  | update place passes decide =>
    cases h
    refine ⟨trivial, fun _ ↦ (tells_lift (look schema file).run).bind ?_⟩
    rintro looked _ rfl
    rcases looked with stop | ⟨dir, loaded⟩
    · exact tells_unlock ⟨stop, rfl⟩
    refine ⟨trivial, fun g ↦ ?_⟩
    change Prog.Follows _ (match decide loaded g with
      | none => _
      | some (change, result) => _) _ (some (loaded, g))
    rcases hchange : decide loaded g with - | ⟨change, given⟩
    · exact tells_unlock (by rw [Answers, hchange])
    have hanswers (result : Except Stop (ρ × UpdateOutcome × Option FileName))
        (hresult : ∀ x, result = .ok x → x.1 = given) :
        Answers (.update place passes decide) (some (loaded, g))
          (.updated ⟨some loaded, result⟩) := by
      rw [Answers, hchange]
      exact ⟨result, rfl, hresult⟩
    dsimp only
    cases schema.encodeChange change with
    | error error => exact tells_unlock (hanswers _ nofun)
    | ok bytes =>
      have hrest (told' : Option (Loaded σ × Nat)) (htold : told' = some (loaded, g)) :
          (lift place (apply file passes dir bytes (step role loaded change)).run >>= fun done ↦
            ask (.unlock true) >>= fun _ ↦ Prog.pure (.updated
              ⟨some loaded, done.map fun outcome ↦ (given, outcome)⟩)).Obeys
            (tellProtocol (.update place passes decide) place true) told' := by
        refine (tells_lift _).bind ?_
        rintro done _ rfl
        rw [htold]
        refine tells_unlock (hanswers _ fun x hx ↦ ?_)
        cases done with
        | error stop => cases hx
        | ok outcome =>
          cases hx
          rfl
      cases attempts dir (step role loaded change) with
      | true => exact ⟨trivial, fun _ ↦ hrest _ rfl⟩
      | false => exact hrest _ rfl

end Tells

/-- How far a call has come in its section of the history, up to the folder `t`. Where no other
process wrote, it went the way of its program without the lock. -/
structure Within (schema : Schema σ) (file : FileName) (role : Role) (i : Nat) (k : Caller σ ρ)
    (place : Place) (update : Bool) (q : Prog (LockedOp σ) Reply (Returned σ ρ)) (t : Shelf)
    (mid : List (Event σ)) (before : Option Bytes) (older : List (Event σ)) : Prop where
  alone : ∀ e ∈ mid, ∀ j b, e ≠ .locked j b
  told : ∃ told, (∀ loaded g, told = some (loaded, g) →
    g = moves older ∧ .observed i g loaded ∈ mid) ∧ q.Obeys (tellProtocol k place update) told
  course : (∀ e ∈ mid, e ≠ .outside) → ∃ s cs, s.bytesAt file = before ∧ ∀ ds,
    (unlocked (moves older) (program schema file role k)).run (surroundings place file) s
      (cs ++ ds) = (unlocked (moves older) q).run (surroundings place file) t ds

section Within

variable {schema : Schema σ} {file : FileName} {role : Role} {i : Nat} {k : Caller σ ρ}
  {place : Place} {update : Bool} {t : Shelf} {mid older : List (Event σ)} {before : Option Bytes}

variable {f : Unit → Prog (LockedOp σ) Reply (Returned σ ρ)}

theorem within_lock (hsite : k.site = some (place, update)) (i : Nat)
    (hq : program schema file role k = .call .lock f) (log : List (Event σ)) :
    Within schema file role i k place update (f ()) t [] (t.bytesAt file) log where
  alone := nofun
  told := by
    have htells : (program schema file role k).Obeys (tellProtocol k place update) none :=
      tells_program hsite
    rw [hq] at htells
    exact ⟨none, nofun, htells.2 ()⟩
  course _ := ⟨t, [], rfl, fun ds ↦ by rw [hq]; rfl⟩

theorem Within.fs {place' : Place} {o : Call} {f : Ans o → Prog (LockedOp σ) Reply (Returned σ ρ)}
    (h : Within schema file role i k place update (.call (.fs place' o) f) t mid before older)
    (c : Choice) :
    Within schema file role i k place update (f ((surroundings place' file).answer t o c))
      ((surroundings place' file).next t o c) mid before older := by
  obtain ⟨told, htold, rfl, hrest⟩ := h.told
  refine ⟨h.alone, ⟨told, htold, hrest _⟩, fun hmid ↦ ?_⟩
  obtain ⟨s, cs, hs, hrun⟩ := h.course hmid
  refine ⟨s, cs ++ [c], hs, fun ds ↦ ?_⟩
  rw [List.append_assoc]
  exact hrun (c :: ds)

theorem Within.generation {loaded : Loaded σ} {f : Nat → Prog (LockedOp σ) Reply (Returned σ ρ)}
    (h : Within schema file role i k place update (.call (.generation loaded) f) t mid before
      older) :
    Within schema file role i k place update (f (moves older)) t
      (.observed i (moves older) loaded :: mid) before older := by
  obtain ⟨told, htold, -, hrest⟩ := h.told
  refine ⟨List.forall_mem_cons.2 ⟨nofun, h.alone⟩, ⟨_, ?_, hrest (moves older)⟩, fun hmid ↦ ?_⟩
  · rintro _ _ ⟨⟩
    exact ⟨rfl, .head _⟩
  · exact h.course fun e he ↦ hmid e (.tail _ he)

theorem Within.bump
    (h : Within schema file role i k place update (.call .bump f) t mid before older) :
    Within schema file role i k place update (f ()) t (.attempt :: mid) before older := by
  obtain ⟨told, htold, -, hrest⟩ := h.told
  refine ⟨List.forall_mem_cons.2 ⟨nofun, h.alone⟩, ⟨told, fun loaded g heq ↦ ?_, hrest ()⟩, ?_⟩
  · exact ⟨(htold loaded g heq).1, .tail _ (htold loaded g heq).2⟩
  · exact fun hmid ↦ h.course fun e he ↦ hmid e (.tail _ he)

theorem Within.unlock {update' : Bool}
    (h : Within schema file role i k place update (.call (.unlock update') f) t mid before older) :
    update' = update ∧ Within schema file role i k place update (f ()) t mid before older := by
  obtain ⟨told, htold, hupdate, hrest⟩ := h.told
  exact ⟨hupdate, h.alone, ⟨told, htold, hrest ()⟩, h.course⟩

variable {q : Prog (LockedOp σ) Reply (Returned σ ρ)}

theorem Within.outside (h : Within schema file role i k place update q t mid before older)
    (t' : Shelf) :
    Within schema file role i k place update q t' (.outside :: mid) before older := by
  obtain ⟨told, htold, hrest⟩ := h.told
  refine ⟨List.forall_mem_cons.2 ⟨nofun, h.alone⟩, ⟨told, fun loaded g heq ↦ ?_, hrest⟩, ?_⟩
  · exact ⟨(htold loaded g heq).1, .tail _ (htold loaded g heq).2⟩
  · exact fun hmid ↦ absurd rfl (hmid _ (.head _))

/-- What is asserted of a call that takes the lock: where its section of the history is. -/
def Course (schema : Schema σ) (file : FileName) (role : Role) (w : World σ) (i : Nat)
    (k : Caller σ ρ) (ph : Phase) (q : Prog (LockedOp σ) Reply (Returned σ ρ)) : Prop :=
  ∀ place update, k.site = some (place, update) → (ph = .start → q = program schema file role k) ∧
    (ph.Holds → ∃ mid before older, w.log = mid ++ .locked i before :: older ∧
      Within schema file role i k place update q w.shelf mid before older) ∧
    (ph = .over → ∃ r newer t mid before older, q = .pure r ∧
      w.log = newer ++ ((if update then [.finished (t.bytesAt file)] else []) ++
        (mid ++ .locked i before :: older)) ∧
      Within schema file role i k place update q t mid before older)

/-- Where two parts of one history before a lock have no lock, they are the same. -/
theorem eq_of_locked {outs mid before older : List (Event σ)} {i j : Nat} {b b' : Option Bytes}
    (h : mid ++ .locked i b :: older = outs ++ .locked j b' :: before)
    (hmid : ∀ e ∈ mid, ∀ j b, e ≠ .locked j b) (houts : ∀ e ∈ outs, ∀ j b, e ≠ .locked j b) :
    mid = outs ∧ older = before := by
  induction mid generalizing outs with
  | nil =>
    cases outs with
    | nil => exact ⟨rfl, (List.cons_eq_cons.1 h).2⟩
    | cons e outs =>
      obtain ⟨rfl, -⟩ := List.cons_eq_cons.1 h
      exact absurd rfl (houts _ (.head _) i b)
  | cons e mid ih =>
    cases outs with
    | nil =>
      obtain ⟨rfl, -⟩ := List.cons_eq_cons.1 h
      exact absurd rfl (hmid _ (.head _) j b')
    | cons e' outs =>
      obtain ⟨rfl, hrest⟩ := List.cons_eq_cons.1 h
      obtain ⟨rfl, rfl⟩ := ih hrest (fun e he ↦ hmid e (.tail _ he))
        fun e he ↦ houts e (.tail _ he)
      exact ⟨rfl, rfl⟩

/-- A history only grows. -/
theorem log_next (file : FileName) (w : World σ) (i : Nat) (o : LockedOp σ) (c : Choice) :
    ∃ pre, (w.next file i o c).log = pre ++ w.log := by
  cases o with
  | fs place o => exact ⟨[], rfl⟩
  | lock => exact ⟨[_], rfl⟩
  | generation loaded => exact ⟨[_], rfl⟩
  | bump => exact ⟨[_], rfl⟩
  | unlock update =>
    cases update with
    | false => exact ⟨[], rfl⟩
    | true => exact ⟨[_], rfl⟩
  | outside f => exact ⟨[_], rfl⟩

/-- Only the first call of a program is made without the lock. -/
theorem holds_of_allows {ph : Phase} {o : LockedOp σ} (h : ph.allows schema file o)
    (hlock : o ≠ .lock) (houtside : ∀ f, o ≠ .outside f) : ph.Holds := by
  cases ph with
  | start =>
    cases o with
    | lock => exact absurd rfl hlock
    | outside f => exact absurd rfl (houtside f)
    | _ => exact h.elim
  | «over» => cases o <;> exact h.elim
  | _ => exact trivial

/-- After its section a call returns. -/
theorem pure_of_over (h : q.Obeys (callProtocol schema file : CallProtocol σ ρ) .over) :
    ∃ r, q = .pure r := by
  cases q with
  | pure r => exact ⟨r, rfl⟩
  | call o f => exact absurd h.1 (by cases o <;> exact id)

end Within

section Carries

variable {schema : Schema σ} {file : FileName} {role : Role}

/-- The lock is dropped, and the section ends. -/
theorem Within.ends {w : World σ} {i : Nat} {k : Caller σ ρ} {place : Place}
    {update update' : Bool} {f : Unit → Prog (LockedOp σ) Reply (Returned σ ρ)}
    {mid older : List (Event σ)} {before : Option Bytes}
    (h : Within schema file role i k place update (.call (.unlock update') f) w.shelf mid before
      older)
    (hlog : w.log = mid ++ .locked i before :: older)
    (hobeys : (f ()).Obeys (callProtocol schema file : CallProtocol σ ρ) .over) (c : Choice) :
    ∃ r newer t mid before older, f () = .pure r ∧ (w.next file i (.unlock update') c).log =
        newer ++ ((if update then [.finished (t.bytesAt file)] else []) ++
          (mid ++ .locked i before :: older)) ∧
      Within schema file role i k place update (f ()) t mid before older := by
  obtain ⟨r, hr⟩ := pure_of_over hobeys
  obtain ⟨rfl, hwithin⟩ := h.unlock
  refine ⟨r, [], w.shelf, mid, before, older, hr, ?_, hwithin⟩
  cases update' with
  | false => exact hlog
  | true => exact congrArg (Event.finished (w.shelf.bytesAt file) :: ·) hlog

variable {φ : Nat → Option (Caller σ ρ × Phase)}

/-- The own calls of a task keep what is asserted of it. -/
theorem Course.own {w : World σ} {i : Nat} {k : Caller σ ρ} {ph : Phase} {o : LockedOp σ}
    {f : Reply o → Prog (LockedOp σ) Reply (Returned σ ρ)} (hinv : Inv schema file w φ)
    (hi : φ i = some (k, ph)) (hallows : ph.allows schema file o) (c : Choice)
    (hobeys : (f (w.reply file c o)).Obeys (callProtocol schema file : CallProtocol σ ρ)
      (ph.after o (w.reply file c o)))
    (h : Course schema file role w i k ph (.call o f)) :
    Course schema file role (w.next file i o c) i k (ph.after o (w.reply file c o))
      (f (w.reply file c o)) := by
  intro place update hsite
  obtain ⟨hstart, hholds, -⟩ := h place update hsite
  cases ph with
  | start =>
    have hq := hstart rfl
    cases o with
    | lock => exact ⟨nofun, fun _ ↦ ⟨[], _, w.log, rfl, within_lock hsite i hq.symm _⟩, nofun⟩
    | outside f' =>
      cases k with
      | outside f => cases hsite
      | observe place => cases hq
      | update place passes decide => cases hq
    | _ => exact hallows.elim
  | «over» => exact absurd hallows (by cases o <;> exact id)
  | inside known =>
    obtain ⟨mid, before, older, hlog, hwithin⟩ := hholds trivial
    cases o with
    | fs place' o => exact ⟨nofun, fun _ ↦ ⟨mid, before, older, hlog, hwithin.fs c⟩, nofun⟩
    | generation loaded =>
      -- Only other processes wrote since the lock, so the generation is that of the lock.
      obtain ⟨outs, _, before', hlog', houts, -⟩ := hinv.inside i k known hi
      obtain ⟨rfl, rfl⟩ := eq_of_locked (hlog.symm.trans hlog') hwithin.alone
        fun e he ↦ by rw [houts e he]; exact nofun
      have hgeneration : w.generation = moves older := by
        rw [hinv.generation, hlog, moves_append, moves, moves_outside houts, Nat.zero_add]
      refine ⟨nofun, fun _ ↦ ⟨.observed i (moves older) loaded :: mid, before, older, ?_, ?_⟩,
        nofun⟩
      · change Event.observed i w.generation loaded :: w.log = _
        rw [hgeneration, hlog, List.cons_append]
      · change Within _ _ _ _ _ _ _ (f w.generation) _ _ _ _
        rw [hgeneration]
        exact hwithin.generation
    | unlock update' => exact ⟨nofun, False.elim, fun _ ↦ hwithin.ends hlog hobeys c⟩
    | _ => exact hallows.elim
  | ready =>
    obtain ⟨mid, before, older, hlog, hwithin⟩ := hholds trivial
    cases o with
    | bump =>
      exact ⟨nofun, fun _ ↦ ⟨.attempt :: mid, before, older, congrArg (Event.attempt :: ·) hlog,
        hwithin.bump⟩, nofun⟩
    | unlock update' => exact ⟨nofun, False.elim, fun _ ↦ hwithin.ends hlog hobeys c⟩
    | _ => exact hallows.elim
  | acting =>
    obtain ⟨mid, before, older, hlog, hwithin⟩ := hholds trivial
    cases o with
    | fs place' o => exact ⟨nofun, fun _ ↦ ⟨mid, before, older, hlog, hwithin.fs c⟩, nofun⟩
    | unlock update' => exact ⟨nofun, False.elim, fun _ ↦ hwithin.ends hlog hobeys c⟩
    | _ => exact hallows.elim

/-- So do the calls of the others: while it holds the lock, only other processes write. -/
theorem Course.other {w : World σ} {i j : Nat} {k k' : Caller σ ρ} {ph ph' : Phase} {o : LockedOp σ}
    {q : Prog (LockedOp σ) Reply (Returned σ ρ)} (hinv : Inv schema file w φ)
    (hi : φ i = some (k, ph)) (hallows : ph.allows schema file o)
    (hfree : o = .lock → w.holder = none) (c : Choice) (hne : j ≠ i) (hj : φ j = some (k', ph'))
    (h : Course schema file role w j k' ph' q) :
    Course schema file role (w.next file i o c) j k' ph' q := by
  intro place update hsite
  obtain ⟨hstart, hholds, hover⟩ := h place update hsite
  refine ⟨hstart, fun hph' ↦ ?_, fun hph' ↦ ?_⟩
  · obtain ⟨mid, before, older, hlog, hwithin⟩ := hholds hph'
    by_cases houtside : ∃ f, o = .outside f
    · obtain ⟨f, rfl⟩ := houtside
      exact ⟨.outside :: mid, before, older, congrArg (Event.outside :: ·) hlog, hwithin.outside _⟩
    have hlock : o ≠ .lock := by
      rintro rfl
      have hholder := hinv.holder j k' ph' hj hph'
      rw [hfree rfl] at hholder
      cases hholder
    have hph := holds_of_allows hallows hlock (not_exists.1 houtside)
    exact absurd (hinv.alone hi hph hj hph') hne
  · obtain ⟨r, newer, t, mid, before, older, hq, hlog, hwithin⟩ := hover hph'
    obtain ⟨pre, hpre⟩ := log_next file w i o c
    refine ⟨r, pre ++ newer, t, mid, before, older, hq, ?_, hwithin⟩
    rw [hpre, hlog, List.append_assoc pre]

theorem carries : (callers file schema role).Carries
    (callProtocol schema file : CallProtocol σ ρ) (Inv schema file) (fun _ _ ↦ True)
    fun w _ ↦ Course schema file role w where
  enter _ _ _ _ := fun _ _ _ ↦ ⟨fun _ ↦ rfl, False.elim, nofun⟩
  spawn _ _ _ := id
  own := by
    intro p φ i c k o f ph htracked h _ ht hi hallows _ _ _ hR
    obtain ⟨ph', hφ, hobeys⟩ := htracked.here ht
    obtain ⟨-, rfl⟩ := Prod.mk.inj (Option.mem_unique hφ hi)
    exact hR.own h hi hallows c (hobeys.2 _)
  advance := by
    intro p φ i c k o f ph j k' ph' q _ h _ _ hi hallows henabled _ hne hj hR
    refine hR.other h hi hallows ?_ c hne hj
    rintro rfl
    exact Option.isNone_iff_eq_none.1 henabled
  finish _ _ _ _ _ _ _ _ := id
  drop _ _ _ _ _ _ hdrop := nomatch hdrop

end Carries

/-! ### Runs -/

section Runs

variable (schema : Schema σ) (file : FileName) (role : Role)

theorem keeps : (callers file schema role).Keeps (callProtocol schema file : CallProtocol σ ρ)
    (Inv schema file) fun _ _ ↦ True where
  follows := obeys_program role
  spawn := by
    intro p φ k _ h _ _ hfresh
    refine h.update ?_ ?_
    · rintro k ph ⟨⟩
      exact id
    · intro k ph hi
      rw [hfresh] at hi
      cases hi
  advance := by
    intro p φ i c k o f ph _ h _ _ hi hallows henabled _ _
    change Inv schema file (p.shared.next file i o c) (Function.update φ i (some (k, _)))
    cases ph with
    | start =>
      cases o with
      | lock => exact h.lock (Option.isNone_iff_eq_none.1 henabled) c
      | outside f' => exact h.outside f' c
      | _ => exact hallows.elim
    | inside known =>
      cases o with
      | fs place o => exact h.look hi place hallows c
      | generation loaded => exact h.observe hi hallows c
      | unlock update => exact h.unlock hi trivial nofun c
      | _ => exact hallows.elim
    | ready =>
      cases o with
      | bump => exact h.bump hi c
      | unlock update => exact h.unlock hi trivial nofun c
      | _ => exact hallows.elim
    | acting =>
      cases o with
      | fs place o => exact h.act hi place o c
      | unlock update =>
        cases update with
        | true => exact h.unlock hi trivial (fun _ ↦ rfl) c
        | false => exact hallows.elim
      | _ => exact hallows.elim
    | «over» => cases o <;> exact hallows.elim
  finish := by
    intro p φ i k r ph _ h _ _ hi hleaves
    obtain rfl : ph = .over := hleaves
    refine h.update nofun ?_
    intro k' ph hph
    rw [hi] at hph
    cases hph
    exact id
  drop := by
    intro p φ i k o f ph _ _ _ _ _ _ hdrop
    cases hdrop

/-- What holds of the history and of each call in every run. -/
theorem course_of_exec {shelf : Shelf} (h : Wf shelf) (ls : List (Label Choice (Caller σ ρ))) :
    Justified (Due schema)
        ((callers file schema role).exec (.idle (World.initial file shelf)) ls).shared.log ∧
      ∀ i k r, ((callers file schema role).exec (.idle (World.initial file shelf)) ls).tasks i =
        some ⟨k, .pure r⟩ →
        Course schema file role
          ((callers file schema role).exec (.idle (World.initial file shelf)) ls).shared i k .over
          (.pure r) := by
  obtain ⟨φ, htracked, hinv, hcourse⟩ := System.exec_of_carries (keeps schema file role) carries
    (tracked_idle _) (inv_initial h) (fun _ _ _ ht ↦ nomatch ht) (System.along_true _ ls)
  refine ⟨hinv.due, fun i k r ht ↦ ?_⟩
  obtain ⟨ph, hφ, hleaves⟩ := htracked.here ht
  obtain rfl : ph = .over := hleaves
  exact hcourse i _ _ ht hφ

end Runs

/-! ### What observations have in common -/

theorem ne_attempt_of_moves {log : List (Event σ)} (h : moves log = 0) :
    ∀ e ∈ log, e ≠ .attempt := by
  induction log with
  | nil => exact nofun
  | cons e log ih =>
    cases e with
    | attempt => cases h
    | _ => exact List.forall_mem_cons.2 ⟨nofun, ih h⟩

/-- Where no other process wrote since an event that is not the lock of an observation, the lock is
right before the observation. -/
theorem locked_last {outs mid before older : List (Event σ)} {e : Event σ} {j : Nat}
    {bytes : Option Bytes} (h : mid ++ e :: older = outs ++ Event.locked j bytes :: before)
    (houts : ∀ e ∈ outs, e = .outside) (hmid : ∀ e ∈ mid, e ≠ .outside) (he : e ≠ .outside)
    (hlock : e ≠ .locked j bytes) :
    outs = [] ∧ ∃ mid', mid = .locked j bytes :: mid' ∧ before = mid' ++ e :: older := by
  cases outs with
  | nil =>
    cases mid with
    | nil => exact absurd (List.cons_eq_cons.1 h).1 hlock
    | cons e' mid' =>
      obtain ⟨rfl, hrest⟩ := List.cons_eq_cons.1 h
      exact ⟨rfl, mid', rfl, hrest.symm⟩
  | cons out outs =>
    obtain rfl := houts out (.head _)
    cases mid with
    | nil => exact absurd (List.cons_eq_cons.1 h).1 he
    | cons e' mid' => exact absurd (List.cons_eq_cons.1 h).1 (hmid e' (.head _))

/-- What an update did that returns `r`. It held the lock for a section of the history, which starts
with what the last one left, and decided by what it was told in there, with the generation of the
lock. Where no other process wrote in the section, the file went the way of `Backups.update`. -/
def Serial (schema : Schema σ) (file : FileName) (role : Role) (log : List (Event σ)) (i : Nat)
    (place : Place) (passes : Nat) (decide : Loaded σ → Nat → Option (Change σ × ρ))
    (r : Returned σ ρ) : Prop :=
  ∃ (newer mid older : List (Event σ)) (before after : Option Bytes),
    log = newer ++ .finished after :: (mid ++ .locked i before :: older) ∧
    (∀ e ∈ mid, ∀ j b, e ≠ .locked j b) ∧
    (∀ b, Since Unfinished (· = .finished b) older → before = b) ∧
    (∃ told, (∀ loaded g, told = some (loaded, g) →
        g = moves older ∧ .observed i g loaded ∈ mid) ∧
      Answers (.update place passes decide) told r) ∧
    ((∀ e ∈ mid, e ≠ .outside) → ∀ u, r = .updated u → ∀ decided : Loaded σ → Change σ × ρ,
      (∀ loaded x, decide loaded (moves older) = some x → decided loaded = x) →
      ∃ s t cs, s.bytesAt file = before ∧ t.bytesAt file = after ∧
        (update schema file role passes decided).run (surroundings place file) s cs =
          (some u, t, []))

theorem serial_of_course {schema : Schema σ} {file : FileName} {role : Role} {w : World σ}
    {i : Nat} {place : Place} {passes : Nat} {decide : Loaded σ → Nat → Option (Change σ × ρ)}
    {r : Returned σ ρ} (hdue : Justified (Due schema) w.log)
    (h : Course schema file role w i (.update place passes decide) .over (.pure r)) :
    Serial schema file role w.log i place passes decide r := by
  obtain ⟨-, newer, t, mid, before, older, -, hlog, hwithin⟩ := (h place true rfl).2.2 rfl
  have hsplit : w.log = newer ++ .finished (t.bytesAt file) :: (mid ++ .locked i before :: older) :=
    hlog
  refine ⟨newer, mid, older, before, t.bytesAt file, hsplit, hwithin.alone, ?_, hwithin.told, ?_⟩
  · have hlater := hdue
    rw [hsplit, ← List.singleton_append, ← List.append_assoc, ← List.append_assoc] at hlater
    exact hlater.of_split.2
  · rintro hmid u rfl decided hdecided
    obtain ⟨s, cs, hs, hrun⟩ := hwithin.course hmid
    refine ⟨s, t, cs, hs, rfl, update_of_unlocked hdecided ?_⟩
    have hall := hrun []
    rw [List.append_nil] at hall
    exact hall

/-- Two observations of one generation were made with no attempt to write in between, from the lock
of the first on, and saw the same bytes if no other process wrote; what an observation saw is what
the last update left; a call returns the observation it made; and no update is lost. -/
theorem observations_agree (schema : Schema σ) (file : FileName) (role : Role) {shelf : Shelf}
    (h : Wf shelf) (ls : List (Label Choice (Caller σ ρ))) :
    (∀ (newer mid older : List (Event σ)) i j g loaded loaded',
      ((callers file schema role).exec (.idle (World.initial file shelf)) ls).shared.log =
        newer ++ Event.observed j g loaded' :: (mid ++ Event.observed i g loaded :: older) →
      (∀ e ∈ mid, e ≠ .attempt) ∧
      ∃ (outs : List (Event σ)) (bytes : Option Bytes) (before : List (Event σ)),
        older = outs ++ Event.locked i bytes :: before ∧ (∀ e ∈ outs, e = .outside) ∧
        (outs = [] → (∀ e ∈ mid, e ≠ .outside) →
          Sees schema bytes loaded ∧ Sees schema bytes loaded')) ∧
    (∀ (newer mid older : List (Event σ)) j g loaded bytes,
      ((callers file schema role).exec (.idle (World.initial file shelf)) ls).shared.log =
        newer ++ Event.observed j g loaded :: (mid ++ Event.finished bytes :: older) →
      (∀ e ∈ mid, Unfinished e) → Sees schema bytes loaded) ∧
    (∀ i place (r : Returned σ ρ),
      ((callers file schema role).exec (.idle (World.initial file shelf)) ls).tasks i =
        some ⟨.observe place, .pure r⟩ →
      ∃ loaded g, r = .observed loaded g ∧ .observed i g loaded ∈
        ((callers file schema role).exec (.idle (World.initial file shelf)) ls).shared.log) ∧
    ∀ i place passes decide (r : Returned σ ρ),
      ((callers file schema role).exec (.idle (World.initial file shelf)) ls).tasks i =
        some ⟨.update place passes decide, .pure r⟩ →
      Serial schema file role
        ((callers file schema role).exec (.idle (World.initial file shelf)) ls).shared.log
        i place passes decide r := by
  obtain ⟨hdue, hcourse⟩ := course_of_exec schema file role h ls
  -- What the lock right before an observation has to do with the history before it.
  have hlocked {newer before : List (Event σ)} {j g : Nat} {loaded : Loaded σ}
      {bytes : Option Bytes}
      (hlog : ((callers file schema role).exec (.idle (World.initial file shelf)) ls).shared.log =
        newer ++ Event.observed j g loaded :: Event.locked j bytes :: before) :
      Due schema before (.locked j bytes) := by
    rw [hlog, ← List.singleton_append, ← List.append_assoc] at hdue
    exact hdue.of_split
  refine ⟨?_, ?_, fun i place r ht ↦ ?_, fun i place passes decide r ht ↦ ?_⟩
  · intro newer mid older i j g loaded loaded' hlog
    have hlater := hdue
    rw [hlog] at hlater
    obtain ⟨hg', outs', bytes', before', hsplit, houts', hsees'⟩ := hlater.of_split
    rw [← List.singleton_append, ← List.append_assoc, ← List.append_assoc] at hlater
    obtain ⟨hg, outs, bytes, before, rfl, houts, hsees⟩ := hlater.of_split
    have hmoves : moves mid = 0 := by
      have happend := moves_append mid (.observed i g loaded :: (outs ++ .locked i bytes :: before))
      rw [← hg', moves, ← hg] at happend
      omega
    have hattempts := ne_attempt_of_moves hmoves
    refine ⟨hattempts, outs, bytes, before, rfl, houts, fun hnil hstill ↦ ⟨hsees hnil, ?_⟩⟩
    subst hnil
    obtain ⟨rfl, mid', rfl, rfl⟩ := locked_last hsplit houts' hstill nofun nofun
    have hsince : Since Still (· = .locked i bytes)
        (mid' ++ .observed i g loaded :: .locked i bytes :: before) := by
      rw [← List.singleton_append, ← List.append_assoc]
      refine since_of_split rfl fun e he ↦ ?_
      rcases List.mem_append.1 he with he | he
      · exact ⟨hattempts e (.tail _ he), hstill e (.tail _ he)⟩
      · rw [List.mem_singleton.1 he]
        exact ⟨nofun, nofun⟩
    obtain rfl := (hlocked hlog).1 i bytes hsince
    exact hsees' rfl
  · intro newer mid older j g loaded bytes hlog hmid
    have hlater := hdue
    rw [hlog] at hlater
    obtain ⟨-, outs, bytes', before, hsplit, houts, hsees⟩ := hlater.of_split
    obtain ⟨rfl, mid', rfl, rfl⟩ := locked_last hsplit houts (fun e he ↦ (hmid e he).2) nofun nofun
    obtain rfl := (hlocked hlog).2 bytes
      (since_of_split rfl fun e he ↦ hmid e (.tail _ he))
    exact hsees rfl
  · obtain ⟨-, newer, t, mid, before, older, -, hlog, hwithin⟩ :=
      (hcourse i _ r ht place false rfl).2.2 rfl
    obtain ⟨told, htold, loaded, g, rfl, rfl⟩ := hwithin.told
    refine ⟨loaded, g, rfl, ?_⟩
    rw [hlog]
    exact List.mem_append_right _ (List.mem_append_right _ (List.mem_append_left _
      (htold loaded g rfl).2))
  · exact serial_of_course hdue (hcourse i _ r ht)

/-- Two threads observe a file, one after the other. -/
def twoObservations : List (Label Choice (Caller Unit Unit)) :=
  [Label.spawn (Caller.observe samplePlace), .spawn (.observe samplePlace)] ++
    List.replicate 6 (Label.advance 0 calm) ++ List.replicate 6 (Label.advance 1 calm)

/-- What they did. -/
theorem log_twoObservations :
    ((callers ['s'] sampleSchema .decision).exec (.idle (World.initial ['s'] sampleShelf))
      twoObservations).shared.log =
      [Event.observed 1 0 (readOf sampleSchema (some [9, 0])), .locked 1 (some [9, 0]),
        .observed 0 0 (readOf sampleSchema (some [9, 0])), .locked 0 (some [9, 0]),
        .finished (some [9, 0])] := rfl

/-- An update. -/
def anUpdate : List (Label Choice (Caller Unit Unit)) :=
  .spawn (.update samplePlace 2 fun loaded _ ↦ some (sampleDecide loaded)) ::
    List.replicate 20 (.advance 0 calm)

theorem observations_agree_sample :
    Sees sampleSchema (some [9, 0]) (readOf sampleSchema (some [9, 0])) ∧
      (∀ e ∈ [(.locked 1 (some [9, 0]) : Event Unit)], e ≠ .attempt) ∧
      Serial sampleSchema ['s'] .decision
        ((callers ['s'] sampleSchema .decision).exec (.idle (World.initial ['s'] sampleShelf))
          anUpdate).shared.log
        0 samplePlace 2 (fun loaded _ ↦ some (sampleDecide loaded))
        (.updated ⟨some (readOf sampleSchema (some [9, 0])), .ok ((), .stored, none)⟩) := by
  have hagree := observations_agree sampleSchema ['s'] .decision sampleShelf_wf twoObservations
  have hmid : ∀ e ∈ [(.locked 0 (some [9, 0]) : Event Unit)], Unfinished e := by
    rintro e he
    rw [List.mem_singleton.1 he]
    exact ⟨nofun, nofun⟩
  have hnewer : [Event.observed 1 0 (readOf sampleSchema (some [9, 0])),
      .locked 1 (some [9, 0])] ++ Event.observed 0 0 (readOf sampleSchema (some [9, 0])) ::
        ([Event.locked 0 (some [9, 0])] ++ [Event.finished (some [9, 0])]) = _ :=
    log_twoObservations.symm
  have hpair : [] ++ Event.observed 1 0 (readOf sampleSchema (some [9, 0])) ::
      ([Event.locked 1 (some [9, 0])] ++ Event.observed 0 0 (readOf sampleSchema (some [9, 0])) ::
        [Event.locked 0 (some [9, 0]), .finished (some [9, 0])]) = _ :=
    log_twoObservations.symm
  refine ⟨hagree.2.1 _ _ _ _ _ _ _ hnewer.symm hmid, (hagree.1 _ _ _ _ _ _ _ _ hpair.symm).1, ?_⟩
  exact (observations_agree sampleSchema ['s'] .decision sampleShelf_wf anUpdate).2.2.2 0
    samplePlace 2 _ _ rfl

end Hole.State.Backups
