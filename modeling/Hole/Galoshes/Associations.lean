import Mathlib.Logic.Function.Basic
import Hole.Galoshes.Framing

/-!
# The UDP associations of a session

`run_client_session` of `galoshes` (`crates/galoshes/src/yamux.rs`) keeps one association for each
local peer that sends datagrams: a task (`run_udp_association`) behind a bounded channel. An entry
of the table names the association by its *generation*. A task may end at any time. It tells the
loop, which may hear of it after a datagram has met the closed channel and put a new association in
place of the old one.
-/

namespace Hole.Galoshes

open Function (update_self update_of_ne update)

variable {Peer : Type} [DecidableEq Peer]

/-! ### A session -/

/-- Where an association is in `run_udp_association`. -/
inductive Phase
  /-- The stream is opened, or its tag written. -/
  | opening
  | relaying
  /-- The loop is over, and the channel still open. -/
  | broken
  | closing
  /-- `cleanup_tx` is sent to. -/
  | reporting
  | leaving
  | returned
  deriving DecidableEq

/-- An association. -/
structure Association (Peer : Type) where
  peer : Peer
  phase : Phase
  queue : List Bytes
  closed : Bool

/-- The loop of a session, and the associations that it has spawned, by generation. The counter of
the source has 64 bits, which no session uses up. -/
structure Session (Peer : Type) where
  associations : Peer → Option Nat
  nextGen : Nat
  tasks : Nat → Option (Association Peer)
  /-- The messages for the loop. -/
  cleanup : List (Peer × Nat)

/-- `UDP_ASSOC_CHANNEL_CAPACITY`. -/
def udpAssocChannelCapacity : Nat := 64

/-- The capacity of the channel of `cleanup_tx`. -/
def cleanupCapacity : Nat := 64

/-- What `try_send` answers. -/
inductive TrySend
  | ok
  | full
  | closed

/-- `try_send`: the answer, and the association after it. -/
def Association.trySend (a : Association Peer) (payload : Bytes) : TrySend × Association Peer :=
  if a.closed then (.closed, a)
  else if a.queue.length < udpAssocChannelCapacity then
    (.ok, { a with queue := a.queue ++ [payload] })
  else (.full, a)

/-- What happens. -/
inductive Label (Peer : Type)
  /-- The socket has a datagram of a peer. -/
  | datagram (peer : Peer) (payload : Bytes)
  | opened (g : Nat)
  | openFailed (g : Nat)
  /-- A datagram is taken out of the channel. -/
  | forward (g : Nat)
  | stop (g : Nat)
  | close (g : Nat)
  | closed (g : Nat)
  | report (g : Nat)
  | drop (g : Nat)
  | deliver (n : Nat)

namespace Session

variable (s : Session Peer)

/-- A session before its first datagram. -/
def start : Session Peer := ⟨fun _ ↦ none, 0, fun _ ↦ none, []⟩

/-- Spawn an association for a peer, with its first datagram. -/
def spawn (peer : Peer) (payload : Bytes) : Session Peer :=
  let task : Association Peer := ⟨peer, .opening, [], false⟩
  { s with
    associations := update s.associations peer (some s.nextGen)
    nextGen := s.nextGen + 1
    tasks := update s.tasks s.nextGen (some (task.trySend payload).2) }

/-- A datagram of a peer: the channel that it was handed to, and what that leaves. -/
def datagram (peer : Peer) (payload : Bytes) : Option Nat × Session Peer :=
  match s.associations peer with
  | none => (some s.nextGen, s.spawn peer payload)
  | some g =>
    match s.tasks g with
    | none => (none, s)
    | some a =>
      match a.trySend payload with
      | (.ok, a') => (some g, { s with tasks := update s.tasks g (some a') })
      | (.full, _) => (none, s)
      | (.closed, _) =>
        let removed := { s with associations := update s.associations peer none }
        (some s.nextGen, removed.spawn peer payload)

/-- A step of a task: what the phase allows. -/
def advance (g : Nat) (f : Association Peer → Option (Association Peer)) : Session Peer :=
  match (s.tasks g).bind f with
  | some a => { s with tasks := update s.tasks g (some a) }
  | none => s

/-- A task goes from one phase to another. -/
def goes (before after : Phase) (closes : Bool) (a : Association Peer) :
    Option (Association Peer) :=
  if a.phase = before then some { a with phase := after, closed := a.closed || closes } else none

/-- A relaying task takes a datagram out of its channel. -/
def takes (a : Association Peer) : Option (Association Peer) :=
  if a.phase = .relaying ∧ a.queue ≠ [] then some { a with queue := a.queue.tail } else none

/-- A task returns, and its receiver is dropped. -/
def drops (a : Association Peer) : Option (Association Peer) :=
  if a.phase = .leaving then some { a with phase := .returned, queue := [], closed := true }
  else none

/-- A message of a task, if there is room. -/
def report (g : Nat) : Session Peer :=
  match s.tasks g with
  | some a =>
    if a.phase = .reporting ∧ s.cleanup.length < cleanupCapacity then
      { s with
        tasks := update s.tasks g (some { a with phase := .leaving })
        cleanup := s.cleanup ++ [(a.peer, g)] }
    else s
  | none => s

/-- The loop hears of the end of an association. -/
def deliver (n : Nat) : Session Peer :=
  match s.cleanup[n]? with
  | some (peer, g) =>
    let heard := { s with cleanup := s.cleanup.eraseIdx n }
    if s.associations peer = some g then
      { heard with associations := update s.associations peer none }
    else heard
  | none => s

/-- One step. -/
def step : Label Peer → Session Peer
  | .datagram peer payload => (s.datagram peer payload).2
  | .opened g => s.advance g (goes .opening .relaying false)
  | .openFailed g => s.advance g (goes .opening .reporting false)
  | .forward g => s.advance g takes
  | .stop g => s.advance g (goes .relaying .broken false)
  | .close g => s.advance g (goes .broken .closing true)
  | .closed g => s.advance g (goes .closing .reporting false)
  | .report g => s.report g
  | .drop g => s.advance g drops
  | .deliver n => s.deliver n

/-- A run. -/
def run (labels : List (Label Peer)) : Session Peer := labels.foldl step s

/-- Every task has returned, and the loop has heard of all of them. -/
def Settled : Prop := (∀ g a, s.tasks g = some a → a.phase = .returned) ∧ s.cleanup = []

end Session

/-! ### What holds in a run -/

/-- Where a datagram of a peer goes: into the open channel of the peer's association, nowhere if
that is full, and else into the channel of a new association. -/
inductive Handed (s : Session Peer) (peer : Peer) (payload : Bytes) :
    Option Nat → Session Peer → Prop
  | queued {g : Nat} {a : Association Peer} (hentry : s.associations peer = some g)
      (htask : s.tasks g = some a) (hopen : a.closed = false) :
      Handed s peer payload (some g)
        { s with tasks :=
            update s.tasks g (some { a with queue := a.queue ++ [payload] }) }
  | full {g : Nat} {a : Association Peer} (hentry : s.associations peer = some g)
      (htask : s.tasks g = some a) (hopen : a.closed = false)
      (hfull : udpAssocChannelCapacity ≤ a.queue.length) : Handed s peer payload none s
  | fresh (hclosed : ∀ g, s.associations peer = some g → ∃ a, s.tasks g = some a ∧ a.closed)
      (hfresh : s.tasks s.nextGen = none) :
      Handed s peer payload (some s.nextGen)
        { s with
          associations := update s.associations peer (some s.nextGen)
          nextGen := s.nextGen + 1
          tasks := update s.tasks s.nextGen (some ⟨peer, .opening, [payload], false⟩) }

/-- What the table of a session keeps to. -/
structure Orderly (s : Session Peer) : Prop where
  /-- An entry is the newest association of its peer. -/
  newest : ∀ peer g, s.associations peer = some g → (∃ a, s.tasks g = some a ∧ a.peer = peer) ∧
      ∀ g' a', s.tasks g' = some a' → a'.peer = peer → g' ≤ g
  /-- A message removes the entry that it names, and no other. -/
  hears : ∀ n peer g, s.cleanup[n]? = some (peer, g) → ∀ other, (s.deliver n).associations other =
      if other = peer ∧ s.associations peer = some g then none else s.associations other
  datagram : ∀ peer payload,
    Handed s peer payload (s.datagram peer payload).1 (s.datagram peer payload).2
  /-- Nothing else is put into a channel. -/
  others : ∀ label, (∀ peer payload, label ≠ .datagram peer payload) → ∀ g a',
    (s.step label).tasks g = some a' → ∃ a, s.tasks g = some a ∧ a'.queue <:+ a.queue
  settled : s.Settled → ∀ peer, s.associations peer = none

/-- An association has sent its message. -/
def Association.Told (a : Association Peer) : Prop := a.phase = .leaving ∨ a.phase = .returned

/-- The invariant. -/
structure Inv (s : Session Peer) : Prop where
  spawned : ∀ g, s.nextGen ≤ g → s.tasks g = none
  entry : ∀ peer g, s.associations peer = some g → ∃ a, s.tasks g = some a ∧ a.peer = peer
  newest : ∀ peer g, s.associations peer = some g →
    ∀ g' a', s.tasks g' = some a' → a'.peer = peer → g' ≤ g
  /-- The message of an association that is over and still in the table has not been heard. -/
  told : ∀ peer g a, s.associations peer = some g → s.tasks g = some a → a.Told →
    (peer, g) ∈ s.cleanup

section Inv

variable {s : Session Peer}

omit [DecidableEq Peer] in
theorem inv_start : Inv (Session.start : Session Peer) where
  spawned _ _ := rfl
  entry _ _ h := by cases h
  newest _ _ h := by cases h
  told _ _ _ h := by cases h

omit [DecidableEq Peer] in
/-- A task after one is set. -/
theorem of_update {tasks : Nat → Option (Association Peer)} {g g' : Nat} {a b : Association Peer}
    (h : update tasks g (some a) g' = some b) :
    (g' = g ∧ b = a) ∨ (g' ≠ g ∧ tasks g' = some b) := by
  obtain rfl | hne := eq_or_ne g' g
  · rw [update_self] at h
    exact .inl ⟨rfl, (Option.some.inj h).symm⟩
  · rw [update_of_ne hne] at h
    exact .inr ⟨hne, h⟩

omit [DecidableEq Peer] in
/-- One task goes on, and more messages may be sent. -/
theorem Inv.update (h : Inv s) {g : Nat} {a a' : Association Peer} (ha : s.tasks g = some a)
    (hpeer : a'.peer = a.peer) {cleanup : List (Peer × Nat)} (hsub : s.cleanup ⊆ cleanup)
    (htold : a'.Told → a.Told ∨ (a.peer, g) ∈ cleanup) :
    Inv { s with tasks := update s.tasks g (some a'), cleanup := cleanup } where
  spawned g' hg' := by
    have hnone := h.spawned g' hg'
    obtain rfl | hne := eq_or_ne g' g
    · rw [ha] at hnone
      cases hnone
    · exact (update_of_ne hne _ _).trans hnone
  entry peer g' hentry := by
    obtain ⟨b, hb, hbpeer⟩ := h.entry peer g' hentry
    obtain rfl | hne := eq_or_ne g' g
    · obtain rfl := Option.mem_unique hb ha
      exact ⟨a', update_self .., hpeer.trans hbpeer⟩
    · exact ⟨b, (update_of_ne hne _ _).trans hb, hbpeer⟩
  newest peer g' hentry g'' b' hb' hbpeer := by
    obtain ⟨rfl, rfl⟩ | ⟨-, hb⟩ := of_update hb'
    · exact h.newest peer g' hentry g'' a ha (hpeer.symm.trans hbpeer)
    · exact h.newest peer g' hentry g'' b' hb hbpeer
  told peer g' b' hentry hb' hbtold := by
    obtain ⟨rfl, rfl⟩ | ⟨-, hb⟩ := of_update hb'
    · obtain ⟨b, hb, rfl⟩ := h.entry peer g' hentry
      obtain rfl := Option.mem_unique hb ha
      obtain hbefore | hsent := htold hbtold
      · exact hsub (h.told b.peer g' b hentry ha hbefore)
      · exact hsent
    · exact hsub (h.told peer g' b' hentry hb hbtold)

omit [DecidableEq Peer] in
/-- What a task does by itself. -/
theorem Inv.advance (h : Inv s) {g : Nat} {f : Association Peer → Option (Association Peer)}
    (hf : ∀ a a', f a = some a' → a'.peer = a.peer ∧ (a'.Told → a.Told)) : Inv (s.advance g f) := by
  unfold Session.advance
  cases hbind : (s.tasks g).bind f with
  | none => exact h
  | some a' =>
    obtain ⟨a, ha, haf⟩ := Option.bind_eq_some_iff.1 hbind
    exact h.update ha (hf a a' haf).1 (List.Subset.refl _) fun htold ↦ .inl ((hf a a' haf).2 htold)

omit [DecidableEq Peer] in
theorem Inv.report (h : Inv s) (g : Nat) : Inv (s.report g) := by
  unfold Session.report
  cases ha : s.tasks g with
  | none => exact h
  | some a =>
    dsimp only
    split
    · have hpeer : ({ a with phase := .leaving } : Association Peer).peer = a.peer := rfl
      exact h.update ha hpeer (List.subset_append_left _ _)
        fun _ ↦ .inr (List.mem_append_right _ (.head _))
    · exact h

omit [DecidableEq Peer] in
/-- A message that is not the one that is heard stays. -/
theorem mem_unheard {messages : List (Peer × Nat)} {n : Nat} {m m' : Peer × Nat}
    (hn : messages[n]? = some m) (hm : m' ∈ messages) (hne : m' ≠ m) :
    m' ∈ messages.eraseIdx n := by
  obtain ⟨i, hi⟩ := List.mem_iff_getElem?.1 hm
  refine List.mem_eraseIdx_iff_getElem?.2 ⟨i, fun heq ↦ hne ?_, hi⟩
  rw [heq, hn] at hi
  exact (Option.some.inj hi).symm

theorem deliver_associations {n : Nat} {peer : Peer} {g : Nat} (hn : s.cleanup[n]? = some (peer, g))
    (other : Peer) : (s.deliver n).associations other =
      if other = peer ∧ s.associations peer = some g then none else s.associations other := by
  unfold Session.deliver
  rw [hn]
  dsimp only
  by_cases hentry : s.associations peer = some g
  · rw [if_pos hentry]
    obtain rfl | hother := eq_or_ne other peer
    · rw [if_pos ⟨rfl, hentry⟩]
      exact update_self ..
    · rw [if_neg fun h ↦ hother h.1]
      exact update_of_ne hother _ _
  · rw [if_neg hentry, if_neg fun h ↦ hentry h.2]

theorem deliver_tasks (n : Nat) :
    (s.deliver n).tasks = s.tasks ∧ (s.deliver n).nextGen = s.nextGen := by
  unfold Session.deliver
  split
  · split <;> exact ⟨rfl, rfl⟩
  · exact ⟨rfl, rfl⟩

theorem deliver_cleanup {n : Nat} {m : Peer × Nat} (hn : s.cleanup[n]? = some m) :
    (s.deliver n).cleanup = s.cleanup.eraseIdx n := by
  unfold Session.deliver
  rw [hn]
  dsimp only
  split <;> rfl

theorem Inv.deliver (h : Inv s) (n : Nat) : Inv (s.deliver n) := by
  cases hn : s.cleanup[n]? with
  | none =>
    rw [Session.deliver, hn]
    exact h
  | some m =>
    obtain ⟨peer, g⟩ := m
    obtain ⟨htasks, hnext⟩ := deliver_tasks (s := s) n
    -- An entry that is left is one that was there, and not the one of the message.
    have hleft : ∀ other g', (s.deliver n).associations other = some g' →
        s.associations other = some g' ∧ (other, g') ≠ (peer, g) := by
      intro other g' hentry
      rw [deliver_associations hn] at hentry
      split at hentry
      · cases hentry
      · next hnot =>
        refine ⟨hentry, fun heq ↦ hnot ?_⟩
        cases heq
        exact ⟨rfl, hentry⟩
    refine ⟨?_, ?_, ?_, ?_⟩
    · rw [htasks, hnext]
      exact h.spawned
    · rw [htasks]
      exact fun other g' hentry ↦ h.entry other g' (hleft other g' hentry).1
    · rw [htasks]
      exact fun other g' hentry ↦ h.newest other g' (hleft other g' hentry).1
    · rw [htasks, deliver_cleanup hn]
      intro other g' a hentry ha htold
      obtain ⟨hbefore, hne⟩ := hleft other g' hentry
      exact mem_unheard hn (h.told other g' a hbefore ha htold) hne

omit [DecidableEq Peer] in
/-- `try_send` asks whether the receiver is there before it asks for room. -/
theorem trySend_cases (a : Association Peer) (payload : Bytes) :
    (a.closed = false ∧ a.queue.length < udpAssocChannelCapacity ∧
      a.trySend payload = (.ok, { a with queue := a.queue ++ [payload] })) ∨
    (a.closed = false ∧ udpAssocChannelCapacity ≤ a.queue.length ∧ a.trySend payload = (.full, a)) ∨
    (a.closed ∧ a.trySend payload = (.closed, a)) := by
  unfold Association.trySend
  cases hclosed : a.closed with
  | true => exact .inr (.inr ⟨rfl, if_pos rfl⟩)
  | false =>
    rw [if_neg Bool.false_ne_true]
    obtain hroom | hfull := Nat.lt_or_ge a.queue.length udpAssocChannelCapacity
    · exact .inl ⟨rfl, hroom, by rw [if_pos hroom]⟩
    · exact .inr (.inl ⟨rfl, hfull, if_neg (Nat.not_lt.2 hfull)⟩)

/-- A datagram goes where it should, if every entry has its task. -/
theorem Inv.datagram (h : Inv s) (peer : Peer) (payload : Bytes) :
    Handed s peer payload (s.datagram peer payload).1 (s.datagram peer payload).2 := by
  have hfresh := h.spawned s.nextGen (Nat.le_refl _)
  unfold Session.datagram
  cases hentry : s.associations peer with
  | none =>
    refine .fresh (fun g hg ↦ ?_) hfresh
    rw [hentry] at hg
    cases hg
  | some g =>
    obtain ⟨a, ha, -⟩ := h.entry peer g hentry
    have hgone : a.closed → ∀ g', s.associations peer = some g' → ∃ a,
      s.tasks g' = some a ∧ a.closed :=
      fun hclosed g' hg' ↦ ⟨a, (Option.mem_unique hentry hg') ▸ ha, hclosed⟩
    have hsend := trySend_cases a payload
    simp only [ha]
    obtain ⟨hopen, -, hok⟩ | ⟨hopen, hfull, hbusy⟩ | ⟨hclosed, hgone'⟩ := hsend
    · rw [hok]
      exact .queued hentry ha hopen
    · rw [hbusy]
      exact .full hentry ha hopen hfull
    · rw [hgone']
      have hspawn : Handed s peer payload _ _ := .fresh (hgone hclosed) hfresh
      have hremoved : Function.update (Function.update s.associations peer none) peer
          (some s.nextGen) = Function.update s.associations peer (some s.nextGen) :=
        funext fun p ↦ by by_cases hp : p = peer <;> simp [hp]
      rw [← hremoved] at hspawn
      exact hspawn

theorem Inv.handed (h : Inv s) {peer : Peer} {payload : Bytes} {g : Option Nat}
    {s' : Session Peer} (hto : Handed s peer payload g s') : Inv s' := by
  cases hto with
  | @queued g a hentry htask hopen =>
    have hpeer : ({ a with queue := a.queue ++ [payload] } : Association Peer).peer = a.peer := rfl
    exact h.update htask hpeer (List.Subset.refl _) .inl
  | full hentry htask hopen hfull => exact h
  | fresh hclosed hfresh =>
    -- The entries after it: the new one, and those of the other peers.
    have hentries : ∀ p g, Function.update s.associations peer (some s.nextGen) p = some g →
        (p = peer ∧ g = s.nextGen) ∨ (p ≠ peer ∧ s.associations p = some g) := by
      intro p g hentry
      obtain rfl | hne := eq_or_ne p peer
      · rw [update_self] at hentry
        exact .inl ⟨rfl, (Option.some.inj hentry).symm⟩
      · rw [update_of_ne hne] at hentry
        exact .inr ⟨hne, hentry⟩
    have hlt : ∀ g a, s.tasks g = some a → g < s.nextGen := by
      intro g a ha
      by_contra hge
      rw [h.spawned g (Nat.not_lt.1 hge)] at ha
      cases ha
    exact {
      spawned := fun g hg ↦ (update_of_ne (Nat.ne_of_gt hg) _ _).trans
        (h.spawned g (Nat.le_of_succ_le hg))
      entry := fun p g hentry ↦ by
        obtain ⟨rfl, rfl⟩ | ⟨-, hentry⟩ := hentries p g hentry
        · exact ⟨_, update_self .., rfl⟩
        · obtain ⟨a, ha, hpeer⟩ := h.entry p g hentry
          exact ⟨a, (update_of_ne (Nat.ne_of_lt (hlt g a ha)) _ _).trans ha, hpeer⟩
      newest := fun p g hentry g' a' ha' hpeer ↦ by
        obtain ⟨rfl, rfl⟩ | ⟨hother, hentry⟩ := hentries p g hentry
        · obtain ⟨rfl, -⟩ | ⟨-, ha⟩ := of_update ha'
          · exact Nat.le_refl _
          · exact Nat.le_of_lt (hlt g' a' ha)
        · obtain ⟨rfl, rfl⟩ | ⟨-, ha⟩ := of_update ha'
          · exact absurd hpeer.symm hother
          · exact h.newest p g hentry g' a' ha hpeer
      told := fun p g a hentry ha htold ↦ by
        obtain ⟨rfl, rfl⟩ | ⟨hne, ha⟩ := of_update ha
        · obtain hphase | hphase := htold <;> cases hphase
        · obtain ⟨rfl, rfl⟩ | ⟨-, hentry⟩ := hentries p g hentry
          · exact absurd rfl hne
          · exact h.told p g a hentry ha htold }

theorem Inv.step (h : Inv s) (label : Label Peer) : Inv (s.step label) := by
  -- Between two phases of which the later one has sent no message.
  have hgoes {before after : Phase} {closes : Bool} (g : Nat)
      (hafter : after ≠ .leaving ∧ after ≠ .returned) :
      Inv (s.advance g (Session.goes before after closes)) := by
    refine h.advance fun a a' hstep ↦ ?_
    unfold Session.goes at hstep
    split at hstep
    · cases hstep
      exact ⟨rfl, fun htold ↦ htold.elim (absurd · hafter.1) (absurd · hafter.2)⟩
    · cases hstep
  cases label with
  | datagram peer payload => exact h.handed (h.datagram peer payload)
  | opened g => exact hgoes g (by decide)
  | openFailed g => exact hgoes g (by decide)
  | forward g =>
    refine h.advance fun a a' hstep ↦ ?_
    unfold Session.takes at hstep
    split at hstep
    · cases hstep
      exact ⟨rfl, id⟩
    · cases hstep
  | stop g => exact hgoes g (by decide)
  | close g => exact hgoes g (by decide)
  | closed g => exact hgoes g (by decide)
  | report g => exact h.report g
  | drop g =>
    refine h.advance fun a a' hstep ↦ ?_
    unfold Session.drops at hstep
    split at hstep
    · next hleaving =>
      cases hstep
      exact ⟨rfl, fun _ ↦ .inl hleaving⟩
    · cases hstep
  | deliver n => exact h.deliver n

theorem Inv.run (h : Inv s) (labels : List (Label Peer)) : Inv (s.run labels) := by
  induction labels generalizing s with
  | nil => exact h
  | cons label labels ih => exact ih (h.step label)

/-- A queue only loses what its association takes out of it. -/
theorem step_queue {label : Label Peer} (hlabel : ∀ peer payload, label ≠ .datagram peer payload)
    {g : Nat} {a' : Association Peer} (ha' : (s.step label).tasks g = some a') :
    ∃ a, s.tasks g = some a ∧ a'.queue <:+ a.queue := by
  have hadvance {k : Nat} {f : Association Peer → Option (Association Peer)}
      (hf : ∀ a b, f a = some b → b.queue <:+ a.queue)
      (h : (s.advance k f).tasks g = some a') : ∃ a, s.tasks g = some a ∧ a'.queue <:+ a.queue := by
    unfold Session.advance at h
    split at h
    · next b hb =>
      obtain ⟨a, ha, haf⟩ := Option.bind_eq_some_iff.1 hb
      obtain ⟨rfl, rfl⟩ | ⟨-, h⟩ := of_update h
      · exact ⟨a, ha, hf a a' haf⟩
      · exact ⟨a', h, List.suffix_refl _⟩
    · exact ⟨a', h, List.suffix_refl _⟩
  have hgoes {before after : Phase} {closes : Bool} (a b : Association Peer)
      (hstep : Session.goes before after closes a = some b) : b.queue <:+ a.queue := by
    unfold Session.goes at hstep
    split at hstep
    · cases hstep
      exact List.suffix_refl _
    · cases hstep
  cases label with
  | datagram peer payload => exact absurd rfl (hlabel peer payload)
  | opened k => exact hadvance hgoes ha'
  | openFailed k => exact hadvance hgoes ha'
  | forward k =>
    refine hadvance (fun a b hstep ↦ ?_) ha'
    unfold Session.takes at hstep
    split at hstep
    · cases hstep
      exact List.tail_suffix _
    · cases hstep
  | stop k => exact hadvance hgoes ha'
  | close k => exact hadvance hgoes ha'
  | closed k => exact hadvance hgoes ha'
  | report k =>
    simp only [Session.step, Session.report] at ha'
    split at ha'
    · next a ha =>
      split at ha'
      · obtain ⟨rfl, rfl⟩ | ⟨-, h⟩ := of_update ha'
        · exact ⟨a, ha, List.suffix_refl _⟩
        · exact ⟨a', h, List.suffix_refl _⟩
      · exact ⟨a', ha', List.suffix_refl _⟩
    · exact ⟨a', ha', List.suffix_refl _⟩
  | drop k =>
    refine hadvance (fun a b hstep ↦ ?_) ha'
    unfold Session.drops at hstep
    split at hstep
    · cases hstep
      exact List.nil_suffix
    · cases hstep
  | deliver n =>
    rw [Session.step, (deliver_tasks n).1] at ha'
    exact ⟨a', ha', List.suffix_refl _⟩

theorem Inv.orderly (h : Inv s) : Orderly s where
  newest peer g hentry := ⟨h.entry peer g hentry, h.newest peer g hentry⟩
  hears _ _ _ hn other := deliver_associations hn other
  datagram := h.datagram
  others _ hlabel _ _ ha' := step_queue hlabel ha'
  settled := fun ⟨hreturned, hheard⟩ peer ↦ by
    cases hentry : s.associations peer with
    | none => rfl
    | some g =>
      obtain ⟨a, ha, -⟩ := h.entry peer g hentry
      have hmessage := h.told peer g a hentry ha (.inr (hreturned g a ha))
      rw [hheard] at hmessage
      cases hmessage

/-- **In every run the table of a session is orderly**: its entries are the newest associations of
their peers, a late message removes none of them, datagrams go into open channels only, and nothing
is left in it when every association is over and heard of. -/
theorem orderly_run (labels : List (Label Peer)) : Orderly
    ((Session.start : Session Peer).run labels) :=
  (inv_start.run labels).orderly

end Inv

end Hole.Galoshes
