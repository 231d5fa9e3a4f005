import Mathlib.Data.List.Induction
import Mathlib.Logic.Function.Basic
import Hole.Net.SocketAddr

/-!
# The UDP flows of the engine

The flow table of the TUN driver (`crates/tun-engine/src/engine/udp_flow.rs`) and what its loop does
with it (`driver.rs`): a datagram goes to the flow of its 5-tuple, or starts a new one, and an idle
sweep evicts the flows that saw no datagram for a while. The task of the Router for a flow
(`HoleRouter::dispatch_udp`) is the receiving end of its channel. It decides against the rules once,
when it starts, and it may end at any moment.

The driver has no word of that but the closed channel, on a send whose result it does not look at,
and it refreshes the flow before it sends.
-/

namespace Hole.Tun.Udp

open Function (update update_of_ne)

/-- What a datagram carries. -/
abbrev Payload := List UInt8

/-- `FlowKey`. -/
structure FlowKey where
  src : SocketAddr
  dst : SocketAddr
  deriving DecidableEq

/-- `EngineConfig`, as far as UDP goes. -/
structure Config where
  udpFlowIdleTimeout : Nat
  idleSweepInterval : Nat
  dnsInterceptor : Bool

/-- `dns::Intercepted`. -/
inductive Intercepted
  | reply
  | declined
  | cancelled
  deriving DecidableEq

/-- The channel of a flow, with the Router's task at its end. -/
structure Channel where
  queue : List Payload
  /-- When the task ended, and dropped the receiver. -/
  ended : Option Nat

/-- `FlowEntry`. -/
structure FlowEntry where
  chan : Nat
  lastActivity : Nat
  deriving DecidableEq

/-- `FLOW_CHANNEL_CAPACITY`. -/
def flowChannelCapacity : Nat := 128

namespace Channel

variable (ch : Channel)

/-- The task is alive, and there is room. -/
def Takes : Prop := ch.ended = none ∧ ch.queue.length < flowChannelCapacity

instance : Decidable ch.Takes := inferInstanceAs (Decidable (_ ∧ _))

/-- `mpsc::Sender::try_send`, its result dropped. -/
def trySend (payload : Payload) : Channel :=
  if ch.ended.isSome then ch
  else if flowChannelCapacity ≤ ch.queue.length then ch
  else { ch with queue := ch.queue ++ [payload] }

end Channel

/-- The driver's flows, and the channels, under rule sets of some kind. -/
structure Engine (ρ : Type) where
  now : Nat
  flows : FlowKey → Option FlowEntry
  lastSweep : Nat
  channels : Nat → Channel
  /-- The first channel not made yet. -/
  next : Nat
  /-- The datagrams that came to the table, and when. -/
  arrivals : List (FlowKey × Nat)
  /-- The datagrams that came for a flow while its task took them. -/
  owed : Nat → List Payload
  received : Nat → List Payload
  /-- `HoleRouter::rules`. -/
  rules : ρ
  /-- The rule set that a task decided against. -/
  decided : Nat → Option ρ

/-- What can happen. -/
inductive Event (ρ : Type)
  /-- A datagram is read from the TUN; for one to port 53, what the interceptor makes of it. -/
  | datagram (key : FlowKey) (payload : Payload) (intercepted : Intercepted)
  /-- The check at the end of an iteration of `run`. -/
  | sweep
  /-- The task of a flow ends: it dropped the flow by a rule, or its endpoint or relay failed. -/
  | ends (chan : Nat)
  | decide (chan : Nat)
  | recv (chan : Nat)
  | swap (rules : ρ)
  | elapse (time : Nat)

variable {ρ : Type}

/-- No flows yet. -/
def Engine.new (rules : ρ) : Engine ρ where
  now := 0
  flows _ := none
  lastSweep := 0
  channels _ := ⟨[], none⟩
  next := 0
  arrivals := []
  owed _ := []
  received _ := []
  rules := rules
  decided _ := none

/-- A datagram that the interceptor does not consume. -/
def Config.Dispatches (config : Config) (key : FlowKey) (intercepted : Intercepted) : Prop :=
  key.dst.port = 53 → config.dnsInterceptor = true → intercepted = .declined

instance (config : Config) (key : FlowKey) (intercepted : Intercepted) :
    Decidable (config.Dispatches key intercepted) :=
  inferInstanceAs (Decidable (_ → _ → _))

namespace Engine

variable (s : Engine ρ)

/-- `entry.tx.try_send`. -/
def send (chan : Nat) (payload : Payload) : Engine ρ :=
  { s with
    channels := update s.channels chan ((s.channels chan).trySend payload)
    owed := if (s.channels chan).Takes then
        update s.owed chan (s.owed chan ++ [payload])
      else s.owed }

/-- `mpsc::channel`. -/
def makeChannel : Engine ρ :=
  { s with
    channels := update s.channels s.next ⟨[], none⟩
    next := s.next + 1 }

/-- A datagram is here for the flow at its entry, which is active now. -/
def stamp (key : FlowKey) (chan : Nat) : Engine ρ :=
  { s with
    flows := update s.flows key (some ⟨chan, s.now⟩)
    arrivals := (key, s.now) :: s.arrivals }

/-- `FlowTable::insert_new`. -/
def insertNew (key : FlowKey) : Engine ρ := s.makeChannel.stamp key s.next

/-- `handle_udp_packet`, past the interceptor. -/
def dispatch (key : FlowKey) (payload : Payload) : Engine ρ :=
  match s.flows key with
  | some entry => (s.stamp key entry.chan).send entry.chan payload
  | none => (s.insertNew key).send s.next payload

/-- `handle_udp_packet`. -/
def handleUdpPacket (config : Config) (key : FlowKey) (payload : Payload)
    (intercepted : Intercepted) : Engine ρ :=
  if config.Dispatches key intercepted then s.dispatch key payload else s

/-- A sweep is due. -/
def Sweeps (config : Config) : Prop := config.idleSweepInterval ≤ s.now - s.lastSweep

instance (config : Config) : Decidable (s.Sweeps config) := inferInstanceAs (Decidable (_ ≤ _))

/-- `FlowTable::sweep`. -/
def evict (maxIdle : Nat) (key : FlowKey) : Option FlowEntry :=
  (s.flows key).filter fun entry ↦ s.now - entry.lastActivity < maxIdle

/-- The check at the end of an iteration of `run`. -/
def sweep (config : Config) : Engine ρ :=
  if s.Sweeps config then
    { s with flows := s.evict config.udpFlowIdleTimeout, lastSweep := s.now }
  else s

/-- The task of a flow is there. -/
def Alive (chan : Nat) : Prop := chan < s.next ∧ (s.channels chan).ended = none

instance (chan : Nat) : Decidable (s.Alive chan) := inferInstanceAs (Decidable (_ ∧ _))

/-- A task ends. -/
def endTask (chan : Nat) : Engine ρ :=
  if s.Alive chan then
    { s with channels := update s.channels chan ⟨[], some s.now⟩ }
  else s

/-- `HoleRouter::dispatch_udp`, to its decision. -/
def decide (chan : Nat) : Engine ρ :=
  if s.Alive chan ∧ s.decided chan = none then
    { s with decided := update s.decided chan (some s.rules) }
  else s

/-- `UdpFlow::recv`, by the endpoint that the decision leads to. -/
def recv (chan : Nat) : Engine ρ :=
  match s.decided chan, (s.channels chan).queue with
  | none, _ => s
  | some _, [] => s
  | some _, payload :: rest =>
    { s with
      channels := update s.channels chan { s.channels chan with queue := rest }
      received := update s.received chan (s.received chan ++ [payload]) }

/-- What happens. -/
def step (config : Config) : Event ρ → Engine ρ
  | .datagram key payload intercepted => s.handleUdpPacket config key payload intercepted
  | .sweep => s.sweep config
  | .ends chan => s.endTask chan
  | .decide chan => s.decide chan
  | .recv chan => s.recv chan
  | .swap rules => { s with rules := rules }
  | .elapse time => { s with now := s.now + time }

end Engine

/-- A run of the engine. -/
def run (config : Config) (rules : ρ) (events : List (Event ρ)) : Engine ρ :=
  events.foldl (fun s e ↦ s.step config e) (.new rules)

theorem run_snoc (config : Config) (rules : ρ) (events : List (Event ρ)) (e : Event ρ) :
    run config rules (events ++ [e]) = (run config rules events).step config e := by
  simp [run]

/-! ### What is asked of the flows -/

/-- The flow of the 5-tuple is still there, and its task ended the timeout ago or earlier. -/
def Engine.Overdue (s : Engine ρ) (config : Config) (key : FlowKey) : Prop :=
  ∃ entry ended, s.flows key = some entry ∧ (s.channels entry.chan).ended = some ended ∧
    config.udpFlowIdleTimeout ≤ s.now - ended

/-- The flow is new: its task is there, has yet to decide, and will find the datagram alone in its
channel. -/
structure Engine.Fresh (s : Engine ρ) (chan : Nat) (payload : Payload) : Prop where
  made : chan < s.next
  channel : s.channels chan = ⟨[payload], none⟩
  undecided : s.decided chan = none

/-- No 5-tuple is a black hole. -/
structure NeverBlackHoled (config : Config) (rules : ρ) (events : List (Event ρ)) : Prop where
  /-- A sweep leaves no flow whose task ended the timeout ago. -/
  evicted : ∀ before rest, events = before ++ Event.sweep :: rest →
    (run config rules before).Sweeps config →
      ∀ key, ¬(run config rules (before ++ [Event.sweep])).Overdue config key
  /-- A datagram that finds no flow starts one. -/
  started : ∀ before key payload intercepted rest,
    events = before ++ Event.datagram key payload intercepted :: rest →
    config.Dispatches key intercepted → (run config rules before).flows key = none →
    ∃ chan, (run config rules (before ++ [Event.datagram key payload intercepted])).flows key =
        some ⟨chan, (run config rules before).now⟩ ∧
      (run config rules before).next ≤ chan ∧
      (run config rules (before ++ [Event.datagram key payload intercepted])).Fresh chan payload
  /-- A task decides against the rules of a moment since its flow started. -/
  decided : ∀ before rest, events = before ++ rest → ∀ chan seen,
    (run config rules before).decided chan = some seen →
    ∃ earlier later, before = earlier ++ later ∧ chan < (run config rules earlier).next ∧
      (run config rules earlier).rules = seen
  /-- A task that is alive has received, or will find in its channel, what came for its flow while
  there was room, in that order. -/
  delivered : ∀ before rest, events = before ++ rest →
    ∀ chan, (run config rules before).Alive chan →
    (run config rules before).received chan ++ ((run config rules before).channels chan).queue =
      (run config rules before).owed chan

/-- At every sweep, the 5-tuples whose task ended the timeout ago had no datagram since. -/
def Quiet (config : Config) (rules : ρ) (events : List (Event ρ)) : Prop :=
  ∀ before rest, events = before ++ Event.sweep :: rest → (run config rules before).Sweeps config →
    ∀ key, (run config rules before).Overdue config key →
      ∀ time, (key, time) ∈ (run config rules before).arrivals →
        config.udpFlowIdleTimeout ≤ (run config rules before).now - time

/-! ### The table and the channels -/

/-- What holds in every state of a run. -/
structure Inv (s : Engine ρ) : Prop where
  bound : ∀ {key entry}, s.flows key = some entry → entry.chan < s.next
  /-- The stamp of a flow is the time of the last datagram of its 5-tuple. -/
  stamped : ∀ {key entry}, s.flows key = some entry → (key, entry.lastActivity) ∈ s.arrivals ∧
    ∀ time, (key, time) ∈ s.arrivals → time ≤ entry.lastActivity
  past : ∀ {key time}, (key, time) ∈ s.arrivals → time ≤ s.now
  unmade : ∀ {chan}, s.next ≤ chan →
    s.owed chan = [] ∧ s.received chan = [] ∧ s.channels chan = ⟨[], none⟩
  undecided : ∀ {chan}, s.next ≤ chan → s.decided chan = none
  fifo : ∀ {chan}, s.Alive chan → s.received chan ++ (s.channels chan).queue = s.owed chan

theorem inv_new (rules : ρ) : Inv (.new rules) where
  bound h := by cases h
  stamped h := by cases h
  past h := by cases h
  unmade _ := ⟨rfl, rfl, rfl⟩
  undecided _ := rfl
  fifo h := absurd h.1 (Nat.not_lt_zero _)

section Steps

variable {s : Engine ρ}

theorem Inv.stamp (h : Inv s) (key : FlowKey) {chan : Nat} (hchan : chan < s.next) :
    Inv (s.stamp key chan) where
  bound {key' entry} h' := by
    by_cases hkey : key' = key
    · obtain rfl : ⟨chan, s.now⟩ = entry := by simpa [Engine.stamp, hkey] using h'
      exact hchan
    · exact h.bound (by simpa [Engine.stamp, hkey] using h')
  stamped {key' entry} h' := by
    by_cases hkey : key' = key
    · obtain rfl : ⟨chan, s.now⟩ = entry := by simpa [Engine.stamp, hkey] using h'
      subst hkey
      refine ⟨.head _, fun time htime ↦ ?_⟩
      rcases List.mem_cons.1 htime with heq | hmem
      · cases heq
        exact Nat.le_refl _
      · exact h.past hmem
    · obtain ⟨hmem, hmax⟩ := h.stamped (by simpa [Engine.stamp, hkey] using h')
      refine ⟨.tail _ hmem, fun time htime ↦ hmax time ?_⟩
      simpa [Engine.stamp, hkey] using htime
  past {key' time} hmem := by
    rcases List.mem_cons.1 hmem with heq | hmem
    · cases heq
      exact Nat.le_refl _
    · exact h.past hmem
  unmade := h.unmade
  undecided := h.undecided
  fifo := h.fifo

theorem Inv.makeChannel (h : Inv s) : Inv s.makeChannel where
  bound h' := Nat.lt_succ_of_lt (h.bound h')
  stamped := h.stamped
  past := h.past
  unmade {c} hc := by
    have hc' : s.next < c := hc
    obtain ⟨howed, hreceived, hch⟩ := h.unmade (Nat.le_of_lt hc')
    refine ⟨howed, hreceived, ?_⟩
    show update s.channels s.next ⟨[], none⟩ c = _
    rw [update_of_ne (Nat.ne_of_gt hc'), hch]
  undecided hc := h.undecided (Nat.le_of_succ_le hc)
  fifo {c} hc := by
    by_cases hcn : c = s.next
    · subst hcn
      obtain ⟨howed, hreceived, -⟩ := h.unmade (Nat.le_refl s.next)
      simp [Engine.makeChannel, howed, hreceived]
    · have halive : s.Alive c := by
        obtain ⟨hlt, hended⟩ := hc
        have hlt' : c < s.next + 1 := hlt
        exact ⟨by omega, by simpa [Engine.makeChannel, hcn] using hended⟩
      simpa [Engine.makeChannel, hcn] using h.fifo halive

/-- A send changes the channel that it goes to, where that takes it. -/
theorem Inv.send (h : Inv s) {chan : Nat} (hchan : chan < s.next) (payload : Payload) :
    Inv (s.send chan payload) :=
  { h with
    unmade {c} hc := by
      have hne : c ≠ chan := by
        have hc' : s.next ≤ c := hc
        omega
      obtain ⟨howed, hreceived, hch⟩ := h.unmade hc
      refine ⟨?_, hreceived, ?_⟩
      · simp only [Engine.send]
        split
        · rw [update_of_ne hne, howed]
        · exact howed
      · show update s.channels chan _ c = _
        rw [update_of_ne hne, hch]
    fifo {c} hc := by
      by_cases hcc : c = chan
      · subst hcc
        have hended : (s.channels c).ended = none := by
          have hsent : (((s.channels c).trySend payload)).ended = none := by
            simpa [Engine.Alive, Engine.send] using hc.2
          unfold Channel.trySend at hsent
          split at hsent
          · exact hsent
          · split at hsent <;> exact hsent
        have hfifo := h.fifo ⟨hchan, hended⟩
        by_cases hroom : (s.channels c).queue.length < flowChannelCapacity
        · have htakes : (s.channels c).Takes := ⟨hended, hroom⟩
          simp [Engine.send, htakes, Channel.trySend, hended, Nat.not_le.2 hroom, ← hfifo]
        · have htakes : ¬(s.channels c).Takes := fun ht ↦ hroom ht.2
          simp [Engine.send, htakes, Channel.trySend, hended, Nat.not_lt.1 hroom, hfifo]
      · have halive : s.Alive c := by
          simpa [Engine.Alive, Engine.send, hcc] using hc
        have howed : (s.send chan payload).owed c = s.owed c := by
          simp only [Engine.send]
          split
          · exact update_of_ne hcc ..
          · rfl
        rw [howed]
        simpa [Engine.send, hcc] using h.fifo halive }

theorem Inv.dispatch (h : Inv s) (key : FlowKey) (payload : Payload) :
    Inv (s.dispatch key payload) := by
  unfold Engine.dispatch
  split
  · next entry hentry => exact (h.stamp key (h.bound hentry)).send (h.bound hentry) payload
  · have hnext : s.next < s.makeChannel.next := Nat.lt_succ_self _
    exact (h.makeChannel.stamp key hnext).send hnext payload

theorem Inv.sweep (h : Inv s) (config : Config) : Inv (s.sweep config) := by
  unfold Engine.sweep
  split
  · have hkept {key : FlowKey} {entry : FlowEntry}
        (h' : s.evict config.udpFlowIdleTimeout key = some entry) : s.flows key = some entry :=
      (Option.filter_eq_some_iff.1 h').1
    exact ⟨fun h' ↦ h.bound (hkept h'), fun h' ↦ h.stamped (hkept h'), h.past, h.unmade,
      h.undecided, h.fifo⟩
  · exact h

theorem Inv.endTask (h : Inv s) (chan : Nat) : Inv (s.endTask chan) := by
  unfold Engine.endTask
  split
  · next halive =>
    refine ⟨h.bound, h.stamped, h.past, fun {c} hc ↦ ?_, h.undecided, fun {c} hc ↦ ?_⟩
    · obtain ⟨howed, hreceived, hch⟩ := h.unmade hc
      have hne : c ≠ chan := by
        have hc' : s.next ≤ c := hc
        have hlt := halive.1
        omega
      exact ⟨howed, hreceived, by simpa [hne] using hch⟩
    · by_cases hcc : c = chan
      · subst hcc
        simp [Engine.Alive] at hc
      · have halive' : s.Alive c := by simpa [Engine.Alive, hcc] using hc
        simpa [hcc] using h.fifo halive'
  · exact h

theorem Inv.recv (h : Inv s) (chan : Nat) : Inv (s.recv chan) := by
  unfold Engine.recv
  split
  · exact h
  · exact h
  · next payload rest _ hqueue =>
    refine ⟨h.bound, h.stamped, h.past, fun {c} hc ↦ ?_, h.undecided, fun {c} hc ↦ ?_⟩
    · obtain ⟨howed, hreceived, hch⟩ := h.unmade hc
      have hne : c ≠ chan := by
        rintro rfl
        rw [hch] at hqueue
        cases hqueue
      exact ⟨howed, by simpa [hne] using hreceived, by simpa [hne] using hch⟩
    · by_cases hcc : c = chan
      · subst hcc
        have halive : s.Alive c := by simpa [Engine.Alive] using hc
        simpa [hqueue] using h.fifo halive
      · have halive' : s.Alive c := by simpa [Engine.Alive, hcc] using hc
        simpa [hcc] using h.fifo halive'

theorem Inv.decide (h : Inv s) (chan : Nat) : Inv (s.decide chan) := by
  unfold Engine.decide
  split
  · next halive =>
    refine ⟨h.bound, h.stamped, h.past, h.unmade, fun {c} hc ↦ ?_, h.fifo⟩
    have hne : c ≠ chan := by
      have hc' : s.next ≤ c := hc
      have hlt := halive.1.1
      omega
    show update s.decided chan _ c = none
    rw [update_of_ne hne]
    exact h.undecided hc
  · exact h

theorem Inv.elapse (h : Inv s) (time : Nat) : Inv { s with now := s.now + time } :=
  ⟨h.bound, h.stamped, fun hmem ↦ Nat.le_add_right_of_le (h.past hmem), h.unmade, h.undecided,
    h.fifo⟩

theorem Inv.step (h : Inv s) (config : Config) (e : Event ρ) : Inv (s.step config e) := by
  cases e with
  | datagram key payload intercepted =>
    simp only [Engine.step, Engine.handleUdpPacket]
    split
    · exact h.dispatch key payload
    · exact h
  | sweep => exact h.sweep config
  | ends chan => exact h.endTask chan
  | decide chan => exact h.decide chan
  | recv chan => exact h.recv chan
  | swap rules => exact ⟨h.bound, h.stamped, h.past, h.unmade, h.undecided, h.fifo⟩
  | elapse time => exact h.elapse time

end Steps

theorem inv_run (config : Config) (rules : ρ) (events : List (Event ρ)) :
    Inv (run config rules events) := by
  induction events using List.reverseRecOn with
  | nil => exact inv_new rules
  | append_singleton events e ih =>
    rw [run_snoc]
    exact ih.step config e

/-! ### Evictions -/

section Evictions

variable {s : Engine ρ} {config : Config} {rules : ρ} {events : List (Event ρ)}

/-- A sweep evicts an overdue flow when, and only when, its 5-tuple had no datagram since. -/
theorem Inv.evicts_iff (h : Inv s) (hdue : s.Sweeps config) (key : FlowKey) :
    ¬(s.sweep config).Overdue config key ↔ (s.Overdue config key →
      ∀ time, (key, time) ∈ s.arrivals → config.udpFlowIdleTimeout ≤ s.now - time) := by
  have hflows : (s.sweep config).flows = s.evict config.udpFlowIdleTimeout := by
    simp [Engine.sweep, hdue]
  have hchannels : (s.sweep config).channels = s.channels := by
    simp [Engine.sweep, hdue]
  have hnow : (s.sweep config).now = s.now := by
    simp [Engine.sweep, hdue]
  constructor
  · rintro hnot ⟨entry, ended, hentry, hended, hlong⟩ time htime
    have hidle : config.udpFlowIdleTimeout ≤ s.now - entry.lastActivity := by
      by_contra hrecent
      refine hnot ⟨entry, ended, ?_, by rwa [hchannels], by rwa [hnow]⟩
      rw [hflows]
      exact Option.filter_eq_some_iff.2 ⟨hentry, by simpa using hrecent⟩
    have hle := (h.stamped hentry).2 time htime
    omega
  · rintro hquiet ⟨entry, ended, hentry, hended, hlong⟩
    rw [hflows] at hentry
    obtain ⟨hentry, hrecent⟩ := Option.filter_eq_some_iff.1 hentry
    rw [hchannels] at hended
    rw [hnow] at hlong
    have hidle := hquiet ⟨entry, ended, hentry, hended, hlong⟩ entry.lastActivity
      (h.stamped hentry).1
    have hrecent' : s.now - entry.lastActivity < config.udpFlowIdleTimeout := by
      simpa using hrecent
    omega

/-- A datagram without a flow is the first of a new one. -/
theorem Inv.starts (h : Inv s) {key : FlowKey} (hnone : s.flows key = none) (payload : Payload) :
    (s.dispatch key payload).flows key = some ⟨s.next, s.now⟩ ∧
      (s.dispatch key payload).Fresh s.next payload := by
  have hsent : s.dispatch key payload = (s.insertNew key).send s.next payload := by
    simp [Engine.dispatch, hnone]
  rw [hsent]
  refine ⟨by simp [Engine.send, Engine.insertNew, Engine.stamp, Engine.makeChannel],
    Nat.lt_succ_self _, ?_, h.undecided (Nat.le_refl _)⟩
  simp [Engine.send, Engine.insertNew, Engine.stamp, Engine.makeChannel, Channel.trySend,
    flowChannelCapacity]

theorem dispatch_decided (s : Engine ρ) (key : FlowKey) (payload : Payload) :
    (s.dispatch key payload).decided = s.decided := by
  unfold Engine.dispatch
  split <;> rfl

/-- A decision is against the rules of its moment. -/
theorem decided_of_step {e : Event ρ} {chan : Nat} {seen : ρ}
    (h : (s.step config e).decided chan = some seen) :
    s.decided chan = some seen ∨ chan < s.next ∧ s.rules = seen := by
  cases e with
  | datagram key payload intercepted =>
    simp only [Engine.step, Engine.handleUdpPacket] at h
    split at h
    · exact .inl (by rwa [dispatch_decided] at h)
    · exact .inl h
  | decide c =>
    simp only [Engine.step, Engine.decide] at h
    split at h
    · next halive =>
      by_cases hc : chan = c
      · subst hc
        exact .inr ⟨halive.1.1, by simpa using h⟩
      · exact .inl (by simpa [hc] using h)
    · exact .inl h
  | sweep =>
    simp only [Engine.step, Engine.sweep] at h
    split at h <;> exact .inl h
  | ends c =>
    simp only [Engine.step, Engine.endTask] at h
    split at h <;> exact .inl h
  | recv c =>
    simp only [Engine.step, Engine.recv] at h
    split at h <;> exact .inl h
  | swap rules => exact .inl h
  | elapse time => exact .inl h

theorem decided_of_run {chan : Nat} {seen : ρ}
    (h : (run config rules events).decided chan = some seen) :
    ∃ earlier later, events = earlier ++ later ∧ chan < (run config rules earlier).next ∧
      (run config rules earlier).rules = seen := by
  induction events using List.reverseRecOn with
  | nil => cases h
  | append_singleton events e ih =>
    rw [run_snoc] at h
    rcases decided_of_step h with hseen | hnow
    · obtain ⟨earlier, later, rfl, hmoment⟩ := ih hseen
      exact ⟨earlier, later ++ [e], by simp, hmoment⟩
    · exact ⟨events, [e], rfl, hnow⟩

end Evictions

/-- **Black holes.** No 5-tuple is a black hole if and only if at every sweep the 5-tuples whose
task ended the timeout ago had no datagram since. -/
theorem neverBlackHoled_iff (config : Config) (rules : ρ) (events : List (Event ρ)) :
    NeverBlackHoled config rules events ↔ Quiet config rules events := by
  constructor
  · intro h before rest hsplit hdue key
    have hevicted := h.evicted before rest hsplit hdue key
    rw [run_snoc] at hevicted
    exact ((inv_run config rules before).evicts_iff hdue key).1 hevicted
  · intro h
    refine ⟨fun before rest hsplit hdue key ↦ ?_,
      fun before key payload intercepted rest _ htable hnone ↦ ?_,
      fun before rest _ chan seen hseen ↦ decided_of_run hseen,
      fun before rest _ chan halive ↦ (inv_run config rules before).fifo halive⟩
    · rw [run_snoc]
      exact ((inv_run config rules before).evicts_iff hdue key).2 (h before rest hsplit hdue key)
    · obtain ⟨hflow, hfresh⟩ := (inv_run config rules before).starts hnone payload
      refine ⟨(run config rules before).next, ?_, Nat.le_refl _, ?_⟩ <;> rw [run_snoc]
      · simpa [Engine.step, Engine.handleUdpPacket, htable] using hflow
      · simpa [Engine.step, Engine.handleUdpPacket, htable] using hfresh

/-- A flow, and a client that sends to it every 10 s. -/
def sampleKey : FlowKey := ⟨⟨.v4 (BitVec.ofNat 32 0x0A000002), 5000⟩,
  ⟨.v4 (BitVec.ofNat 32 0xC0000201), 5001⟩⟩

/-- The client sends, and a sweep comes. -/
def samplePing : List (Event Unit) := [.elapse 10, .datagram sampleKey [] .declined, .sweep]

/-- Its flow is dropped at once. -/
def samplePings : List (Event Unit) :=
  [Event.datagram sampleKey [] .declined, .decide 0, .ends 0] ++ samplePing ++ samplePing ++
    samplePing ++ samplePing

/-- Its 5-tuple is a black hole still, 40 s after the task ended. -/
theorem refreshed_for_ever : ¬NeverBlackHoled ⟨30, 5, false⟩ () samplePings := by
  intro h
  have hdue : (run ⟨30, 5, false⟩ () samplePings.dropLast).Sweeps ⟨30, 5, false⟩ := by decide
  refine h.evicted samplePings.dropLast [] rfl hdue sampleKey ⟨⟨0, 40⟩, 0, ?_, ?_, ?_⟩
  · decide
  · decide
  · decide

end Hole.Tun.Udp
