import Mathlib.Logic.Function.Basic
import Hole.Bridge.ManagerSystem

/-!
# A settings edit and a stop

`BridgeLink::reload_if_running` asks the bridge whether the proxy runs and, if it does, sends the
edited configuration as a reload. The two exchanges ride one acquisition of the client's own lock;
the bridge serves requests of any client one by one, so another client's stop, or a poll that finds
the session dead, may be served in between. On a proxy that does not run, the bridge's `reload` is
a start.

The machine below serves one exchange at a time. `pending` is what each client has asked and not yet
acted on; a run in which no stop is served while something is pending is what the comment in the
source takes every run to be.
-/

namespace Hole.Gui

open Effect Bridge FailClosed
open Function (update update_of_ne)

/-- The exchanges that the bridge serves. -/
inductive Exchange
  | start (config : ProxyConfig) (covered : Bool)
  | stop
  /-- A status or metrics request of any client; `dead` is what the health check finds. -/
  | poll (dead : Bool)
  /-- The status exchange of a client's `reload_if_running`. -/
  | check (client : Nat) (config : ProxyConfig) (dead : Bool)
  /-- Its reload exchange, if the status said that the proxy runs. -/
  | reload (client : Nat)
  /-- The connection of a client is lost before its reload. -/
  | lose (client : Nat)

/-- The bridge, and the reloads that clients have decided on. -/
structure Hub where
  bridge : Bridge.World
  pending : Nat → Option ProxyConfig

/-- Whether the proxy runs. -/
def Hub.running (h : Hub) : Bool := h.bridge.manager.posture.isSession

/-- `DEATH_REASON`. -/
def deathReason : String := "proxy task exited unexpectedly"

/-- `check_health`: a session whose tasks are gone is recorded as given up. -/
def checkHealth (m : Manager) (dead : Bool) : Manager × Option SessionEvent :=
  if m.posture.isSession && dead then
    ({ m with lastError := some deathReason, deathReason := some deathReason }, some .gaveUp)
  else (m, none)

/-- The health check of a status or metrics request, and the teardown it may call for. -/
def pollHealth (m : Manager) (dead : Bool) : PmM Manager :=
  match checkHealth m dead with
  | (m, some event) => do
    let (m, _) ← stopWith m event
    pure m
  | (m, none) => pure m

/-- The bridge's surroundings, for the hub. -/
def hubHost : Env PmOp PmOp.Ans Hub PmChoice where
  answer h o c := pmAnswer h.bridge o c
  next h o c := { h with bridge := pmNext h.bridge o c }

/-- What a client has decided on after its status exchange. -/
def Hub.decide (h : Hub) (client : Nat) (config : Option ProxyConfig) : Hub :=
  { h with pending := update h.pending client config }

/-- The hub: one exchange after the other. -/
def hub (effective : EffectiveEch) : Machine PmOp PmOp.Ans Hub PmChoice Exchange Manager where
  env _ := hubHost
  body h
    | .start config covered => some do
      pure (← startCancellable effective h.bridge.manager config covered).manager
    | .stop => some do
      let (m, _) ← stopWith h.bridge.manager .userStopped
      pure m
    | .poll dead => some (pollHealth h.bridge.manager dead)
    | .check _ _ dead => some (pollHealth h.bridge.manager dead)
    | .reload client =>
      match h.pending client with
      | some config => some do
        pure (← Bridge.reload effective h.bridge.manager config).manager
      | none => none
    | .lose _ => some (pure h.bridge.manager)
  finish h e m :=
    let h := { h with bridge := { h.bridge with manager := m } }
    match e with
    | .check client config _ => h.decide client (if m.posture.isSession then some config else none)
    | .reload client | .lose client => h.decide client none
    | _ => h
  -- the connections go with the process
  crash h := ⟨h.bridge.crash, fun _ ↦ none⟩

/-- An exchange that stops the proxy: a stop, or a poll that finds the session dead. -/
def Stops (h : Hub) : Exchange → Prop
  | .stop => True
  | .poll dead | .check _ _ dead => h.running = true ∧ dead = true
  | _ => False

/-- A start request. -/
def Exchange.isStart : Exchange → Bool
  | start .. => true
  | _ => false

/-- The proxy does not run, and nobody is about to reload it. -/
def Settled (h : Hub) : Prop := h.running = false ∧ ∀ client, h.pending client = none

section Stops

variable {effective : EffectiveEch} {h : Hub}

/-- The calls of the bridge leave what clients decided on. -/
theorem safe_pending (p : PmM Manager) (h : Hub) :
    p.Safe hubHost (fun _ ↦ True) (fun _ h' ↦ h'.pending = h.pending) h := by
  induction p generalizing h with
  | pure m => exact ⟨trivial, rfl⟩
  | call o k ih => exact ⟨trivial, fun c ↦ ih _ (hubHost.next h o c)⟩

/-- Releasing a cover or keeping it is no matter of the session. -/
theorem returns_applyCoverDisposition (m : Manager) (disposition : CoverDisposition)
    (lockdown : Option Guard) :
    (applyCoverDisposition m disposition lockdown).Returns fun m' ↦ m'.posture = m.posture := by
  cases disposition with
  | keepEngaged => cases lockdown with
    | none => exact rfl
    | some g => exact fun _ ↦ rfl
  | releaseNow =>
    refine Prog.returns_perform.bind fun released _ ↦ ?_
    have hposture :
        (if released.isOk then { m with adoptedStandingCover := false } else m).posture =
          m.posture := by
      split <;> rfl
    cases lockdown with
    | none => exact hposture
    | some g => exact fun _ ↦ hposture

/-- **A stop ends the session**, whatever becomes of its teardown. -/
theorem returns_stopWith (m : Manager) (event : SessionEvent) :
    (stopWith m event).Returns fun r ↦ r.1.posture.isSession = false := by
  have hpersist : (persistSessionEvent m event).Returns fun _ ↦ True := by
    unfold persistSessionEvent
    cases m.stateDir with
    | true => exact fun _ ↦ trivial
    | false => exact trivial
  refine hpersist.bind fun target _ ↦ ?_
  rcases hposture : m.posture with - | b | s
  · exact congrArg Posture.isSession hposture
  · simp only [settlePending]
    cases transientCoverDisposition event with
    | releaseNow => exact fun _ ↦ rfl
    | keepEngaged => exact fun _ ↦ rfl
  · refine Prog.returns_perform.bind fun res _ ↦ Prog.returns_perform.bind fun presence _ ↦ ?_
    have hintent : (effectiveLockdownIntent m).Returns fun _ ↦ True := by
      unfold effectiveLockdownIntent
      cases m.stateDir with
      | true => exact fun _ ↦ trivial
      | false => exact trivial
    refine hintent.bind fun intent _ ↦ ?_
    refine (returns_applyCoverDisposition { m with posture := .idle } _ s.lockdown).bind
      fun m' hm' ↦ ?_
    have hidle : (if event.preservesDeathReason then m' else m'.clearReasons).posture = .idle := by
      split <;> exact hm'
    exact congrArg Posture.isSession hidle

/-- A poll of a proxy that does not run leaves it so, and so does one that finds it dead. -/
theorem returns_pollHealth {m : Manager} {dead : Bool}
    (hm : m.posture.isSession = false ∨ dead = true) :
    (pollHealth m dead).Returns fun m' ↦ m'.posture.isSession = false := by
  unfold pollHealth checkHealth
  split
  · next event heq =>
    exact (returns_stopWith _ event).bind fun r hr ↦ hr
  · next m' heq =>
    split at heq
    · cases heq
    · next hlive =>
      cases heq
      show m.posture.isSession = false
      rcases hm with hm | rfl
      · exact hm
      · simpa using hlive

/-- What an exchange leaves of the decisions of clients, if the proxy does not run after it. -/
theorem settled_finish {e : Exchange} {m : Manager} {h' : Hub}
    (hm : m.posture.isSession = false) (hpending : ∀ client, h'.pending client = none) :
    Settled ((hub effective).finish h' e m) := by
  have hupdate (client : Nat) (client' : Nat) :
      update h'.pending client none client' = none := by
    rcases eq_or_ne client' client with rfl | hne
    · exact Function.update_self ..
    · rw [update_of_ne hne]
      exact hpending client'
  cases e with
  | start config covered => exact ⟨hm, hpending⟩
  | stop => exact ⟨hm, hpending⟩
  | poll dead => exact ⟨hm, hpending⟩
  | check client config dead =>
    refine ⟨hm, fun client' ↦ ?_⟩
    show update h'.pending client (if m.posture.isSession then some config else none)
      client' = none
    rw [hm]
    exact hupdate client client'
  | reload client => exact ⟨hm, hupdate client⟩
  | lose client => exact ⟨hm, hupdate client⟩

variable {e : Exchange × List PmChoice}

/-- An exchange whose program leaves no session. -/
theorem settled_step {p : PmM Manager} (hbody : (hub effective).body h e.1 = some p)
    (hreturns : p.Returns fun m ↦ m.posture.isSession = false)
    (hpending : ∀ client, h.pending client = none) : Settled ((hub effective).step h e) := by
  have hrun := ((safe_pending p h).and hreturns.safe).sound e.2
  have hstep : (hub effective).step h e = (hub effective).settle e.1 (p.run hubHost h e.2) := by
    unfold Machine.step
    rw [hbody]
    rfl
  rw [hstep]
  rcases hended : p.run hubHost h e.2 with ⟨- | m, h', cs⟩
  · exact ⟨rfl, fun _ ↦ rfl⟩
  · rw [hended] at hrun
    obtain ⟨hkept, hm⟩ := hrun.2 m rfl
    exact settled_finish hm fun client ↦ (congrFun hkept client).trans (hpending client)

/-- **A stop settles the hub**, if nobody is about to reload. -/
theorem settled_of_stops (hstops : Stops h e.1) (hpending : ∀ client, h.pending client = none) :
    Settled ((hub effective).step h e) := by
  obtain ⟨e, cs⟩ := e
  cases e with
  | stop =>
    exact settled_step rfl ((returns_stopWith _ .userStopped).bind fun r hr ↦ hr) hpending
  | poll dead => exact settled_step rfl (returns_pollHealth (.inr hstops.2)) hpending
  | check client config dead =>
    exact settled_step rfl (returns_pollHealth (.inr hstops.2)) hpending
  | _ => exact hstops.elim

/-- **A settled hub stays settled** without a start request. -/
theorem Settled.step (h' : Settled h) (he : e.1.isStart = false) :
    Settled ((hub effective).step h e) := by
  obtain ⟨e, cs⟩ := e
  cases e with
  | start config covered => cases he
  | stop =>
    exact settled_step rfl ((returns_stopWith _ .userStopped).bind fun r hr ↦ hr) h'.2
  | poll dead => exact settled_step rfl (returns_pollHealth (.inl h'.1)) h'.2
  | check client config dead => exact settled_step rfl (returns_pollHealth (.inl h'.1)) h'.2
  | reload client =>
    have hnone : (hub effective).step h (.reload client, cs) = h := by
      unfold Machine.step
      simp only [hub, h'.2 client]
    rw [hnone]
    exact h'
  | lose client =>
    refine settled_step rfl ?_ h'.2
    exact h'.1

/-- **A settings edit does not resurrect a stopped tunnel**: after a stop, and without a start
request, the proxy does not run, whatever is served in whatever order, if no stop is served between
a client's status exchange and its reload. -/
theorem reload_keeps_stopped (effective : EffectiveEch) (h : Hub)
    (before after : List (Exchange × List PmChoice)) (e : Exchange × List PmChoice)
    (hapart : (hub effective).Along (fun h e ↦ Stops h e.1 → ∀ client, h.pending client = none) h
      (before ++ e :: after))
    (hstop : Stops ((hub effective).exec h before) e.1)
    (hstart : ∀ e' ∈ after, e'.1.isStart = false) :
    ((hub effective).exec h (before ++ e :: after)).running = false := by
  have hsettled : Settled ((hub effective).exec h (before ++ e :: after)) := by
    have hafter : ∀ {h : Hub} (es : List (Exchange × List PmChoice)), Settled h →
        (∀ e' ∈ es, e'.1.isStart = false) → Settled ((hub effective).exec h es) := by
      intro h es hs hes
      exact Machine.exec_of_along (C := fun _ e' ↦ e'.1.isStart = false)
        (fun h' e' hs' he' ↦ hs'.step he') hs (Machine.along_of_forall hes)
    induction before generalizing h with
    | nil => exact hafter after (settled_of_stops hstop (hapart.1 hstop)) hstart
    | cons e' before ih => exact ih _ hapart.2 hstop
  exact hsettled.1

end Stops

/-! ### A stop in between -/

/-- A configuration without a plugin. -/
def plainConfig : ProxyConfig where
  server := ⟨"1", "", "198.51.100.7", 8388, "aes-256-gcm", "", none, none, none⟩
  localPort := 1080
  tunnelMode := .socksOnly
  dns := ⟨false, [], .https, false⟩
  proxySocks5 := true
  proxyHttp := false
  localPortHttp := 8080
  diagnosticPluginTap := false
  filters := []

/-- A bridge that has just started. -/
def freshHub : Hub := ⟨Bridge.World.start false false false .off .off, fun _ ↦ none⟩

/-- No plugin, so no resolver. -/
def noEch : EffectiveEch := fun _ _ _ ↦ .none

/-- The answers to a start that works. -/
def startWorks : List PmChoice :=
  [.ok, .resolved ⟨.ofOctets 198 51 100 7, .noQueryNeeded⟩, .ok, .ok, .ok]

/-- The answers to a stop that works. -/
def stopWorks : List PmChoice := [.ok, .presence .absent, .ok]

theorem reload_keeps_stopped_apart : ((hub noEch).exec freshHub
      ([(Exchange.start plainConfig false, startWorks), (.check 0 plainConfig false, []),
        (.reload 0, [])] ++ (Exchange.stop, stopWorks) ::
          [(.check 0 plainConfig false, []), (.reload 0, startWorks)])).running =
      false := by
  refine reload_keeps_stopped noEch freshHub _ _ _ ?_ trivial (by decide)
  have hlive {h : Hub} : ¬ Stops h (.check 0 plainConfig false) := fun hs ↦ nomatch hs.2
  refine And.intro (fun hs ↦ hs.elim) (And.intro (fun hs ↦ (hlive hs).elim) (And.intro
    (fun hs ↦ hs.elim) (And.intro (fun _ client ↦ ?_) (And.intro (fun hs ↦ (hlive hs).elim)
      (And.intro (fun hs ↦ hs.elim) trivial)))))
  rcases eq_or_ne client 0 with rfl | hne
  · rfl
  · show update (update (fun _ ↦ none) 0 (some plainConfig)) 0 none client = none
    rw [update_of_ne hne, update_of_ne hne]

/-- Another client's stop is served between the status exchange and the reload, which then starts
the proxy. -/
theorem stopped_tunnel_resurrected :
    let run : List (Exchange × List PmChoice) :=
      [(Exchange.start plainConfig false, startWorks), (.check 0 plainConfig false, [])] ++
        (Exchange.stop, stopWorks) :: [(.reload 0, startWorks)]
    ((hub noEch).exec freshHub run).running = true ∧
      ((hub noEch).exec freshHub run).pending 0 = none ∧
      ((hub noEch).exec freshHub (run.take 3)).running = false :=
  ⟨rfl, rfl, rfl⟩

end Hole.Gui
