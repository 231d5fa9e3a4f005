import Mathlib.Data.List.Basic

/-!
# The uninstall's release of covers

`release_covers_with` (`bridge/src/cutover.rs`): take the liveness lock of the state directory and
of every peer directory, record the target off, and release every cover. A lock contends with the
lock of any other handle, also with one of this process, and a peer is skipped where its path was
probed before: paths are compared, not directories, so that `dirOf` stands between the two.

A path here is one up to the equality of paths. What the release gives back is left out, but for the
directories whose boot-time record it is corroborated with.
-/

namespace Hole.Cutover

variable {S D : Type}

/-- What the host answers: `S` are the paths and `D` the directories. -/
structure Host (S D : Type) where
  dirOf : S → D
  /-- Another process holds the lock of the directory. -/
  otherHolds : D → Bool
  attemptFails : S → Bool
  targetWrites : Bool
  releases : Bool
  candidateWrites : Bool
  intentWrites : Bool

/-- How an attempt for a lock ends. -/
inductive Acquired
  | held
  | contended
  | failed

/-- What the release does. -/
inductive Act (S D : Type)
  | attempts (dir : S)
  | writesTarget
  | releases (held : List D)
  | loadsWitness (dir : S)
  | writesCandidate
  | writesIntent
  | drops

/-- The errors of a release. -/
inductive ReleaseError
  /-- The lock of the state directory cannot be attempted. -/
  | lock
  /-- "a bridge instance is running; stop the bridge before releasing its fail-closed covers". -/
  | running
  /-- "could not record target off". -/
  | target
  | release
  deriving DecidableEq

namespace Host

variable [DecidableEq S] [DecidableEq D] (host : Host S D)

/-- `BridgeLiveness::try_acquire`, by a process that holds the locks of `held`. -/
def tryAcquire (held : List D) (dir : S) : Acquired :=
  if host.attemptFails dir then .failed
  else if host.otherHolds (host.dirOf dir) || host.dirOf dir ∈ held then .contended
  else .held

/-- The loop over the peers: the locks held and the paths probed, nothing where a lock contends, and
the attempts made. -/
def probePeers (held : List D) (probed : List S) :
    List S → Option (List D × List S) × List (Act S D)
  | [] => (some (held, probed), [])
  | peer :: rest =>
    if peer ∈ probed then probePeers held probed rest
    else
      match host.tryAcquire held peer with
      | .held =>
        let r := probePeers (host.dirOf peer :: held) (probed ++ [peer]) rest
        (r.1, .attempts peer :: r.2)
      | .contended => (none, [.attempts peer])
      | .failed =>
        let r := probePeers held (probed ++ [peer]) rest
        (r.1, .attempts peer :: r.2)

/-- What follows once every lock is held. -/
def releaseHeld (held : List D) (probed : List S) :
    Except ReleaseError (List S) × List (Act S D) :=
  if !host.targetWrites then (.error .target, [])
  else if !host.releases then (.error .release, [.writesTarget, .releases held])
  else
    (.ok probed, .writesTarget :: .releases held :: (probed.map Act.loadsWitness ++
      (if host.candidateWrites then [Act.writesCandidate] else []) ++
      (if host.intentWrites then [Act.writesIntent] else []) ++ [Act.drops]))

/-- `release_covers_with`. -/
def releaseCoversWith (stateDir : S) (peers : List S) :
    Except ReleaseError (List S) × List (Act S D) :=
  match host.tryAcquire [] stateDir with
  | .failed => (.error .lock, [.attempts stateDir])
  | .contended => (.error .running, [.attempts stateDir])
  | .held =>
    match host.probePeers [host.dirOf stateDir] [stateDir] peers with
    | (none, attempts) => (.error .running, .attempts stateDir :: attempts)
    | (some (held, probed), attempts) =>
      let r := host.releaseHeld held probed
      (r.1, .attempts stateDir :: (attempts ++ r.2))

end Host

/-- The act writes a state file. -/
def Act.writes : Act S D → Bool
  | attempts _ => false
  | writesTarget => true
  | releases _ => false
  | loadsWitness _ => false
  | writesCandidate => true
  | writesIntent => true
  | drops => false

/-- The act is the release. -/
def Act.isRelease : Act S D → Bool
  | releases _ => true
  | _ => false

/-- The acts up to the release, or all where there is none. -/
def beforeRelease (acts : List (Act S D)) : List (Act S D) := acts.takeWhile fun a ↦ !a.isRelease

section Excludes

variable [DecidableEq S] [DecidableEq D] (host : Host S D) (stateDir : S) (peers : List S)

/-- The release excludes bridges and only bridges. -/
structure Excludes : Prop where
  /-- It runs while every lock is held that could be attempted. -/
  holds : ∀ held, .releases held ∈ (host.releaseCoversWith stateDir peers).2 →
    host.dirOf stateDir ∈ held ∧
      ∀ peer ∈ peers, host.attemptFails peer = false → host.dirOf peer ∈ held
  /-- It is refused for a bridge only if another process holds one of the locks. -/
  refuses : (host.releaseCoversWith stateDir peers).1 = .error .running →
    ∃ dir ∈ stateDir :: peers, host.otherHolds (host.dirOf dir)
  /-- Nothing but the target is written before it. -/
  writes : ∀ act ∈ beforeRelease (host.releaseCoversWith stateDir peers).2,
    act.writes → act = .writesTarget

/-- No two paths whose locks can be attempted lead to one directory. -/
def NoAlias : Prop :=
  ∀ s ∈ stateDir :: peers, ∀ t ∈ stateDir :: peers, host.attemptFails s = false →
    host.attemptFails t = false → host.dirOf s = host.dirOf t → s = t

end Excludes

/-! ### The loop -/

section Loop

variable {host : Host S D} {held held' : List D} {probed probed' : List S}
    {attempts : List (Act S D)}

/-- The locks held are those of the paths probed, one path for each. -/
structure Probed (host : Host S D) (held : List D) (probed : List S) : Prop where
  held_of_probed : ∀ s ∈ probed, host.attemptFails s = false → host.dirOf s ∈ held
  probed_of_held : ∀ d ∈ held, ∃ s ∈ probed, host.attemptFails s = false ∧ host.dirOf s = d
  inj : ∀ s ∈ probed, ∀ t ∈ probed, host.attemptFails s = false → host.attemptFails t = false →
    host.dirOf s = host.dirOf t → s = t

theorem Probed.failed (h : Probed host held probed) {peer : S} (hfails : host.attemptFails peer) :
    Probed host held (probed ++ [peer]) := by
  have hprobed {s : S} (hs : s ∈ probed ++ [peer]) (hattempt : host.attemptFails s = false) :
      s ∈ probed := by
    obtain hs | hs := List.mem_append.1 hs
    · exact hs
    · rw [List.mem_singleton.1 hs, hfails] at hattempt
      cases hattempt
  refine ⟨fun s hs hattempt ↦ h.held_of_probed s (hprobed hs hattempt) hattempt, fun d hd ↦ ?_,
    fun s hs t ht hsa hta ↦ h.inj s (hprobed hs hsa) t (hprobed ht hta) hsa hta⟩
  obtain ⟨s, hs, hattempt, hdir⟩ := h.probed_of_held d hd
  exact ⟨s, List.mem_append_left _ hs, hattempt, hdir⟩

theorem Probed.acquire (h : Probed host held probed) {peer : S}
    (hattempt : host.attemptFails peer = false) (hfree : host.dirOf peer ∉ held) :
    Probed host (host.dirOf peer :: held) (probed ++ [peer]) := by
  refine ⟨fun s hs hsa ↦ ?_, fun d hd ↦ ?_, fun s hs t ht hsa hta hdir ↦ ?_⟩
  · obtain hs | hs := List.mem_append.1 hs
    · exact .tail _ (h.held_of_probed s hs hsa)
    · rw [List.mem_singleton.1 hs]
      exact .head _ ..
  · obtain rfl | hd := List.mem_cons.1 hd
    · exact ⟨peer, by simp, hattempt, rfl⟩
    · obtain ⟨s, hs, hsa, hdir⟩ := h.probed_of_held d hd
      exact ⟨s, List.mem_append_left _ hs, hsa, hdir⟩
  · -- A path probed before leads to a directory whose lock is held, and the peer does not.
    have hne {u : S} (hu : u ∈ probed) (hua : host.attemptFails u = false) :
        host.dirOf u ≠ host.dirOf peer := fun heq ↦ hfree (heq ▸ h.held_of_probed u hu hua)
    obtain hs | hs := List.mem_append.1 hs
    · obtain ht | ht := List.mem_append.1 ht
      · exact h.inj s hs t ht hsa hta hdir
      · rw [List.mem_singleton.1 ht] at hdir
        exact absurd hdir (hne hs hsa)
    · rw [List.mem_singleton.1 hs] at hdir ⊢
      obtain ht | ht := List.mem_append.1 ht
      · exact absurd hdir.symm (hne ht hta)
      · exact (List.mem_singleton.1 ht).symm

variable [DecidableEq D]

theorem tryAcquire_held {dir : S} (h : host.tryAcquire held dir = .held) :
    host.attemptFails dir = false ∧ host.dirOf dir ∉ held := by
  unfold Host.tryAcquire at h
  split at h
  · cases h
  · next hattempt =>
    split at h
    · cases h
    · next hfree => exact ⟨by simpa using hattempt, fun hmem ↦ hfree (by simp [hmem])⟩

theorem tryAcquire_contended {dir : S} (h : host.tryAcquire held dir = .contended) :
    host.attemptFails dir = false ∧ (host.otherHolds (host.dirOf dir) ∨ host.dirOf dir ∈ held) := by
  unfold Host.tryAcquire at h
  split at h
  · cases h
  · next hattempt =>
    split at h
    · next hcontends => exact ⟨by simpa using hattempt, by simpa using hcontends⟩
    · cases h

theorem tryAcquire_failed {dir : S} (h : host.tryAcquire held dir = .failed) :
    host.attemptFails dir := by
  unfold Host.tryAcquire at h
  split at h
  · assumption
  · split at h <;> cases h

variable [DecidableEq S]

/-- A loop that ends has probed every peer. -/
theorem probed_of_probePeers (h : Probed host held probed) {peers : List S}
    (hrun : (host.probePeers held probed peers).1 = some (held', probed')) :
    Probed host held' probed' ∧ probed ⊆ probed' ∧ peers ⊆ probed' := by
  induction peers generalizing held probed with
  | nil =>
    cases hrun
    exact ⟨h, List.Subset.refl _, List.nil_subset _⟩
  | cons peer rest ih =>
    unfold Host.probePeers at hrun
    split at hrun
    · next hmem =>
      obtain ⟨hprobed, hsub, hrest⟩ := ih h hrun
      exact ⟨hprobed, hsub, List.cons_subset.2 ⟨hsub hmem, hrest⟩⟩
    · have hgo {held₁ : List D} (hnext : Probed host held₁ (probed ++ [peer]))
          (hrun : (host.probePeers held₁ (probed ++ [peer]) rest).1 = some (held', probed')) :
          Probed host held' probed' ∧ probed ⊆ probed' ∧ peer :: rest ⊆ probed' := by
        obtain ⟨hprobed, hsub, hrest⟩ := ih hnext hrun
        exact ⟨hprobed, fun s hs ↦ hsub (List.mem_append_left _ hs),
          List.cons_subset.2 ⟨hsub (by simp), hrest⟩⟩
      split at hrun
      · next hacquire =>
        obtain ⟨hattempt, hfree⟩ := tryAcquire_held hacquire
        exact hgo (h.acquire hattempt hfree) hrun
      · cases hrun
      · next hfailed => exact hgo (h.failed (tryAcquire_failed hfailed)) hrun

/-- A loop that is refused meets another process, or a second path to a directory that it holds the
lock of. -/
theorem contended_of_probePeers (h : Probed host held probed) {peers : List S}
    (hrun : (host.probePeers held probed peers).1 = none) :
    (∃ peer ∈ peers, host.otherHolds (host.dirOf peer)) ∨
      ∃ peer ∈ peers, ∃ s, (s ∈ probed ∨ s ∈ peers) ∧ s ≠ peer ∧ host.attemptFails s = false ∧
        host.attemptFails peer = false ∧ host.dirOf s = host.dirOf peer := by
  induction peers generalizing held probed with
  | nil => cases hrun
  | cons peer rest ih =>
    have hlift {probed₁ : List S} (hsub : ∀ s ∈ probed₁, s ∈ probed ∨ s ∈ peer :: rest)
        (hrest : (∃ peer ∈ rest, host.otherHolds (host.dirOf peer)) ∨
          ∃ peer ∈ rest, ∃ s, (s ∈ probed₁ ∨ s ∈ rest) ∧ s ≠ peer ∧ host.attemptFails s = false ∧
            host.attemptFails peer = false ∧ host.dirOf s = host.dirOf peer) :
        (∃ p ∈ peer :: rest, host.otherHolds (host.dirOf p)) ∨
          ∃ p ∈ peer :: rest, ∃ s, (s ∈ probed ∨ s ∈ peer :: rest) ∧ s ≠ p ∧
            host.attemptFails s = false ∧ host.attemptFails p = false ∧
              host.dirOf s = host.dirOf p := by
      obtain ⟨p, hp, hother⟩ | ⟨p, hp, s, hs, hne⟩ := hrest
      · exact .inl ⟨p, .tail _ hp, hother⟩
      · exact .inr ⟨p, .tail _ hp, s,
          hs.elim (hsub s) (fun hs ↦ .inr (.tail _ hs)), hne⟩
    have happend : ∀ s ∈ probed ++ [peer], s ∈ probed ∨ s ∈ peer :: rest := by
      intro s hs
      obtain hs | hs := List.mem_append.1 hs
      · exact .inl hs
      · exact .inr (List.mem_singleton.1 hs ▸ (.head _) ..)
    unfold Host.probePeers at hrun
    split at hrun
    · exact hlift (fun _ hs ↦ .inl hs) (ih h hrun)
    · next hmem =>
      split at hrun
      · next hacquire =>
        obtain ⟨hattempt, hfree⟩ := tryAcquire_held hacquire
        exact hlift happend (ih (h.acquire hattempt hfree) hrun)
      · next hcontended =>
        obtain ⟨hattempt, hother | hheld⟩ := tryAcquire_contended hcontended
        · exact .inl ⟨peer, .head _ .., hother⟩
        · obtain ⟨s, hs, hsa, hdir⟩ := h.probed_of_held _ hheld
          exact .inr ⟨peer, .head _ .., s, .inl hs, fun heq ↦ hmem (heq ▸ hs), hsa,
            hattempt, hdir⟩
      · next hfailed => exact hlift happend (ih (h.failed (tryAcquire_failed hfailed)) hrun)

/-- The loop only attempts locks. -/
theorem attempts_of_probePeers (host : Host S D) (held : List D) (probed peers : List S) :
    ∀ act ∈ (host.probePeers held probed peers).2, ∃ dir, act = .attempts dir := by
  induction peers generalizing held probed with
  | nil => nofun
  | cons peer rest ih =>
    have hcons {acts : List (Act S D)} (hacts : ∀ act ∈ acts, ∃ dir, act = .attempts dir) :
        ∀ act ∈ Act.attempts peer :: acts, ∃ dir, act = .attempts dir :=
      List.forall_mem_cons.2 ⟨⟨peer, rfl⟩, hacts⟩
    unfold Host.probePeers
    split
    · exact ih held probed
    · split
      · exact hcons (ih _ _)
      · exact hcons nofun
      · exact hcons (ih _ _)

end Loop

/-! ### The release -/

section Release

variable {host : Host S D} {stateDir : S} {attempts : List (Act S D)}

/-- Of the acts after the locks, only a write of the target precedes the release. -/
theorem releaseHeld_acts (host : Host S D) (held : List D) (probed : List S) :
    (∀ held', .releases held' ∈ (host.releaseHeld held probed).2 → held' = held) ∧
      ∀ act ∈ beforeRelease (host.releaseHeld held probed).2, act = .writesTarget := by
  unfold Host.releaseHeld
  split
  · exact ⟨nofun, nofun⟩
  · split
    · exact ⟨by simp, by simp [beforeRelease, Act.isRelease]⟩
    · refine ⟨fun held' hmem ↦ ?_, by simp [beforeRelease, Act.isRelease]⟩
      cases host.candidateWrites <;> cases host.intentWrites <;> simpa using hmem

/-- Attempts stand before the release and write nothing. -/
theorem mem_beforeRelease_append {acts : List (Act S D)}
    (hattempts : ∀ act ∈ attempts, ∃ dir, act = .attempts dir) {act : Act S D}
    (hact : act ∈ beforeRelease (attempts ++ acts)) (hwrites : act.writes) :
    act ∈ beforeRelease acts := by
  induction attempts with
  | nil => exact hact
  | cons a attempts ih =>
    obtain ⟨⟨dir, rfl⟩, hrest⟩ := List.forall_mem_cons.1 hattempts
    obtain rfl | hact := List.mem_cons.1 hact
    · cases hwrites
    · exact ih hrest hact

/-- The state directory is probed first. -/
theorem probed_stateDir (hattempt : host.attemptFails stateDir = false) :
    Probed host [host.dirOf stateDir] [stateDir] := by
  refine ⟨fun s hs _ ↦ ?_, fun d hd ↦ ?_, fun s hs t ht _ _ _ ↦ ?_⟩
  · rw [List.mem_singleton.1 hs]
    exact .head _ ..
  · exact ⟨stateDir, .head _ .., hattempt, (List.mem_singleton.1 hd).symm⟩
  · rw [List.mem_singleton.1 hs, List.mem_singleton.1 ht]

variable [DecidableEq S] [DecidableEq D]

/-- What the call can do. -/
theorem releaseCoversWith_cases (host : Host S D) (stateDir : S) (peers : List S) :
    (host.attemptFails stateDir ∧
      host.releaseCoversWith stateDir peers = (.error .lock, [.attempts stateDir])) ∨
    (host.attemptFails stateDir = false ∧
      (host.releaseCoversWith stateDir peers).1 = .error .running ∧
      (∀ act ∈ (host.releaseCoversWith stateDir peers).2, ∃ dir, act = .attempts dir) ∧
      ((∃ dir ∈ stateDir :: peers, host.otherHolds (host.dirOf dir)) ∨
        ¬NoAlias host stateDir peers)) ∨
    (host.attemptFails stateDir = false ∧ NoAlias host stateDir peers ∧
      ∃ held probed attempts, Probed host held probed ∧ stateDir :: peers ⊆ probed ∧
        (∀ act ∈ attempts, ∃ dir, act = .attempts dir) ∧
        host.releaseCoversWith stateDir peers =
          ((host.releaseHeld held probed).1, attempts ++ (host.releaseHeld held probed).2)) := by
  cases hacquire : host.tryAcquire [] stateDir with
  | failed => exact .inl ⟨tryAcquire_failed hacquire, by simp [Host.releaseCoversWith, hacquire]⟩
  | contended =>
    obtain ⟨hattempt, hother | hheld⟩ := tryAcquire_contended hacquire
    · refine .inr (.inl ⟨hattempt, ?_, ?_, .inl ⟨stateDir, .head _ .., hother⟩⟩)
      · simp [Host.releaseCoversWith, hacquire]
      · simp [Host.releaseCoversWith, hacquire]
    · cases hheld
  | held =>
    obtain ⟨hattempt, -⟩ := tryAcquire_held hacquire
    have hprobed := probed_stateDir hattempt
    have hattempts := attempts_of_probePeers host [host.dirOf stateDir] [stateDir] peers
    rcases hrun : host.probePeers [host.dirOf stateDir] [stateDir] peers with
      ⟨- | ⟨held, probed⟩, attempts⟩
    · rw [hrun] at hattempts
      refine .inr (.inl ⟨hattempt, ?_, ?_, ?_⟩)
      · simp [Host.releaseCoversWith, hacquire, hrun]
      · have hacts : (host.releaseCoversWith stateDir peers).2 =
            .attempts stateDir :: attempts := by
          simp [Host.releaseCoversWith, hacquire, hrun]
        rw [hacts]
        exact List.forall_mem_cons.2 ⟨⟨stateDir, rfl⟩, hattempts⟩
      · obtain ⟨peer, hpeer, hother⟩ | ⟨peer, hpeer, s, hs, hne, hsa, hpa, hdir⟩ :=
          contended_of_probePeers hprobed (congrArg Prod.fst hrun)
        · exact .inl ⟨peer, .tail _ hpeer, hother⟩
        · refine .inr fun hnoAlias ↦ hne (hnoAlias s ?_ peer
            (.tail _ hpeer) hsa hpa hdir)
          exact hs.elim (fun hs ↦ List.mem_singleton.1 hs ▸ (.head _) ..)
            (List.mem_cons_of_mem _)
    · rw [hrun] at hattempts
      obtain ⟨hheld, hsub, hpeers⟩ := probed_of_probePeers hprobed (congrArg Prod.fst hrun)
      have hall : stateDir :: peers ⊆ probed :=
        List.cons_subset.2 ⟨hsub (.head _ ..), hpeers⟩
      refine .inr (.inr ⟨hattempt, fun s hs t ht ↦ hheld.inj s (hall hs) t (hall ht), held, probed,
        .attempts stateDir :: attempts, hheld, hall,
        List.forall_mem_cons.2 ⟨⟨stateDir, rfl⟩, hattempts⟩, ?_⟩)
      simp [Host.releaseCoversWith, hacquire, hrun]

/-- **The release excludes bridges and only bridges exactly if no two paths lead to one directory**,
where no other process holds a lock and the own lock can be attempted. -/
theorem excludes_iff (host : Host S D) (stateDir : S) (peers : List S) :
    Excludes host stateDir peers ↔
      host.attemptFails stateDir ∨ (∃ dir ∈ stateDir :: peers, host.otherHolds (host.dirOf dir)) ∨
        NoAlias host stateDir peers := by
  rcases releaseCoversWith_cases host stateDir peers with
    ⟨hfails, hrun⟩ | ⟨hattempt, hresult, hacts, hwhy⟩ |
      ⟨hattempt, hnoAlias, held, probed, attempts, hprobed, hall, hattempts, hrun⟩
  · refine iff_of_true ⟨?_, ?_, ?_⟩ (.inl hfails)
    · simp [hrun]
    · simp [hrun]
    · simp [hrun, beforeRelease, Act.isRelease, Act.writes]
  · constructor
    · exact fun h ↦ .inr (.inl (h.refuses hresult))
    · intro hcondition
      have hother : ∃ dir ∈ stateDir :: peers, host.otherHolds (host.dirOf dir) := by
        obtain hfails | hother | hnoAlias := hcondition
        · rw [hattempt] at hfails
          cases hfails
        · exact hother
        · exact hwhy.resolve_right (not_not_intro hnoAlias)
      refine ⟨fun held hmem ↦ ?_, fun _ ↦ hother, fun act hact hwrites ↦ ?_⟩
      · obtain ⟨dir, hdir⟩ := hacts _ hmem
        cases hdir
      · obtain ⟨dir, rfl⟩ := hacts act (List.takeWhile_subset _ hact)
        cases hwrites
  · refine iff_of_true ⟨fun held' hmem ↦ ?_, fun hresult ↦ ?_, fun act hact hwrites ↦ ?_⟩
      (.inr (.inr hnoAlias))
    · rw [hrun] at hmem
      have hheld : .releases held' ∈ (host.releaseHeld held probed).2 := by
        refine (List.mem_append.1 hmem).resolve_left fun hmem ↦ ?_
        obtain ⟨dir, hdir⟩ := hattempts _ hmem
        cases hdir
      obtain rfl := (releaseHeld_acts host held probed).1 held' hheld
      exact ⟨hprobed.held_of_probed _ (hall (.head _ ..)) hattempt, fun peer hpeer ↦
        hprobed.held_of_probed _ (hall (.tail _ hpeer))⟩
    · rw [hrun] at hresult
      unfold Host.releaseHeld at hresult
      split at hresult
      · cases hresult
      · split at hresult <;> cases hresult
    · rw [hrun] at hact
      exact (releaseHeld_acts host held probed).2 act
        (mem_beforeRelease_append hattempts hact hwrites)

end Release

/-- A host where paths lead to one directory whatever the case of their letters, with no bridge. -/
def caseless : Host (List Char) (List Char) where
  dirOf path := path.map Char.toLower
  otherHolds _ := false
  attemptFails _ := false
  targetWrites := true
  releases := true
  candidateWrites := true
  intentWrites := true

/-- The local profile of the system account under two spellings: the release is refused for a bridge
that does not run. -/
theorem refused_for_own_lock :
    let dir := "C:\\ProgramData\\hole\\state".toList
    let peers := ["C:\\Windows\\system32\\config\\systemprofile\\hole\\state".toList,
      "C:\\WINDOWS\\system32\\config\\systemprofile\\hole\\state".toList]
    (caseless.releaseCoversWith dir peers).1 = .error .running ∧
      ∀ path ∈ dir :: peers, caseless.otherHolds (caseless.dirOf path) = false := by
  decide

end Hole.Cutover
