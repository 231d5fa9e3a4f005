import Hole.Tun.Bookkeeping
import Hole.Tun.ParseAgree

/-!
# A packet settles

The stages of `settle_packet` after the first poll, and runs of it. The verdict on a handshake is
about one listener at most (`started_le_one`). That one has the ends of the segment, and perhaps so
does an owner; one of the two goes, and which depends on the ISNs (`OwnerRule`). A connection that a
reset has set back to `Listen` is retired, and the second poll drops it.

A stage that returns has not panicked: no call was on a slot that is free, and no assertion failed.

* `accept_spec`, `relay_spec`, `cleanup_spec`, `settled_of_poll`: one stage each.
* `settle_spec`: a whole packet, from one settled state to the next.
* `Driver.books_of_run`: every run of packets, from a new driver on.
-/

namespace Hole.Tun

open SocketStack

/-! ### Loops -/

section Loops

variable {ι β : Type} {f : β → ι → Option β}

/-- A loop whose turns all return returns. -/
theorem foldlM_returns {L : List ι → β → Prop}
    (hstep : ∀ x xs b, L (x :: xs) b → ∃ b', f b x = some b' ∧ L xs b') (l : List ι) (b : β)
    (h : L l b) : ∃ b', l.foldlM f b = some b' ∧ L [] b' := by
  induction l generalizing b with
  | nil => exact ⟨b, rfl, h⟩
  | cons x xs ih =>
    obtain ⟨b₁, hturn, h₁⟩ := hstep x xs b h
    obtain ⟨b', hrest, h'⟩ := ih b₁ h₁
    refine ⟨b', ?_, h'⟩
    rw [List.foldlM_cons, hturn]
    exact hrest

end Loops

/-! ### The listener that has left -/

section Accept

variable {w w' : SocketStack} {rest : List Nat} {l : TcpListener}

/-- A handshake is taken of one listener, or none has left `Listen`. -/
theorem takeHandshakes_spec (b : Booked w rest) {segment : Option (SocketAddr × SocketAddr)}
    (hheard : Heard segment w) :
    (w.takeHandshakes = some ([], { w with pendingSyn := none }) ∧
      ∀ l ∈ w.listeners, ∃ s, w.socket l.handle = some s ∧ s.state = .listen) ∨
    ∃ l ∈ w.listeners, ∃ s src dst handshake isns, w.socket l.handle = some s ∧
      s.tuple = some (dst, src) ∧ Verdict w l src dst handshake isns ∧
      w.takeHandshakes = some ([handshake], { without w l with ownerIsn := isns }) ∧
      ∀ l' ∈ w.listeners, l' ∉ [l] → ∃ s, w.socket l'.handle = some s ∧ s.state = .listen := by
  obtain ⟨out, hstart, hsub, hrest, hstarted⟩ :=
    started_spec (w := w) fun l hl ↦ b.socket_of_listener hl
  rcases started_le_one hheard b.ports hsub hstarted with rfl | ⟨l, rfl⟩
  · refine .inl ⟨?_, fun l hl ↦ hrest l hl List.not_mem_nil⟩
    rw [takeHandshakes, hstart]
    rfl
  · have hl : l ∈ w.listeners := hsub.subset (.head _)
    obtain ⟨s, hs, hstate⟩ := hstarted l (.head _)
    obtain ⟨s', hs', -, hleft⟩ := hheard.listeners l hl
    obtain rfl := Option.mem_unique hs hs'
    obtain ⟨⟨dst, src⟩, -, htuple, -⟩ := hleft.resolve_left hstate
    obtain ⟨handshake, isns, hverdict, htake⟩ := takeHandshake_spec hs htuple
    refine .inr ⟨l, hl, s, src, dst, handshake, isns, hs, htuple, hverdict, ?_, hrest⟩
    rw [takeHandshakes, hstart]
    dsimp only [bind, Option.bind, takeAll]
    rw [htake]

/-- The ISN of a verdict is of a socket that lives. -/
theorem Verdict.booked {src dst : SocketAddr} {handshake : Handshake} {isns : Nat → Option Nat}
    (hverdict : Verdict w l src dst handshake isns) {s : TcpSocket}
    (hs : w.socket l.handle = some s) (b : Booked (without w l) rest) :
    Booked { without w l with ownerIsn := isns } rest := by
  cases hverdict with
  | duplicate owner howner hsame => exact b
  | supersedes owner a _ howner hseen hisn hne => exact b.setIsn hs (some a)
  | fresh isns hnone hisns =>
    rcases hisns with rfl | ⟨a, rfl⟩
    · exact b
    · exact b.setIsn hs (some a)

end Accept

/-! ### The verdict -/

section Verdict

variable {w : SocketStack} {rest : List Nat} {h : Nat}

theorem dropDuplicate_spec (b : Booked w (h :: rest)) (n : Near w h) (port : Nat) :
    ∃ w', w.dropDuplicate h port = some w' ∧ Booked w' rest ∧ Tidy w' ∧
      w'.retiring = w.retiring ∧
      ∀ k s, k ≠ h → w.socket k = some s → w'.socket k = some s ∧ w'.ownerIsn k = w.ownerIsn k := by
  obtain ⟨hlisteners, hretiring⟩ := b.not_mem (.head _)
  obtain ⟨w₁, hremove, b₁, heq⟩ := b.remove (h := h) (List.mem_append_right _ (.head _))
  rw [List.erase_cons_head] at b₁
  have t₁ : Tidy w₁ := n.remove (r := h) hlisteners (by rw [heq]) (by rw [heq])
    fun k s s' ends _ _ hne ↦ absurd rfl hne
  refine ⟨w₁.ensureListener port, by rw [dropDuplicate, hremove]; rfl, b₁.ensureListener port,
    t₁.ensureListener port, ?_, fun k s hne hs ↦ ⟨socket_ensureListener ?_ port, ?_⟩⟩
  · rw [(ensureListener_rest w₁ port).1, heq]
    refine List.filter_eq_self.2 fun k hk ↦ decide_eq_true ?_
    rintro rfl
    exact hretiring hk
  · rw [heq]
    exact (w.sockets.get?_remove h k).trans ((if_neg hne).trans hs)
  · rw [(ensureListener_rest w₁ port).2.1, heq]
    exact Function.update_of_ne hne ..

/-- The stale owner is removed, wherever it is. -/
theorem supersede_spec {connections : List Nat} (b : Booked w (h :: connections)) (n : Near w h)
    {stale : Nat} (hne : stale ≠ h) {s s' : TcpSocket} (hs : w.socket stale = some s)
    (hs' : w.socket h = some s') {ends : SocketAddr × SocketAddr} (htuple : s.tuple = some ends)
    (htuple' : s'.tuple = some ends) :
    ∃ w', w.remove stale = some w' ∧ Booked w' (h :: connections.erase stale) ∧ Tidy w' ∧
      stale ∉ w'.retiring ∧ stale ∉ connections.erase stale ∧ w'.ownerIsn h = w.ownerIsn h := by
  -- The owner has ends, and no listener that listens has.
  have hlisteners : ∀ l ∈ w.listeners, l.handle ≠ stale := by
    rintro l hl rfl
    obtain ⟨s₀, hs₀, hstate, -⟩ := n.listening l hl
    obtain rfl := Option.mem_unique hs hs₀
    rw [n.blank _ s hs hstate] at htuple
    cases htuple
  have hmem : stale ∈ w.retiring ++ h :: connections := by
    have hbooked := (b.handles.mem stale).2 (Option.isSome_of_eq_some hs)
    rw [List.append_assoc] at hbooked
    refine (List.mem_append.1 hbooked).resolve_left fun hin ↦ ?_
    obtain ⟨l, hl, hhandle⟩ := List.mem_map.1 hin
    exact hlisteners l hl hhandle
  obtain ⟨w₁, hremove, b₁, heq⟩ := b.remove hmem
  rw [List.erase_cons_tail (by simpa using hne.symm)] at b₁
  have hnodup : connections.Nodup :=
    (List.nodup_cons.1 (List.nodup_append'.1 b.handles.nodup).2.1).2
  refine ⟨w₁, hremove, b₁, ?_, ?_, hnodup.not_mem_erase, ?_⟩
  · refine n.remove hlisteners (by rw [heq])
      (by rw [heq]) fun k s₁ s₂ ends' hk hk' _ hs₁ hs₂ ht₁ ht₂ ↦ ?_
    -- The owner has the ends of the listener, and a third socket cannot have them.
    obtain rfl := Option.mem_unique hs' hs₂
    obtain rfl := Option.mem_unique htuple' ht₂
    rcases n.unique k stale s₁ s ends hs₁ hs ht₁ htuple with hsame | hsame | hsame
    · exact hk' hsame
    · exact hk hsame
    · exact hne hsame
  · rw [heq]
    simp
  · rw [heq]
    exact Function.update_of_ne hne.symm ..

/-- The permit decides which list the handle is put in. -/
inductive Decided (acquire : Nat → Bool) (h : Nat) (d d' : Driver) : Prop
  | admitted (hpermit : acquire h = true) (hconnections : d'.connections = d.connections ++ [h])
      (hretiring : d'.stack.retiring = d.stack.retiring)
  | refused (hpermit : acquire h = false) (hconnections : d'.connections = d.connections)
      (hretiring : d'.stack.retiring = d.stack.retiring ++ [h])

/-- The end of a turn of the loop of `accept_tcp_connections`. -/
theorem decided_spec {d : Driver} (b : Booked d.stack (h :: d.connections)) (t : Tidy d.stack)
    (acquire : Nat → Bool) (port : Nat) :
    ∃ d', (if acquire h then do
        let stack ← d.stack.admitSocket h port
        some { stack := stack, connections := d.insertConnection h }
      else do
        let stack ← d.stack.refuse h port
        some { d with stack := stack }) = some d' ∧ Booked d'.stack d'.connections ∧ Tidy d'.stack ∧
      d'.stack.ownerIsn = d.stack.ownerIsn ∧ Decided acquire h d d' := by
  have hnot : h ∉ d.connections := (List.nodup_cons.1 (List.nodup_append'.1 b.handles.nodup).2.1).1
  cases hpermit : acquire h with
  | true =>
    obtain ⟨w', hadmit, b', t', hretiring, hisn⟩ := admit_spec b t port
    have hinsert : d.insertConnection h = d.connections ++ [h] := if_neg hnot
    rw [if_pos rfl, hadmit, hinsert]
    exact ⟨_, rfl, b'.perm (List.perm_append_singleton h d.connections).symm, t', hisn,
      .admitted hpermit rfl hretiring⟩
  | false =>
    obtain ⟨w', hrefuse, b', t', hretiring, hisn⟩ := refuse_spec b t port
    rw [if_neg Bool.false_ne_true, hrefuse]
    exact ⟨_, rfl, b', t', hisn, .refused hpermit rfl hretiring⟩

end Verdict

/-! ### Owners -/

/-- A listener took a segment whose ends another socket has, which is their owner. -/
structure Contested (w : SocketStack) (l : TcpListener) (owner : Nat) (src dst : SocketAddr) :
    Prop where
  listener : l ∈ w.listeners
  ne : owner ≠ l.handle
  taken : (w.socket l.handle).bind TcpSocket.tuple = some (dst, src)
  owned : (w.socket owner).bind TcpSocket.tuple = some (dst, src)

/-- What the ISNs decide of an owner. -/
structure OwnerRule (acquire : Nat → Bool) (d d' : Driver) : Prop where
  /-- Unless the SYN has another ISN than the owner's, nothing happens to the owner. -/
  kept : ∀ l owner src dst, Contested d.stack l owner src dst →
    (∀ a b, observedIsn d.stack.pendingSyn src dst = some a → d.stack.ownerIsn owner = some b →
      a = b) →
    d'.stack.socket owner = d.stack.socket owner ∧
      d'.stack.ownerIsn owner = d.stack.ownerIsn owner ∧
      d'.connections = d.connections ∧ d'.stack.retiring = d.stack.retiring
  /-- If it has, the listener takes the owner's place. -/
  superseded : ∀ l owner src dst a b, Contested d.stack l owner src dst →
    observedIsn d.stack.pendingSyn src dst = some a → d.stack.ownerIsn owner = some b → a ≠ b →
    owner ∉ d'.connections ∧ owner ∉ d'.stack.retiring ∧ d'.stack.ownerIsn l.handle = some a ∧
      if acquire l.handle then l.handle ∈ d'.connections else l.handle ∈ d'.stack.retiring

section Owners

variable {w : SocketStack} {l l' : TcpListener} {owner owner' : Nat}
    {src dst src' dst' : SocketAddr}

/-- A listener that listens still has no segment. -/
theorem Contested.started (hcontested : Contested w l owner src dst) {s : TcpSocket}
    (hs : w.socket l.handle = some s)
    (hblank : ∀ h s, w.socket h = some s → s.state = .listen → s.tuple = none) :
    s.state ≠ .listen := by
  intro hstate
  have htaken := hcontested.taken
  rw [hs, Option.bind_some, hblank _ s hs hstate] at htaken
  cases htaken

/-- The segment was taken by one listener, and its ends have one owner. -/
theorem Contested.unique (hcontested : Contested w l' owner' src' dst')
    {segment : Option (SocketAddr × SocketAddr)} (hheard : Heard segment w)
    (hrest : ∀ l' ∈ w.listeners, l' ∉ [l] → ∃ s, w.socket l'.handle = some s ∧ s.state = .listen)
    {s : TcpSocket} (hs : w.socket l.handle = some s) (htuple : s.tuple = some (dst, src)) :
    l' = l ∧ src' = src ∧ dst' = dst ∧
      ∀ k s', k ≠ l.handle → w.socket k = some s' → s'.tuple = some (dst, src) → k = owner' := by
  obtain rfl : l' = l := by
    by_contra hne
    obtain ⟨s', hs', hstate⟩ := hrest l' hcontested.listener fun hin ↦ hne
      (List.mem_singleton.1 hin)
    exact hcontested.started hs' hheard.blank hstate
  have htaken := hcontested.taken
  rw [hs, Option.bind_some, htuple] at htaken
  cases htaken
  refine ⟨rfl, rfl, rfl, fun k s' hne hs' htuple' ↦ ?_⟩
  obtain ⟨s₀, hs₀, htuple₀⟩ := Option.bind_eq_some_iff.1 hcontested.owned
  rcases (hheard.near hrest w.ownerIsn).unique k owner' s' s₀ _ hs' hs₀ htuple' htuple₀ with
    heq | heq | heq
  · exact heq
  · exact absurd heq hne
  · exact absurd heq hcontested.ne

end Owners

theorem accept_one {d : Driver} {acquire : Nat → Bool} {handshake : Handshake} {w : SocketStack}
    (htake : d.stack.takeHandshakes = some ([handshake], w)) :
    d.accept acquire = Driver.acceptOne acquire { d with stack := w } handshake := by
  rw [Driver.accept, htake]
  exact bind_pure (m := Option) _

theorem accept_spec {d : Driver} (b : Booked d.stack d.connections)
    {segment : Option (SocketAddr × SocketAddr)} (hheard : Heard segment d.stack)
    (acquire : Nat → Bool) :
    ∃ d', d.accept acquire = some d' ∧ Booked d'.stack d'.connections ∧ Tidy d'.stack ∧
      OwnerRule acquire d d' := by
  rcases takeHandshakes_spec b hheard with ⟨htake, hlisten⟩ |
    ⟨l, hl, s, src, dst, handshake, isns, hs, htuple, hverdict, htake, hrest⟩
  · -- Every listener listens still, so no segment was taken.
    have hnot {l : TcpListener} {owner : Nat} {src dst : SocketAddr}
        (hcontested : Contested d.stack l owner src dst) : False := by
      obtain ⟨s, hs, hstate⟩ := hlisten l hcontested.listener
      exact hcontested.started hs hheard.blank hstate
    refine ⟨{ d with stack := { d.stack with pendingSyn := none } },
      by rw [Driver.accept, htake]; rfl,
      ⟨b.handles, b.listened, b.ports, b.isn, b.ackDelay⟩, ?_,
      fun l owner src dst hcontested ↦ (hnot hcontested).elim,
      fun l owner src dst a b hcontested ↦ (hnot hcontested).elim⟩
    constructor
    case listening =>
      intro l hl
      obtain ⟨s, hs, hstate⟩ := hlisten l hl
      obtain ⟨s', hs', hport, -⟩ := hheard.listeners l hl
      obtain rfl := Option.mem_unique hs hs'
      exact ⟨s, hs, hstate, hport⟩
    case blank => exact hheard.blank
    case unique =>
      intro h h' s s' ends hs hs' hends hends'
      have hlistener {h : Nat} {s : TcpSocket} (hs : d.stack.socket h = some s)
          (hends : s.tuple = some ends) : ¬∃ l ∈ d.stack.listeners, l.handle = h := by
        rintro ⟨l, hl, rfl⟩
        obtain ⟨s₀, hs₀, hstate⟩ := hlisten l hl
        obtain rfl := Option.mem_unique hs hs₀
        rw [hheard.blank _ s hs hstate] at hends
        cases hends
      rcases hheard.unique h h' s s' ends hs hs' hends hends' with heq | hin | hin
      · exact heq
      · exact absurd hin (hlistener hs hends)
      · exact absurd hin (hlistener hs' hends')
  rw [accept_one htake]
  have b₀ : Booked { without d.stack l with ownerIsn := isns } (l.handle :: d.connections) :=
    hverdict.booked hs (b.without hl)
  have n₀ := hheard.near hrest isns
  -- The one listener that left has the ends of the segment, so what is contested is its.
  cases hverdict with
  | duplicate owner howner hsame =>
    obtain ⟨w', hdrop, b', t', hretiring, hkept⟩ := dropDuplicate_spec b₀ n₀ l.port
    refine ⟨⟨w', d.connections⟩, by rw [Driver.acceptOne, hdrop]; rfl, b', t', ?_, ?_⟩
    · intro l' owner' src' dst' hcontested _
      obtain ⟨rfl, -, -, -⟩ := hcontested.unique hheard hrest hs htuple
      obtain ⟨s', hs', -⟩ := Option.bind_eq_some_iff.1 hcontested.owned
      obtain ⟨hsocket, hisn⟩ := hkept owner' s' hcontested.ne hs'
      exact ⟨hsocket.trans hs'.symm, hisn, rfl, hretiring⟩
    · intro l' owner' src' dst' x y hcontested hseen hisn hne
      obtain ⟨-, rfl, rfl, howners⟩ := hcontested.unique hheard hrest hs htuple
      obtain ⟨hne', s', hs', htuple'⟩ := tupleOwner_some howner
      obtain rfl := howners owner s' hne' hs' htuple'
      exact absurd (hsame x y hseen hisn) hne
  | supersedes owner x y howner hseen hisn hne =>
    obtain ⟨hne', s', hs', htuple'⟩ := tupleOwner_some howner
    -- The owner goes first, so that the listener is the only one with these ends.
    obtain ⟨w₁, hremove, b₁, t₁, hretiring, hconnections, hisns⟩ :=
      supersede_spec b₀ n₀ hne' hs' hs htuple' htuple
    obtain ⟨d', hdecide, b', t', hisns', hdecided⟩ :=
      decided_spec (d := ⟨w₁, d.connections.erase owner⟩) b₁ t₁ acquire l.port
    refine ⟨d', by rw [Driver.acceptOne, hremove]; exact hdecide, b', t', ?_, ?_⟩
    · intro l' owner' src' dst' hcontested hsame
      obtain ⟨-, rfl, rfl, howners⟩ := hcontested.unique hheard hrest hs htuple
      obtain rfl := howners owner s' hne' hs' htuple'
      exact absurd (hsame x y hseen hisn) hne
    · intro l' owner' src' dst' x' y' hcontested hseen' hisn' _
      obtain ⟨rfl, rfl, rfl, howners⟩ := hcontested.unique hheard hrest hs htuple
      obtain rfl := howners owner s' hne' hs' htuple'
      obtain rfl := Option.mem_unique hseen hseen'
      have hx : d'.stack.ownerIsn l'.handle = some x := by
        rw [hisns', hisns]
        exact Function.update_self ..
      cases hdecided with
      | admitted hpermit hput hretiring' =>
        rw [hput, hretiring', if_pos hpermit]
        refine ⟨fun hin ↦ ?_, hretiring, hx, List.mem_append_right _ (.head _)⟩
        rcases List.mem_append.1 hin with hin | hin
        · exact hconnections hin
        · exact hne' (List.mem_singleton.1 hin)
      | refused hpermit hput hretiring' =>
        rw [hput, hretiring', if_neg (Bool.not_eq_true _ ▸ hpermit)]
        refine ⟨hconnections, fun hin ↦ ?_, hx, List.mem_append_right _ (.head _)⟩
        rcases List.mem_append.1 hin with hin | hin
        · exact hretiring hin
        · exact hne' (List.mem_singleton.1 hin)
  | fresh _ hnone hisns =>
    have hfree (k : Nat) (s' : TcpSocket) (hne : k ≠ l.handle) (hs' : d.stack.socket k = some s') :
        s'.tuple ≠ some (dst, src) := tupleOwner_none hnone hne hs'
    have t₀ := n₀.tidy hs fun k s' hne hs' _ heq ↦ hfree k s' hne hs' (heq.trans htuple)
    obtain ⟨d', hdecide, b', t', -⟩ :=
      decided_spec (d := ⟨{ without d.stack l with ownerIsn := isns }, d.connections⟩) b₀ t₀ acquire
        l.port
    have hnot {l' : TcpListener} {owner' : Nat} {src' dst' : SocketAddr}
        (hcontested : Contested d.stack l' owner' src' dst') : False := by
      obtain ⟨rfl, rfl, rfl, -⟩ := hcontested.unique hheard hrest hs htuple
      obtain ⟨s', hs', htuple'⟩ := Option.bind_eq_some_iff.1 hcontested.owned
      exact hfree owner' s' hcontested.ne hs' htuple'
    exact ⟨d', hdecide, b', t', fun l owner src dst hcontested ↦ (hnot hcontested).elim,
      fun l owner src dst a b hcontested ↦ (hnot hcontested).elim⟩

/-! ### What ends -/

section Ends

variable {w : SocketStack}

/-- That a flow has ended closes its socket, which has its ends still. -/
theorem relayOne_spec {connections : List Nat} {h : Nat} (b : Booked w connections) (t : Tidy w)
    (hmem : h ∈ connections) (ended : Nat → Bool) :
    ∃ w', Driver.relayOne ended w h = some w' ∧ Booked w' connections ∧ Tidy w' := by
  obtain ⟨s, hs⟩ := b.socket hmem
  have hlisteners := (b.not_mem hmem).1
  obtain ⟨w', hmodify, rfl, -⟩ := modify_spec hs fun s ↦
    if s.state.maySend && ended h then { s with state := s.state.close } else s
  refine ⟨_, hmodify, b.modify hs ?_, t.modify hlisteners hs ?_ fun hstate ↦ ?_⟩
  · split
    · rfl
    · rfl
  · split
    · rfl
    · rfl
  · split at hstate
    · -- `close` makes no socket listen.
      revert hstate
      cases s.state <;> simp [TcpState.close]
    · exact hstate

theorem relay_spec {d : Driver} (b : Booked d.stack d.connections) (t : Tidy d.stack)
    (ended : Nat → Bool) :
    ∃ d', d.relay ended = some d' ∧ Booked d'.stack d'.connections ∧ Tidy d'.stack := by
  obtain ⟨w', hrelay, -, b', t'⟩ := foldlM_returns
    (L := fun hs w ↦ (∀ h ∈ hs, h ∈ d.connections) ∧ Booked w d.connections ∧ Tidy w)
    (fun h hs w ⟨hin, b, t⟩ ↦ by
      obtain ⟨w', hturn, b', t'⟩ := relayOne_spec b t (hin h (.head _)) ended
      exact ⟨w', hturn, fun k hk ↦ hin k (.tail _ hk), b', t'⟩)
    d.connections d.stack ⟨fun _ h ↦ h, b, t⟩
  refine ⟨⟨w', d.connections⟩, ?_, b', t'⟩
  rw [Driver.relay, hrelay]
  rfl

theorem finished_spec {hs : List Nat} (hlive : ∀ h ∈ hs, ∃ s, w.socket h = some s) :
    ∃ out, Driver.finished w hs = some out ∧ (out.map Prod.fst).Sublist hs ∧
      ∀ h ∈ hs, h ∈ out.map Prod.fst ∨
        ∃ s, w.socket h = some s ∧ decideDisposal s.state = none := by
  induction hs with
  | nil => exact ⟨[], rfl, .slnil, nofun⟩
  | cons h hs ih =>
    obtain ⟨s, hsock⟩ := hlive h (.head _)
    obtain ⟨out, hout, hsub, hrest⟩ := ih fun k hk ↦ hlive k (.tail _ hk)
    rw [Driver.finished, hsock]
    dsimp only [bind, Option.bind]
    rw [hout]
    cases hdisposal : decideDisposal s.state with
    | none =>
      refine ⟨out, rfl, hsub.cons h, fun k hk ↦ ?_⟩
      rcases List.mem_cons.1 hk with rfl | hk
      · exact .inr ⟨s, hsock, hdisposal⟩
      · exact hrest k hk
    | some disposal =>
      refine ⟨(h, disposal) :: out, rfl, hsub.cons_cons h, fun k hk ↦ ?_⟩
      rcases List.mem_cons.1 hk with rfl | hk
      · exact .inl (.head _)
      · exact (hrest k hk).imp_left (List.mem_cons_of_mem _)

/-- A connection that is finished leaves the map, and its handle has its place. -/
theorem disposeOne_spec {d : Driver} (b : Booked d.stack d.connections) (t : Tidy d.stack)
    {x : Nat × Disposal} (hmem : x.1 ∈ d.connections) :
    ∃ d', d.disposeOne x = some d' ∧ Booked d'.stack d'.connections ∧ Tidy d'.stack ∧
      d'.connections = d.connections.erase x.1 ∧
      ∀ k, k ≠ x.1 → d'.stack.socket k = d.stack.socket k := by
  obtain ⟨h, disposal⟩ := x
  change h ∈ d.connections at hmem
  cases disposal with
  | retire =>
    obtain ⟨hretire, b'⟩ := (b.perm (List.perm_cons_erase hmem)).retire
    refine ⟨⟨{ d.stack with retiring := d.stack.retiring ++ [h] }, d.connections.erase h⟩, ?_, b',
      ⟨t.listening, t.blank, t.unique⟩, rfl, fun _ _ ↦ rfl⟩
    rw [Driver.disposeOne]
    dsimp only [bind, Option.bind]
    rw [hretire]
  | remove =>
    obtain ⟨w', hremove, b', heq⟩ := b.remove (h := h) (List.mem_append_right _ hmem)
    have hlisteners := (b.not_mem hmem).1
    refine ⟨⟨w', d.connections.erase h⟩, ?_, b', t.remove hlisteners (by rw [heq])
      (by rw [heq]), rfl,
      fun k hne ↦ ?_⟩
    · rw [Driver.disposeOne]
      dsimp only [bind, Option.bind]
      rw [hremove]
    · rw [heq]
      exact (d.stack.sockets.get?_remove h k).trans (if_neg hne)

/-- No connection is left that is finished. -/
theorem cleanup_spec {d : Driver} (b : Booked d.stack d.connections) (t : Tidy d.stack) :
    ∃ d', d.cleanup = some d' ∧ Booked d'.stack d'.connections ∧ Tidy d'.stack ∧
      ∀ h ∈ d'.connections, ∃ s, d'.stack.socket h = some s ∧ decideDisposal s.state = none := by
  obtain ⟨out, hfinished, hsub, hrest⟩ :=
    finished_spec (w := d.stack) fun h (hmem : h ∈ d.connections) ↦ b.socket hmem
  have hnodup : d.connections.Nodup := (List.nodup_append'.1 b.handles.nodup).2.1
  -- What is to be disposed of is a connection still, and a connection that is not goes on.
  obtain ⟨d', hdispose, b', t', -, -, hlive⟩ := foldlM_returns (f := Driver.disposeOne)
    (L := fun xs (d' : Driver) ↦ Booked d'.stack d'.connections ∧ Tidy d'.stack ∧
      (xs.map Prod.fst).Nodup ∧ (∀ x ∈ xs, x.1 ∈ d'.connections) ∧
      ∀ h ∈ d'.connections, h ∈ xs.map Prod.fst ∨
        ∃ s, d'.stack.socket h = some s ∧ decideDisposal s.state = none)
    (fun x xs d ⟨b, t, hxs, hin, hlive⟩ ↦ by
      obtain ⟨d', hturn, b', t', hconnections, hsocket⟩ :=
        disposeOne_spec b t (hin x (.head _))
      rw [List.map_cons, List.nodup_cons] at hxs
      have hd : d.connections.Nodup := (List.nodup_append'.1 b.handles.nodup).2.1
      refine ⟨d', hturn, b', t', hxs.2, fun y hy ↦ ?_, fun h hh ↦ ?_⟩
      · rw [hconnections, List.mem_erase_of_ne]
        · exact hin y (.tail _ hy)
        · exact fun heq ↦ hxs.1 (heq ▸ List.mem_map_of_mem hy)
      · rw [hconnections] at hh
        obtain ⟨hne, hh⟩ := hd.mem_erase_iff.1 hh
        rw [hsocket h hne]
        exact (hlive h hh).imp_left fun hin ↦ (List.mem_cons.1 hin).resolve_left hne)
    out d ⟨b, t, hsub.nodup hnodup, fun x hx ↦ hsub.subset (List.mem_map_of_mem hx), hrest⟩
  refine ⟨d', ?_, b', t', fun h hh ↦ (hlive h hh).resolve_left List.not_mem_nil⟩
  rw [Driver.cleanup, hfinished]
  exact hdispose

end Ends

/-! ### Runs -/

/-- The second poll drops what retires and has no ends. Nothing but a listener listens then: what
was set back to `Listen` has no ends. -/
theorem settled_of_poll {w : SocketStack} {connections : List Nat} (b : Booked w connections)
    (t : Tidy w)
    (hlive : ∀ h ∈ connections, ∃ s, w.socket h = some s ∧ decideDisposal s.state = none)
    (p : Poll none) : ∃ w', w.poll p = some w' ∧ Settled w' connections := by
  obtain ⟨w', hpoll, b', hlisteners, -, hmoves, hretiring⟩ := poll_spec b p
  -- No segment comes in, so no socket leaves `Listen` or comes to it.
  have hlisten {k : Nat} {s s' : TcpSocket} (hmove : Moves none s s')
    (hstate : s'.state = .listen) : s.state = .listen := by
    by_contra hne
    exact hmove.unfed rfl hne hstate
  have t' : Tidy w' := by
    refine t.mono hlisteners (fun l hl s hs hstate ↦ ?_) fun k s' hs' ↦ ?_
    · obtain ⟨s', hs'⟩ := b'.socket_of_listener (hlisteners ▸ hl)
      obtain ⟨s₀, hs₀, hmove⟩ := hmoves l.handle s' hs'
      obtain rfl := Option.mem_unique hs hs₀
      refine ⟨s', hs', ?_, hmove.listenPort⟩
      rcases hmove.ofListen hstate with hlisten | ⟨ends, hsegment, -, -⟩
      · exact hlisten
      · cases hsegment
    · obtain ⟨s, hs, hmove⟩ := hmoves k s' hs'
      refine ⟨s, hs, ?_, hlisten (k := k) hmove⟩
      by_cases hstate : s.state = .listen
      · rcases hmove.ofListen hstate with hlisten | ⟨ends, hsegment, -, -⟩
        · exact .inr (hmove.listens (t.blank k s hs) hlisten)
        · cases hsegment
      · exact hmove.tuple hstate
  refine ⟨w', hpoll, b', t', fun k s' hs' hstate ↦ ?_⟩
  have hbooked := (b'.handles.mem k).2 (Option.isSome_of_eq_some hs')
  rcases List.mem_append.1 hbooked with hin | hin
  · rcases List.mem_append.1 hin with hin | hin
    · obtain ⟨l, hl, hhandle⟩ := List.mem_map.1 hin
      exact ⟨l, hl, hhandle⟩
    · obtain ⟨s₀, hs₀, hends⟩ := hretiring k hin
      obtain rfl := Option.mem_unique hs' hs₀
      rw [t'.blank k s' hs' hstate] at hends
      cases hends
  · obtain ⟨s, hs, hdisposal⟩ := hlive k hin
    obtain ⟨s₀, hs₀, hmove⟩ := hmoves k s' hs'
    obtain rfl := Option.mem_unique hs hs₀
    rw [hlisten (k := k) hmove hstate] at hdisposal
    cases hdisposal

section Runs

variable {c : WireChecks} {d : Driver}

theorem settle_spec (h : Settled d.stack d.connections) (t : Turn c) :
    ∃ fed accepted d', d.feed t = some fed ∧
      (∀ arrival, t.arrival = some arrival → fed.stack.pendingSyn = arrival.syn) ∧
      fed.accept t.acquire = some accepted ∧ OwnerRule t.acquire fed accepted ∧
      d.settle t = some d' ∧ Settled d'.stack d'.connections := by
  obtain ⟨w₁, hfeed, b₁, hheard, hsyn⟩ := feed_spec h t
  obtain ⟨d₂, haccept, b₂, t₂, hrule⟩ := accept_spec (d := ⟨w₁, d.connections⟩) b₁ hheard t.acquire
  obtain ⟨d₃, hrelay, b₃, t₃⟩ := relay_spec b₂ t₂ t.ended
  obtain ⟨d₄, hcleanup, b₄, t₄, hlive⟩ := cleanup_spec b₃ t₃
  obtain ⟨w₅, hpoll, hsettled⟩ := settled_of_poll b₄ t₄ hlive t.second
  refine ⟨_, d₂, ⟨w₅, d₄.connections⟩, hfeed, hsyn, haccept, hrule, ?_, hsettled⟩
  rw [Driver.settle, hfeed]
  dsimp only [bind, Option.bind]
  rw [haccept]
  dsimp only
  rw [hrelay]
  dsimp only
  rw [hcleanup]
  dsimp only
  rw [hpoll]

theorem settled_new (keepAliveInterval peerTimeout : Nat) :
    Settled (Driver.new keepAliveInterval peerTimeout).stack [] := by
  have hnone (h : Nat) : (Driver.new keepAliveInterval peerTimeout).stack.socket h = none := rfl
  have hfree {P : Prop} (h : Nat) (s : TcpSocket)
      (hs : (Driver.new keepAliveInterval peerTimeout).stack.socket h = some s) : P := by
    rw [hnone] at hs
    cases hs
  constructor
  case booked =>
    refine ⟨⟨.nil, fun h ↦ ?_⟩, fun _ ↦ ?_, .nil, fun _ h ↦ absurd rfl h, fun h s hs ↦ hfree h s hs⟩
    · exact iff_of_false List.not_mem_nil Bool.false_ne_true
    · exact iff_of_false (Finset.notMem_empty _) List.not_mem_nil
  case tidy => exact ⟨fun _ hl ↦ absurd hl List.not_mem_nil, fun h s hs ↦ hfree h s hs,
      fun h _ s _ _ hs ↦ hfree h s hs⟩
  case only => exact fun h s hs ↦ hfree h s hs

/-- The calls of `settle_packet`, one after another. -/
def Driver.run (d : Driver) (turns : List (Turn c)) : Option Driver := turns.foldlM
    (fun d t ↦ d.settle t) d

/-- The books between two packets. -/
structure Driver.Books (d : Driver) : Prop where
  /-- Each socket that lives is in one of the three lists, once, and no other handle is. -/
  handles : d.stack.sockets.Partition
    (d.stack.listeners.map TcpListener.handle ++ d.stack.retiring ++ d.connections)
  listened : ∀ port, port ∈ d.stack.listenedPorts ↔ port ∈ d.stack.listeners.map TcpListener.port
  ports : (d.stack.listeners.map TcpListener.port).Nodup
  isn : ∀ h, d.stack.ownerIsn h ≠ none → (d.stack.socket h).isSome
  owners : ∀ h h' s s' ends, d.stack.socket h = some s → d.stack.socket h' = some s' →
    s.tuple = some ends → s'.tuple = some ends → h = h'

/-- No run panics, the books are in order after it, and on the next packet the ISNs decide. -/
theorem Driver.books_of_run (keepAliveInterval peerTimeout : Nat) (turns : List (Turn c)) :
    ∃ d, (Driver.new keepAliveInterval peerTimeout).run turns = some d ∧ d.Books ∧
      ∀ t : Turn c, ∃ fed accepted, d.feed t = some fed ∧ (∀ arrival, t.arrival = some arrival →
          some fed.stack.pendingSyn = parseSyn c arrival.packet) ∧
        fed.accept t.acquire = some accepted ∧ OwnerRule t.acquire fed accepted := by
  obtain ⟨d, hrun, hsettled⟩ := foldlM_returns (f := fun d (t : Turn c) ↦ Driver.settle d t)
    (L := fun _ (d : Driver) ↦ Settled d.stack d.connections)
    (fun t _ d hd ↦ by
      obtain ⟨-, -, d', -, -, -, -, hsettle, hd'⟩ := settle_spec hd t
      exact ⟨d', hsettle, hd'⟩)
    turns _ (settled_new keepAliveInterval peerTimeout)
  refine ⟨d, hrun, ?_, fun t ↦ ?_⟩
  · exact ⟨hsettled.booked.handles, hsettled.booked.listened, hsettled.booked.ports,
      hsettled.booked.isn, hsettled.tidy.unique⟩
  · obtain ⟨fed, accepted, -, hfeed, hsyn, haccept, hrule, -⟩ := settle_spec hsettled t
    refine ⟨fed, accepted, hfeed, fun arrival harrival ↦ ?_, haccept, hrule⟩
    rw [hsyn arrival harrival, arrival.syn_eq]

end Runs

/-- A poll in which nothing happens. -/
def Poll.idle : Poll none where
  run sockets := sockets
  filled _ _ := rfl
  moves sockets h s t hs ht := by
    obtain rfl := Option.mem_unique hs ht
    exact ⟨rfl, rfl, .inl, fun _ ↦ .inl rfl, fun hblank ↦ hblank, fun _ hne ↦ hne⟩

/-- A poll of a SYN of no connection: the listener of its port takes it. -/
def Poll.syn (ends : SocketAddr × SocketAddr) : Poll (some ends) where
  run sockets := ⟨sockets.storage.map (Option.map fun s ↦
    if s.state = .listen ∧ s.listenPort = ends.1.port.toNat then
      { s with state := .synReceived, tuple := some ends }
    else s)⟩
  filled sockets h := by
    rw [Slots.get?, Slots.get?, List.getElem?_map]
    cases sockets.storage[h]? with
    | none => rfl
    | some slot => cases slot <;> rfl
  moves sockets h s t hs ht := by
    rw [Slots.get?, List.getElem?_map] at ht
    rw [Slots.get?, Option.join_eq_some_iff] at hs
    rw [hs, Option.map_some, Option.map_some, Option.join_some] at ht
    cases ht
    split
    · next htakes =>
      exact ⟨rfl, rfl, fun _ ↦ .inr ⟨ends, rfl, rfl, htakes.2.symm⟩, fun hne ↦ absurd htakes.1 hne,
        fun _ ↦ nofun, nofun⟩
    · exact ⟨rfl, rfl, .inl, fun _ ↦ .inl rfl, fun hblank ↦ hblank, nofun⟩

/-- A SYN comes in, and is taken. -/
def synTurn : Turn publishedChecks where
  arrival := some
    { packet := samplePacket 0x45 [10, 0, 0, 2]
      dst := some (80, .tcp)
      syn := some (⟨.ofOctets 10 0 0 2, 80⟩, ⟨.ofOctets 192 0 2 1, 80⟩, 1)
      dst_eq := by decide
      syn_eq := by decide }
  segment := some (⟨.ofOctets 192 0 2 1, 80⟩, ⟨.ofOctets 10 0 0 2, 80⟩)
  first := .syn _
  second := .idle
  acquire _ := true
  ended _ := false

/-- Nothing comes in, and the flows end. -/
def endTurn : Turn publishedChecks where
  arrival := none
  segment := none
  first := .idle
  second := .idle
  acquire _ := true
  ended _ := true

theorem Driver.books_synTurn :
    ((Driver.new 1 1).run [synTurn]).map Driver.connections = some [0] ∧
      ∃ d, (Driver.new 1 1).run [synTurn, endTurn] = some d ∧ d.Books := by
  refine ⟨by decide, ?_⟩
  obtain ⟨d, hrun, hbooks, -⟩ := Driver.books_of_run 1 1 [synTurn, endTurn]
  exact ⟨d, hrun, hbooks⟩

end Hole.Tun
