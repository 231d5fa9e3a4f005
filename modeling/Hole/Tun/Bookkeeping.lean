import Hole.Tun.SocketStack

/-!
# The bookkeeping of sockets

What holds of `SocketStack` and the driver's connections between any two packets (`Settled`): each
socket that lives is in one list, and none but the listeners listens. While a packet is settled a
handle may be in none of the lists: it was taken out of one and is put into another by a later call.
`Booked` has those handles as a parameter.

Two sockets with the same ends are a listener that took a segment and the owner of these ends, which
is one socket; the verdict on the handshake ends that (`accept_spec`).
-/

namespace Hole.Tun

open SocketStack

/-! ### Handles -/

/-- The books of a stack, where `rest` are the handles that others have. -/
structure Booked (w : SocketStack) (rest : List Nat) : Prop where
  handles : w.sockets.Partition (w.listeners.map TcpListener.handle ++ w.retiring ++ rest)
  listened : ∀ port, port ∈ w.listenedPorts ↔ port ∈ w.listeners.map TcpListener.port
  ports : (w.listeners.map TcpListener.port).Nodup
  isn : ∀ h, w.ownerIsn h ≠ none → (w.socket h).isSome
  ackDelay : ∀ h s, w.socket h = some s → s.ackDelay = none

section Booked

variable {w : SocketStack} {rest : List Nat} {h : Nat}

theorem Booked.perm (b : Booked w rest) {rest' : List Nat} (hperm : rest.Perm rest') :
    Booked w rest' :=
  { b with
    handles := b.handles.perm (hperm.append_left _) }

theorem Booked.socket (b : Booked w rest) (hmem : h ∈ rest) : ∃ s, w.socket h = some s :=
  b.handles.get? (List.mem_append_right _ hmem)

theorem Booked.socket_of_retiring (b : Booked w rest) (hmem : h ∈ w.retiring) :
    ∃ s, w.socket h = some s :=
  b.handles.get? (List.mem_append_left _ (List.mem_append_right _ hmem))

theorem Booked.socket_of_listener (b : Booked w rest) {l : TcpListener} (hl : l ∈ w.listeners) :
    ∃ s, w.socket l.handle = some s :=
  b.handles.get? (List.mem_append_left _ (List.mem_append_left _ (List.mem_map_of_mem hl)))

/-- A handle of others is no listener's, and does not retire. -/
theorem Booked.not_mem (b : Booked w rest) (hmem : h ∈ rest) :
    (∀ l ∈ w.listeners, l.handle ≠ h) ∧ h ∉ w.retiring := by
  have hdisjoint := (List.nodup_append'.1 b.handles.nodup).2.2
  have hnot : ¬h ∈ w.listeners.map TcpListener.handle ++ w.retiring := fun hin ↦ hdisjoint hin hmem
  rw [List.mem_append, not_or, List.mem_map] at hnot
  exact ⟨fun l hl heq ↦ hnot.1 ⟨l, hl, heq⟩, hnot.2⟩

/-- Sockets change, and the books do not. -/
theorem Booked.congr (b : Booked w rest) {sockets : Slots TcpSocket}
    (hfilled : ∀ k, (sockets.get? k).isSome = (w.sockets.get? k).isSome)
    (hack : ∀ k s t, w.sockets.get? k = some s → sockets.get? k = some t →
      t.ackDelay = s.ackDelay) : Booked { w with sockets := sockets } rest where
  handles := b.handles.congr hfilled
  listened := b.listened
  ports := b.ports
  isn k hk := (hfilled k).trans (b.isn k hk)
  ackDelay k t ht := by
    have hsome : (w.sockets.get? k).isSome := (hfilled k).symm.trans (Option.isSome_of_eq_some ht)
    obtain ⟨s, hs⟩ := Option.isSome_iff_exists.1 hsome
    rw [hack k s t hs ht]
    exact b.ackDelay k s hs

/-- What `modify` does to a socket that lives. -/
theorem modify_spec {s : TcpSocket} (hs : w.socket h = some s) (f : TcpSocket → TcpSocket) :
    ∃ w', w.modify h f = some w' ∧ w' = { w with sockets := w.sockets.set h (f s) } ∧
      ∀ k, w'.socket k = if k = h then some (f s) else w.socket k := by
  refine ⟨{ w with sockets := w.sockets.set h (f s) }, ?_, rfl,
    fun k ↦ w.sockets.get?_set (Option.isSome_of_eq_some hs) (f s) k⟩
  rw [SocketStack.modify, hs]
  rfl

theorem Booked.modify (b : Booked w rest) {s : TcpSocket} (hs : w.socket h = some s)
    {f : TcpSocket → TcpSocket} (hf : (f s).ackDelay = s.ackDelay) :
    Booked { w with sockets := w.sockets.set h (f s) } rest := by
  have hget := w.sockets.get?_set (Option.isSome_of_eq_some hs) (f s)
  refine b.congr (fun k ↦ ?_) fun k s' t hs' ht ↦ ?_
  · rw [hget]
    split
    · next heq => rw [heq, Option.isSome_some, ← Option.isSome_of_eq_some hs, SocketStack.socket]
    · rfl
  · rw [hget] at ht
    split at ht
    · next heq =>
      subst heq
      obtain rfl := Option.mem_unique hs hs'
      cases ht
      exact hf
    · obtain rfl := Option.mem_unique hs' ht
      rfl

/-- A handle that others have, or that retires, is removed. -/
theorem Booked.remove (b : Booked w rest) (hmem : h ∈ w.retiring ++ rest) :
    ∃ w', w.remove h = some w' ∧ Booked w' (rest.erase h) ∧ w' = { w with
        sockets := w.sockets.remove h
        ownerIsn := Function.update w.ownerIsn h none
        retiring := w.retiring.filter (· ≠ h) } := by
  obtain ⟨s, hs⟩ : ∃ s, w.socket h = some s := by
    rcases List.mem_append.1 hmem with hmem | hmem
    · exact b.socket_of_retiring hmem
    · exact b.socket hmem
  refine ⟨_, ?_, ?_, rfl⟩
  · rw [SocketStack.remove, hs]
    exact if_pos (b.ackDelay h s hs)
  have hnodup := b.handles.nodup
  rw [List.append_assoc] at hnodup
  have hrest := (List.nodup_append'.1 hnodup).2.1
  have hretiring := (List.nodup_append'.1 hrest).1
  -- The handle is in one of the two lists, and leaves it.
  have hperm : (w.retiring ++ rest).Perm (h :: (w.retiring.filter (· ≠ h) ++ rest.erase h)) := by
    have hfilter : w.retiring.filter (· ≠ h) = w.retiring.erase h := by
      rw [hretiring.erase_eq_filter h]
      exact List.filter_congr fun k _ ↦ Bool.eq_iff_iff.2 (by simp)
    rw [hfilter]
    by_cases hin : h ∈ w.retiring
    · have hout : h ∉ rest := (List.nodup_append'.1 hrest).2.2 hin
      rw [List.erase_of_not_mem hout]
      exact (List.perm_cons_erase hin).append_right rest
    · have hin' : h ∈ rest := (List.mem_append.1 hmem).resolve_left hin
      rw [List.erase_of_not_mem hin]
      exact ((List.perm_cons_erase hin').append_left _).trans List.perm_middle
  have hget := w.sockets.get?_remove h
  constructor
  case handles =>
    refine Slots.Partition.remove (b.handles.perm ?_)
    rw [List.append_assoc, List.append_assoc]
    exact (hperm.append_left _).trans List.perm_middle
  case listened => exact b.listened
  case ports => exact b.ports
  case isn =>
    intro k hk
    have hne : k ≠ h := by
      rintro rfl
      exact hk (Function.update_self ..)
    have hk : w.ownerIsn k ≠ none := fun hnone ↦ hk ((Function.update_of_ne hne ..).trans hnone)
    change ((w.sockets.remove h).get? k).isSome
    rw [hget, if_neg hne]
    exact b.isn k hk
  case ackDelay =>
    intro k s' hs'
    rw [SocketStack.socket, hget] at hs'
    split at hs'
    · cases hs'
    · exact b.ackDelay k s' hs'

theorem Booked.retire (b : Booked w (h :: rest)) :
    w.retire h = some { w with retiring := w.retiring ++ [h] } ∧
      Booked { w with retiring := w.retiring ++ [h] } rest := by
  refine ⟨if_neg (b.not_mem (.head _)).2, ?_⟩
  constructor
  case handles =>
    refine b.handles.perm ?_
    rw [← List.append_assoc, List.append_assoc _ [h], List.singleton_append]
  case listened => exact b.listened
  case ports => exact b.ports
  case isn => exact b.isn
  case ackDelay => exact b.ackDelay

/-- What `ensure_listener` does. -/
theorem ensureListener_cases (w : SocketStack) (port : Nat) :
    w.ensureListener port = w ∨ port ∉ w.listenedPorts ∧ ∃ s : TcpSocket, s.state = .listen ∧
      s.tuple = none ∧ s.listenPort = port ∧ s.ackDelay = none ∧
      w.ensureListener port = { w with
        sockets := w.sockets.add s
        listeners := w.listeners ++ [⟨w.sockets.free, port⟩]
        listenedPorts := insert port w.listenedPorts } := by
  rw [ensureListener]
  split
  · exact .inl rfl
  · next hnot =>
    rw [TcpSocket.listen]
    by_cases hzero : port = 0
    · rw [if_pos hzero]
      exact .inl rfl
    · rw [if_neg hzero]
      exact .inr ⟨hnot, _, rfl, rfl, rfl, rfl, rfl⟩

theorem Booked.ensureListener (b : Booked w rest) (port : Nat) :
    Booked (w.ensureListener port) rest := by
  rcases ensureListener_cases w port with heq | ⟨hnot, s, -, -, -, hack, heq⟩
  · rwa [heq]
  rw [heq]
  have hget := w.sockets.get?_add s
  constructor
  case handles =>
    refine (b.handles.add s).perm ?_
    rw [List.map_append, List.map_singleton, List.append_assoc, List.append_assoc,
      List.append_assoc,
      List.singleton_append]
    exact List.perm_middle.symm
  case listened =>
    intro port'
    rw [Finset.mem_insert, b.listened, List.map_append, List.mem_append, List.map_singleton,
      List.mem_singleton, or_comm]
  case ports =>
    rw [List.map_append, List.map_singleton]
    refine List.nodup_append'.2 ⟨b.ports, List.nodup_singleton _, fun port' hin hout ↦ ?_⟩
    rw [List.mem_singleton.1 hout] at hin
    exact hnot ((b.listened port).2 hin)
  case isn =>
    intro k hk
    rw [SocketStack.socket, hget]
    split
    · rfl
    · exact b.isn k hk
  case ackDelay =>
    intro k t ht
    rw [SocketStack.socket, hget] at ht
    split at ht
    · rw [← Option.some.inj ht]
      exact hack
    · exact b.ackDelay k t ht

end Booked

/-! ### Ends -/

/-- The sockets between the stages: every listener listens, a socket that listens has no ends, and
no two sockets have the same. -/
structure Tidy (w : SocketStack) : Prop where
  listening : ∀ l ∈ w.listeners, ∃ s, w.socket l.handle = some s ∧ s.state = .listen ∧
    s.listenPort = l.port
  blank : ∀ h s, w.socket h = some s → s.state = .listen → s.tuple = none
  unique : ∀ h h' s s' ends, w.socket h = some s → w.socket h' = some s' → s.tuple = some ends →
    s'.tuple = some ends → h = h'

section Tidy

variable {w w' : SocketStack} {rest : List Nat} {h : Nat}

/-- Sockets go, lose their ends, or cease to listen, and the listeners stay. -/
theorem Tidy.mono (t : Tidy w) (hlisteners : w'.listeners = w.listeners)
    (hkeep : ∀ l ∈ w.listeners, ∀ s, w.socket l.handle = some s → s.state = .listen →
      ∃ s', w'.socket l.handle = some s' ∧ s'.state = .listen ∧ s'.listenPort = s.listenPort)
    (hold : ∀ k s', w'.socket k = some s' → ∃ s, w.socket k = some s ∧
      (s'.tuple = s.tuple ∨ s'.tuple = none) ∧ (s'.state = .listen → s.state = .listen)) :
    Tidy w' where
  listening l hl := by
    rw [hlisteners] at hl
    obtain ⟨s, hs, hstate, hport⟩ := t.listening l hl
    obtain ⟨s', hs', hstate', hport'⟩ := hkeep l hl s hs hstate
    exact ⟨s', hs', hstate', hport'.trans hport⟩
  blank k s' hs' hstate := by
    obtain ⟨s, hs, htuple, hlisten⟩ := hold k s' hs'
    rcases htuple with heq | hnone
    · exact heq.trans (t.blank k s hs (hlisten hstate))
    · exact hnone
  unique k k' s s' ends hs hs' hends hends' := by
    obtain ⟨s₀, hs₀, htuple, -⟩ := hold k s hs
    obtain ⟨s₀', hs₀', htuple', -⟩ := hold k' s' hs'
    have hsame {a b : TcpSocket} (hab : a.tuple = b.tuple ∨ a.tuple = none)
        (ha : a.tuple = some ends) : b.tuple = some ends := by
      rcases hab with heq | hnone
      · exact heq.symm.trans ha
      · rw [hnone] at ha
        cases ha
    exact t.unique k k' s₀ s₀' ends hs₀ hs₀' (hsame htuple hends) (hsame htuple' hends')

theorem Tidy.modify (t : Tidy w) (hnot : ∀ l ∈ w.listeners, l.handle ≠ h) {s : TcpSocket}
    (hs : w.socket h = some s) {f : TcpSocket → TcpSocket} (htuple : (f s).tuple = s.tuple)
    (hlisten : (f s).state = .listen → s.state = .listen) :
    Tidy { w with sockets := w.sockets.set h (f s) } := by
  have hget := w.sockets.get?_set (Option.isSome_of_eq_some hs) (f s)
  refine t.mono rfl (fun l hl s' hs' hstate ↦ ⟨s', ?_, hstate, rfl⟩) fun k s' hs' ↦ ?_
  · exact (hget l.handle).trans ((if_neg (hnot l hl)).trans hs')
  · replace hs' := (hget k).symm.trans hs'
    split at hs'
    · next heq =>
      subst heq
      cases hs'
      exact ⟨s, hs, .inl htuple, hlisten⟩
    · exact ⟨s', hs', .inl rfl, id⟩

theorem Tidy.remove (t : Tidy w) (hnot : ∀ l ∈ w.listeners, l.handle ≠ h)
    (hlisteners : w'.listeners = w.listeners) (hsockets : w'.sockets = w.sockets.remove h) :
    Tidy w' := by
  have hget (k : Nat) : w'.socket k = if k = h then none else w.socket k := by
    rw [SocketStack.socket, hsockets]
    exact w.sockets.get?_remove h k
  refine t.mono hlisteners (fun l hl s' hs' hstate ↦ ⟨s', ?_, hstate, rfl⟩) fun k s' hs' ↦ ?_
  · exact (hget l.handle).trans ((if_neg (hnot l hl)).trans hs')
  · rw [hget] at hs'
    split at hs'
    · cases hs'
    · exact ⟨s', hs', .inl rfl, id⟩

/-- A listener more has no ends, and takes the place of no other. -/
theorem Tidy.ensureListener (t : Tidy w) (port : Nat) : Tidy (w.ensureListener port) := by
  rcases ensureListener_cases w port with heq | ⟨-, s, hstate, htuple, hport, -, heq⟩
  · rwa [heq]
  rw [heq]
  have hget := w.sockets.get?_add s
  have hfree {k : Nat} {s' : TcpSocket} (hs' : w.socket k = some s') : k ≠ w.sockets.free := by
    rintro rfl
    have hnone : w.socket w.sockets.free = none := w.sockets.get?_free
    rw [hnone] at hs'
    cases hs'
  -- A socket with ends was there before.
  have hold {k : Nat} {s' : TcpSocket} {ends : SocketAddr × SocketAddr}
      (hs' : (w.sockets.add s).get? k = some s') (hends : s'.tuple = some ends) :
      w.socket k = some s' := by
    rw [hget] at hs'
    split at hs'
    · cases hs'
      rw [htuple] at hends
      cases hends
    · exact hs'
  constructor
  case listening =>
    intro l hl
    rcases List.mem_append.1 hl with hl | hl
    · obtain ⟨s', hs', hstate', hport'⟩ := t.listening l hl
      exact ⟨s', (hget l.handle).trans ((if_neg (hfree hs')).trans hs'), hstate', hport'⟩
    · rw [List.mem_singleton.1 hl]
      exact ⟨s, (hget _).trans (if_pos rfl), hstate, hport⟩
  case blank =>
    intro k s' hs' hstate'
    replace hs' := (hget k).symm.trans hs'
    split at hs'
    · rw [← Option.some.inj hs', htuple]
    · exact t.blank k s' hs' hstate'
  case unique =>
    intro k k' s₁ s₂ ends hs₁ hs₂ hends₁ hends₂
    exact t.unique k k' s₁ s₂ ends (hold hs₁ hends₁) (hold hs₂ hends₂) hends₁ hends₂

/-- What is filled stays as it is. -/
theorem socket_ensureListener {s : TcpSocket} (hs : w.socket h = some s) (port : Nat) :
    (w.ensureListener port).socket h = some s := by
  rcases ensureListener_cases w port with heq | ⟨-, s', -, -, -, -, heq⟩
  · rwa [heq]
  rw [heq]
  refine (w.sockets.get?_add s' h).trans ((if_neg ?_).trans hs)
  rintro rfl
  have hnone : w.socket w.sockets.free = none := w.sockets.get?_free
  rw [hnone] at hs
  cases hs

/-- Of the rest of the stack, a listener more changes nothing. -/
theorem ensureListener_rest (w : SocketStack) (port : Nat) :
    (w.ensureListener port).retiring = w.retiring ∧
      (w.ensureListener port).ownerIsn = w.ownerIsn ∧
      (w.ensureListener port).pendingSyn = w.pendingSyn := by
  rcases ensureListener_cases w port with heq | ⟨-, s, -, -, -, -, heq⟩
  · rw [heq]
    exact ⟨rfl, rfl, rfl⟩
  · rw [heq]
    exact ⟨rfl, rfl, rfl⟩

end Tidy

/-! ### Polls -/

section Poll

variable {w : SocketStack} {rest : List Nat}

/-- Sockets of a stack are gone in another. -/
structure Shrinks (w w' : SocketStack) : Prop where
  listeners : w'.listeners = w.listeners
  pendingSyn : w'.pendingSyn = w.pendingSyn
  socket : ∀ k, w'.socket k = w.socket k ∨ w'.socket k = none

theorem Shrinks.trans {w₁ w₂ w₃ : SocketStack} (h : Shrinks w₁ w₂) (h' : Shrinks w₂ w₃) :
    Shrinks w₁ w₃ where
  listeners := h'.listeners.trans h.listeners
  pendingSyn := h'.pendingSyn.trans h.pendingSyn
  socket k := by
    rcases h'.socket k with heq | hnone
    · rw [heq]
      exact h.socket k
    · exact .inr hnone

/-- The loop over what retires. It is in none of the lists meanwhile. -/
theorem reap_spec (hs : List Nat) (hretiring : w.retiring = []) (b : Booked w (hs ++ rest)) :
    ∃ w' kept, reap w hs = some (w', kept) ∧ w'.retiring = [] ∧ Booked w' (kept ++ rest) ∧
      Shrinks w w' ∧ ∀ h ∈ kept, ∃ s, w'.socket h = some s ∧ s.tuple.isSome := by
  induction hs generalizing w rest with
  | nil => exact ⟨w, [], rfl, hretiring, b, ⟨rfl, rfl, fun _ ↦ .inl rfl⟩, nofun⟩
  | cons h hs ih =>
    obtain ⟨s, hs'⟩ := b.socket (h := h) (List.mem_append_left _ (.head _))
    rw [reap, hs']
    dsimp only [bind, Option.bind]
    by_cases htuple : s.tuple.isSome
    · rw [if_pos htuple]
      -- The handle is one of the others' until the loop is over.
      obtain ⟨w', kept, hreap, hretiring', b', hshrinks, hkept⟩ :=
        @ih w (h :: rest) hretiring (b.perm List.perm_middle.symm)
      refine ⟨w', h :: kept, by rw [hreap], hretiring', b'.perm List.perm_middle, hshrinks,
        fun k hk ↦ ?_⟩
      rcases List.mem_cons.1 hk with rfl | hk
      · obtain ⟨s', hs''⟩ := b'.socket (h := k) (List.mem_append_right _ (.head _))
        refine ⟨s', hs'', ?_⟩
        rcases hshrinks.socket k with heq | hnone
        · rw [heq, hs'] at hs''
          rwa [← Option.some.inj hs'']
        · rw [hnone] at hs''
          cases hs''
      · exact hkept k hk
    · rw [if_neg htuple]
      obtain ⟨w₁, hremove, b₁, heq⟩ :=
        b.remove (h := h) (List.mem_append_right _ (List.mem_append_left _ (.head _)))
      rw [List.cons_append, List.erase_cons_head] at b₁
      have hretiring₁ : w₁.retiring = [] := by
        rw [heq]
        exact congrArg (List.filter _) hretiring
      have hget (k : Nat) : w₁.socket k = if k = h then none else w.socket k := by
        rw [heq]
        exact w.sockets.get?_remove h k
      have hshrinks₁ : Shrinks w w₁ := by
        refine ⟨by rw [heq], by rw [heq], fun k ↦ ?_⟩
        rw [hget]
        split
        · exact .inr rfl
        · exact .inl rfl
      rw [hremove]
      obtain ⟨w', kept, hreap, hretiring', b', hshrinks, hkept⟩ := ih hretiring₁ b₁
      exact ⟨w', kept, hreap, hretiring', b', hshrinks₁.trans hshrinks, hkept⟩

theorem poll_spec (b : Booked w rest) {segment : Option (SocketAddr × SocketAddr)}
    (p : Poll segment) :
    ∃ w', w.poll p = some w' ∧ Booked w' rest ∧ w'.listeners = w.listeners ∧
      w'.pendingSyn = w.pendingSyn ∧
      (∀ k t, w'.socket k = some t → ∃ s, w.socket k = some s ∧ Moves segment s t) ∧
      ∀ k ∈ w'.retiring, ∃ t, w'.socket k = some t ∧ t.tuple.isSome := by
  have hpolled := b.congr (p.filled w.sockets) fun k s t hs ht ↦
    (p.moves w.sockets k s t hs ht).ackDelay
  have hfloating : Booked { w with sockets := p.run w.sockets, retiring := [] }
      (w.retiring ++ rest) := by
    refine ⟨?_, hpolled.listened, hpolled.ports, hpolled.isn, hpolled.ackDelay⟩
    have hhandles := hpolled.handles
    rwa [List.append_assoc] at hhandles ⊢
  obtain ⟨w', kept, hreap, hretiring, b', hshrinks, hkept⟩ := reap_spec w.retiring rfl hfloating
  refine ⟨{ w' with retiring := kept }, ?_, ?_, hshrinks.listeners, hshrinks.pendingSyn,
    fun k t ht ↦ ?_, hkept⟩
  · rw [poll, hreap]
    rfl
  · refine ⟨?_, b'.listened, b'.ports, b'.isn, b'.ackDelay⟩
    have hhandles := b'.handles
    rw [hretiring, List.append_nil, ← List.append_assoc] at hhandles
    exact hhandles
  · have hpoll : (p.run w.sockets).get? k = some t := by
      rcases hshrinks.socket k with heq | hnone
      · exact heq.symm.trans ht
      · cases hnone.symm.trans ht
    have hsome : (w.sockets.get? k).isSome :=
      (p.filled w.sockets k).symm.trans (Option.isSome_of_eq_some hpoll)
    obtain ⟨s, hs⟩ := Option.isSome_iff_exists.1 hsome
    exact ⟨s, hs, p.moves w.sockets k s t hs hpoll⟩

end Poll

/-! ### A packet is fed -/

/-- What holds between two packets. -/
structure Settled (w : SocketStack) (connections : List Nat) : Prop where
  booked : Booked w connections
  tidy : Tidy w
  /-- None but the listeners listens. -/
  only : ∀ h s, w.socket h = some s → s.state = .listen → ∃ l ∈ w.listeners, l.handle = h

/-- What holds after a poll that was fed a segment with these ends: a listener may have them, and so
may one other socket. -/
structure Heard (segment : Option (SocketAddr × SocketAddr)) (w : SocketStack) : Prop where
  listeners : ∀ l ∈ w.listeners, ∃ s, w.socket l.handle = some s ∧ s.listenPort = l.port ∧
    (s.state = .listen ∨
      ∃ ends, segment = some ends ∧ s.tuple = some ends ∧ ends.1.port.toNat = l.port)
  blank : ∀ h s, w.socket h = some s → s.state = .listen → s.tuple = none
  unique : ∀ h h' s s' ends, w.socket h = some s → w.socket h' = some s' → s.tuple = some ends →
    s'.tuple = some ends →
    h = h' ∨ (∃ l ∈ w.listeners, l.handle = h) ∨ ∃ l ∈ w.listeners, l.handle = h'

section Feed

variable {w w' : SocketStack} {connections : List Nat}

theorem Settled.ensureListener (h : Settled w connections) (port : Nat) :
    Settled (w.ensureListener port) connections where
  booked := h.booked.ensureListener port
  tidy := h.tidy.ensureListener port
  only k s hs hstate := by
    rcases ensureListener_cases w port with heq | ⟨-, s', -, -, -, -, heq⟩
    · rw [heq] at hs ⊢
      exact h.only k s hs hstate
    · rw [heq] at hs ⊢
      replace hs := (w.sockets.get?_add s' k).symm.trans hs
      split at hs
      · next hk => exact ⟨_, List.mem_append_right _ (List.mem_singleton_self _), hk.symm⟩
      · obtain ⟨l, hl, hhandle⟩ := h.only k s hs hstate
        exact ⟨l, List.mem_append_left _ hl, hhandle⟩

theorem Settled.enqueueRx (h : Settled w connections)
    (syn : Option (SocketAddr × SocketAddr × Nat)) : Settled (w.enqueueRx syn) connections where
  booked := ⟨h.booked.handles, h.booked.listened, h.booked.ports, h.booked.isn, h.booked.ackDelay⟩
  tidy := ⟨h.tidy.listening, h.tidy.blank, h.tidy.unique⟩
  only := h.only

theorem Settled.heard (h : Settled w connections) {segment : Option (SocketAddr × SocketAddr)}
    (b : Booked w' connections) (hlisteners : w'.listeners = w.listeners)
    (hmoves : ∀ k t, w'.socket k = some t → ∃ s, w.socket k = some s ∧ Moves segment s t) :
    Heard segment w' := by
  -- A socket that is no listener has the ends that it had.
  have hends {k : Nat} {t : TcpSocket} {ends : SocketAddr × SocketAddr}
      (ht : w'.socket k = some t) (htuple : t.tuple = some ends)
      (hnot : ¬∃ l ∈ w.listeners, l.handle = k) :
      ∃ s, w.socket k = some s ∧ s.tuple = some ends := by
    obtain ⟨s, hs, hmove⟩ := hmoves k t ht
    refine ⟨s, hs, ?_⟩
    rcases hmove.tuple (fun hstate ↦ hnot (h.only k s hs hstate)) with heq | hnone
    · exact heq.symm.trans htuple
    · rw [hnone] at htuple
      cases htuple
  constructor
  case listeners =>
    intro l hl
    obtain ⟨t, ht⟩ := b.socket_of_listener hl
    rw [hlisteners] at hl
    obtain ⟨s, hs, hstate, hport⟩ := h.tidy.listening l hl
    obtain ⟨s', hs', hmove⟩ := hmoves l.handle t ht
    obtain rfl := Option.mem_unique hs hs'
    refine ⟨t, ht, hmove.listenPort.trans hport, ?_⟩
    rcases hmove.ofListen hstate with hlisten | ⟨ends, hsegment, htuple, hends⟩
    · exact .inl hlisten
    · exact .inr ⟨ends, hsegment, htuple, hends.trans hport⟩
  case blank =>
    intro k t ht hstate
    obtain ⟨s, hs, hmove⟩ := hmoves k t ht
    exact hmove.listens (h.tidy.blank k s hs) hstate
  case unique =>
    intro k k' t t' ends ht ht' htuple htuple'
    rw [hlisteners]
    by_cases hk : ∃ l ∈ w.listeners, l.handle = k
    · exact .inr (.inl hk)
    by_cases hk' : ∃ l ∈ w.listeners, l.handle = k'
    · exact .inr (.inr hk')
    obtain ⟨s, hs, hs_ends⟩ := hends ht htuple hk
    obtain ⟨s', hs', hs_ends'⟩ := hends ht' htuple' hk'
    exact .inl (h.tidy.unique k k' s s' ends hs hs' hs_ends hs_ends')

theorem feed_spec {c : WireChecks} {d : Driver} (h : Settled d.stack d.connections) (t : Turn c) :
    ∃ w', d.feed t = some ⟨w', d.connections⟩ ∧ Booked w' d.connections ∧ Heard t.segment w' ∧
      ∀ arrival, t.arrival = some arrival → w'.pendingSyn = arrival.syn := by
  have hpoll {w : SocketStack} (h : Settled w d.connections) :
      ∃ w', w.poll t.first = some w' ∧ Booked w' d.connections ∧ Heard t.segment w' ∧
        w'.pendingSyn = w.pendingSyn := by
    obtain ⟨w', heq, b, hlisteners, hsyn, hmoves, -⟩ := poll_spec h.booked t.first
    exact ⟨w', heq, b, h.heard b hlisteners hmoves, hsyn⟩
  rw [Driver.feed]
  cases t.arrival with
  | none =>
    obtain ⟨w', heq, b, hheard, -⟩ := hpoll h
    exact ⟨w', by dsimp only; rw [heq]; rfl, b, hheard, nofun⟩
  | some arrival =>
    have hlistening : Settled (Driver.listenFor d.stack arrival.dst) d.connections := by
      unfold Driver.listenFor
      split
      · exact h.ensureListener _
      · exact h
    obtain ⟨w', heq, b, hheard, hsyn⟩ := hpoll (hlistening.enqueueRx arrival.syn)
    refine ⟨w', by dsimp only; rw [heq]; rfl, b, hheard, ?_⟩
    rintro _ ⟨⟩
    exact hsyn

end Feed

/-! ### Handshakes -/

section Handshakes

variable {w : SocketStack} {rest : List Nat} {l : TcpListener} {h : Nat}

/-- The listeners that have left `Listen` are found. -/
theorem started_spec {ls : List TcpListener} (hs : ∀ l ∈ ls, ∃ s, w.socket l.handle = some s) :
    ∃ out, w.started ls = some out ∧ out.Sublist ls ∧
      (∀ l ∈ ls, l ∉ out → ∃ s, w.socket l.handle = some s ∧ s.state = .listen) ∧
      ∀ l ∈ out, ∃ s, w.socket l.handle = some s ∧ s.state ≠ .listen := by
  induction ls with
  | nil => exact ⟨[], rfl, .slnil, nofun, nofun⟩
  | cons l ls ih =>
    obtain ⟨s, hsl⟩ := hs l (.head _)
    obtain ⟨out, hout, hsub, hrest, hstarted⟩ := ih fun l' hl' ↦ hs l' (.tail _ hl')
    have hstart : w.started (l :: ls) = some (if s.state = .listen then out else l :: out) := by
      rw [started, hsl, hout]
      rfl
    by_cases hstate : s.state = .listen
    · rw [if_pos hstate] at hstart
      refine ⟨out, hstart, hsub.cons l, fun l' hl' hnot ↦ ?_, hstarted⟩
      rcases List.mem_cons.1 hl' with rfl | hl'
      · exact ⟨s, hsl, hstate⟩
      · exact hrest l' hl' hnot
    · rw [if_neg hstate] at hstart
      refine ⟨l :: out, hstart, hsub.cons_cons l, fun l' hl' hnot ↦ ?_, ?_⟩
      · rcases List.mem_cons.1 hl' with rfl | hl'
        · exact absurd (.head _) hnot
        · exact hrest l' hl' fun hin ↦ hnot (.tail _ hin)
      · exact List.forall_mem_cons.2 ⟨⟨s, hsl, hstate⟩, hstarted⟩

variable {segment : Option (SocketAddr × SocketAddr)}

/-- All of them have left for the one segment, and no two have one port: there is one at most. -/
theorem started_le_one (hheard : Heard segment w)
    (hports : (w.listeners.map TcpListener.port).Nodup) {out : List TcpListener}
    (hsub : out.Sublist w.listeners)
    (hstarted : ∀ l ∈ out, ∃ s, w.socket l.handle = some s ∧ s.state ≠ .listen) :
    out = [] ∨ ∃ l, out = [l] := by
  have hport (l : TcpListener) (hl : l ∈ out) :
      ∃ ends, segment = some ends ∧ ends.1.port.toNat = l.port := by
    obtain ⟨s, hs, hstate⟩ := hstarted l hl
    obtain ⟨s', hs', -, hheard⟩ := hheard.listeners l (hsub.subset hl)
    obtain rfl := Option.mem_unique hs hs'
    obtain ⟨ends, hsegment, -, hends⟩ := hheard.resolve_left hstate
    exact ⟨ends, hsegment, hends⟩
  cases out with
  | nil => exact .inl rfl
  | cons l out =>
    cases out with
    | nil => exact .inr ⟨l, rfl⟩
    | cons l' out =>
      obtain ⟨ends, hsegment, hends⟩ := hport l (.head _)
      obtain ⟨ends', hsegment', hends'⟩ := hport l' (.tail _ (.head _))
      obtain rfl := Option.mem_unique hsegment hsegment'
      have hnodup := (hsub.map TcpListener.port).nodup hports
      refine absurd ?_ (List.nodup_cons.1 hnodup).1
      rw [← hends, hends']
      exact .head _

theorem perm_filter_handle {ls : List TcpListener} (hnodup : (ls.map TcpListener.handle).Nodup)
    (hl : l ∈ ls) : ls.Perm (l :: ls.filter (·.handle ≠ l.handle)) := by
  induction ls with
  | nil => cases hl
  | cons x ls ih =>
    obtain ⟨hx, hls⟩ := List.nodup_cons.1 hnodup
    have hne {y : TcpListener} (hy : y ∈ ls) : y.handle ≠ x.handle :=
      fun heq ↦ hx (heq ▸ List.mem_map_of_mem hy)
    rcases List.mem_cons.1 hl with rfl | hl
    · rw [List.filter_cons_of_neg (by simp), List.filter_eq_self.2 fun y hy ↦ by simpa using hne hy]
    · rw [List.filter_cons_of_pos (by simpa using (hne hl).symm)]
      exact ((ih hls hl).cons x).trans (.swap l x _)

/-- The stack without a listener. -/
def without (w : SocketStack) (l : TcpListener) : SocketStack :=
  { w with
    listeners := w.listeners.filter (·.handle ≠ l.handle)
    listenedPorts := w.listenedPorts.erase l.port
    pendingSyn := none }

/-- A listener that is taken out of the books has its handle still. -/
theorem Booked.without (b : Booked w rest) (hl : l ∈ w.listeners) :
    Booked (without w l) (l.handle :: rest) := by
  have hnodup := b.handles.nodup
  rw [List.append_assoc] at hnodup
  have hperm := perm_filter_handle (List.nodup_append'.1 hnodup).1 hl
  have hports := (hperm.map TcpListener.port).nodup_iff.1 b.ports
  rw [List.map_cons, List.nodup_cons] at hports
  constructor
  case handles =>
    refine b.handles.perm (((hperm.map TcpListener.handle).append_right _
      |>.append_right _).trans ?_)
    exact List.perm_middle.symm
  case listened =>
    intro port
    change port ∈ w.listenedPorts.erase l.port ↔
      port ∈ (w.listeners.filter (·.handle ≠ l.handle)).map TcpListener.port
    rw [Finset.mem_erase, b.listened, (hperm.map TcpListener.port).mem_iff, List.map_cons,
      List.mem_cons]
    constructor
    · rintro ⟨hne, heq | hin⟩
      · exact absurd heq hne
      · exact hin
    · intro hin
      refine ⟨?_, .inr hin⟩
      rintro rfl
      exact hports.1 hin
  case ports => exact hports.2
  case isn => exact b.isn
  case ackDelay => exact b.ackDelay

variable {s : TcpSocket}

theorem Booked.setIsn (b : Booked w rest) (hs : w.socket h = some s) (isn : Option Nat) :
    Booked { w with ownerIsn := Function.update w.ownerIsn h isn } rest :=
  { b with
    isn k hk := by
      by_cases hkh : k = h
      · subst hkh
        exact Option.isSome_of_eq_some hs
      · exact b.isn k fun hnone ↦ hk ((Function.update_of_ne hkh ..).trans hnone) }

variable {ends : SocketAddr × SocketAddr}

theorem tupleOwner_some {owner : Nat} (howner : w.tupleOwner h ends = some owner) :
    owner ≠ h ∧ ∃ s, w.socket owner = some s ∧ s.tuple = some ends := by
  have hfound := List.find?_some howner
  rw [Bool.and_eq_true, decide_eq_true_eq, beq_iff_eq, Option.bind_eq_some_iff] at hfound
  exact hfound

theorem tupleOwner_none (hnone : w.tupleOwner h ends = none) {k : Nat} (hne : k ≠ h)
    (hs : w.socket k = some s) : s.tuple ≠ some ends := by
  intro htuple
  have hnot := List.find?_eq_none.1 hnone k (w.sockets.mem_handles.2 (Option.isSome_of_eq_some hs))
  rw [Bool.and_eq_true, decide_eq_true_eq, beq_iff_eq, Option.bind_eq_some_iff] at hnot
  exact hnot ⟨hne, s, hs, htuple⟩

/-- What is made of a listener that has left `Listen`, and what becomes of the ISNs. -/
inductive Verdict (w : SocketStack) (l : TcpListener) (src dst : SocketAddr) :
    Handshake → (Nat → Option Nat) → Prop
  | duplicate (owner : Nat) (howner : w.tupleOwner l.handle (dst, src) = some owner)
      (hsame : ∀ a b, observedIsn w.pendingSyn src dst = some a →
      w.ownerIsn owner = some b → a = b) :
      Verdict w l src dst (.duplicate l.handle l.port) w.ownerIsn
  | supersedes (owner a b : Nat) (howner : w.tupleOwner l.handle (dst, src) = some owner)
      (hseen : observedIsn w.pendingSyn src dst = some a) (hisn : w.ownerIsn owner = some b)
      (hne : a ≠ b) :
      Verdict w l src dst (.pending l.handle l.port src dst (some owner))
        (Function.update w.ownerIsn l.handle (some a))
  | fresh (isns : Nat → Option Nat) (hnone : w.tupleOwner l.handle (dst, src) = none)
      (hisns : isns = w.ownerIsn ∨ ∃ a, isns = Function.update w.ownerIsn l.handle (some a)) :
      Verdict w l src dst (.pending l.handle l.port src dst none) isns

theorem takeHandshake_spec (hs : w.socket l.handle = some s) {src dst : SocketAddr}
    (htuple : s.tuple = some (dst, src)) :
    ∃ handshake isns, Verdict w l src dst handshake isns ∧
      takeHandshake { w with pendingSyn := none } w.pendingSyn l =
        some (handshake, { without w l with ownerIsn := isns }) := by
  have hsocket : ({ w with
      listeners := w.listeners.filter (·.handle ≠ l.handle)
      listenedPorts := w.listenedPorts.erase l.port
      pendingSyn := none } : SocketStack).socket l.handle = some s := hs
  rw [takeHandshake, hsocket]
  dsimp only [bind, Option.bind]
  rw [htuple]
  dsimp only
  cases howner : w.tupleOwner l.handle (dst, src) with
  | none =>
    have howner' : ({ w with
        listeners := w.listeners.filter (·.handle ≠ l.handle)
        listenedPorts := w.listenedPorts.erase l.port
        pendingSyn := none } : SocketStack).tupleOwner l.handle (dst, src) = none := howner
    rw [howner']
    cases observedIsn w.pendingSyn src dst with
    | none => exact ⟨_, _, .fresh _ howner (.inl rfl), rfl⟩
    | some a => exact ⟨_, _, .fresh _ howner (.inr ⟨a, rfl⟩), rfl⟩
  | some owner =>
    have howner' : ({ w with
        listeners := w.listeners.filter (·.handle ≠ l.handle)
        listenedPorts := w.listenedPorts.erase l.port
        pendingSyn := none } : SocketStack).tupleOwner l.handle (dst, src) = some owner := howner
    rw [howner']
    dsimp only
    cases hseen : observedIsn w.pendingSyn src dst with
    | none => exact ⟨_, _, .duplicate owner howner (by rw [hseen]; nofun), rfl⟩
    | some a =>
      cases hisn : w.ownerIsn owner with
      | none => exact ⟨_, _, .duplicate owner howner (by rw [hisn]; nofun), rfl⟩
      | some b =>
        dsimp only
        by_cases hab : a = b
        · rw [if_pos hab]
          refine ⟨_, _, .duplicate owner howner fun a' b' ha hb ↦ ?_, rfl⟩
          rw [← Option.mem_unique hseen ha, ← Option.mem_unique hisn hb, hab]
        · rw [if_neg hab]
          exact ⟨_, _, .supersedes owner a b howner hseen hisn hab, rfl⟩

/-- The sockets when a listener was taken out of the books: it may have the ends of another. -/
structure Near (w : SocketStack) (h : Nat) : Prop where
  listening : ∀ l ∈ w.listeners, ∃ s, w.socket l.handle = some s ∧ s.state = .listen ∧
    s.listenPort = l.port
  blank : ∀ k s, w.socket k = some s → s.state = .listen → s.tuple = none
  unique : ∀ k k' s s' ends, w.socket k = some s → w.socket k' = some s' → s.tuple = some ends →
    s'.tuple = some ends → k = k' ∨ k = h ∨ k' = h

theorem Heard.near (hheard : Heard segment w)
    (hrest : ∀ l' ∈ w.listeners, l' ∉ [l] → ∃ s, w.socket l'.handle = some s ∧ s.state = .listen)
    (isns : Nat → Option Nat) : Near { without w l with ownerIsn := isns } l.handle where
  listening l' hl' := by
    obtain ⟨hmem, hne⟩ := List.mem_filter.1 hl'
    have hnot : l' ∉ [l] := by
      intro hin
      rw [List.mem_singleton.1 hin] at hne
      simp at hne
    obtain ⟨s, hs, hstate⟩ := hrest l' hmem hnot
    obtain ⟨s', hs', hport, -⟩ := hheard.listeners l' hmem
    obtain rfl := Option.mem_unique hs hs'
    exact ⟨s, hs, hstate, hport⟩
  blank := hheard.blank
  unique k k' s s' ends hs hs' htuple htuple' := by
    -- A listener with ends is the one that has left.
    have hleft {k : Nat} {s : TcpSocket} (hs : w.socket k = some s) (htuple : s.tuple = some ends)
        (hlistener : ∃ l' ∈ w.listeners, l'.handle = k) : k = l.handle := by
      obtain ⟨l', hl', rfl⟩ := hlistener
      by_contra hne
      obtain ⟨s₀, hs₀, hstate⟩ := hrest l' hl' fun hin ↦ hne (by rw [List.mem_singleton.1 hin])
      obtain rfl := Option.mem_unique hs hs₀
      rw [hheard.blank _ s hs hstate] at htuple
      cases htuple
    rcases hheard.unique k k' s s' ends hs hs' htuple htuple' with heq | hk | hk'
    · exact .inl heq
    · exact .inr (.inl (hleft hs htuple hk))
    · exact .inr (.inr (hleft hs' htuple' hk'))

/-- Where no other has its ends, nothing is amiss. -/
theorem Near.tidy (n : Near w h) (hs : w.socket h = some s)
    (hnone : ∀ k s', k ≠ h → w.socket k = some s' → s'.tuple ≠ none → s'.tuple ≠ s.tuple) :
    Tidy w where
  listening := n.listening
  blank := n.blank
  unique k k' s₁ s₂ ends hs₁ hs₂ htuple₁ htuple₂ := by
    have hother {k : Nat} {s' : TcpSocket} (hs' : w.socket k = some s')
        (htuple' : s'.tuple = some ends) (htuple : s.tuple = some ends) : k = h := by
      by_contra hne
      exact hnone k s' hne hs' (by rw [htuple']; nofun) (htuple'.trans htuple.symm)
    rcases n.unique k k' s₁ s₂ ends hs₁ hs₂ htuple₁ htuple₂ with heq | rfl | rfl
    · exact heq
    · obtain rfl := Option.mem_unique hs hs₁
      exact (hother hs₂ htuple₂ htuple₁).symm
    · obtain rfl := Option.mem_unique hs hs₂
      exact hother hs₁ htuple₁ htuple₂

/-- Nor is it once one of those with the same ends is gone. -/
theorem Near.remove (n : Near w h) {w' : SocketStack} {r : Nat}
    (hnot : ∀ l ∈ w.listeners, l.handle ≠ r) (hlisteners : w'.listeners = w.listeners)
    (hsockets : w'.sockets = w.sockets.remove r)
    (hshare : ∀ k s s' ends, k ≠ h → k ≠ r → r ≠ h → w.socket k = some s → w.socket h = some s' →
      s.tuple = some ends → s'.tuple ≠ some ends) : Tidy w' := by
  have hget (k : Nat) : w'.socket k = if k = r then none else w.socket k := by
    rw [SocketStack.socket, hsockets]
    exact w.sockets.get?_remove r k
  have hold {k : Nat} {s : TcpSocket} (hs : w'.socket k = some s) : k ≠ r ∧
    w.socket k = some s := by
    rw [hget] at hs
    split at hs
    · cases hs
    · next hne => exact ⟨hne, hs⟩
  constructor
  case listening =>
    intro l hl
    rw [hlisteners] at hl
    obtain ⟨s, hs, hstate, hport⟩ := n.listening l hl
    exact ⟨s, (hget l.handle).trans ((if_neg (hnot l hl)).trans hs), hstate, hport⟩
  case blank => exact fun k s hs hstate ↦ n.blank k s (hold hs).2 hstate
  case unique =>
    intro k k' s₁ s₂ ends hs₁ hs₂ htuple₁ htuple₂
    obtain ⟨hk, hs₁⟩ := hold hs₁
    obtain ⟨hk', hs₂⟩ := hold hs₂
    rcases n.unique k k' s₁ s₂ ends hs₁ hs₂ htuple₁ htuple₂ with heq | rfl | rfl
    · exact heq
    · by_contra hne
      exact hshare k' s₂ s₁ ends (Ne.symm hne) hk' (Ne.symm hk) hs₂ hs₁ htuple₂ htuple₁
    · by_contra hne
      exact hshare k s₁ s₂ ends hne hk (Ne.symm hk') hs₁ hs₂ htuple₁ htuple₂

theorem admit_spec (b : Booked w (h :: rest)) (t : Tidy w) (port : Nat) :
    ∃ w', w.admitSocket h port = some w' ∧ Booked w' (h :: rest) ∧ Tidy w' ∧
    w'.retiring = w.retiring ∧ w'.ownerIsn = w.ownerIsn := by
  obtain ⟨s, hs⟩ := b.socket (h := h) (.head _)
  have hnot := (b.not_mem (.head _)).1
  obtain ⟨w₁, hmodify, rfl, -⟩ := modify_spec hs fun s ↦
    { s with
      keepAlive := some w.keepAliveInterval
      timeout := some w.peerTimeout
      synackPaused := false }
  refine ⟨_, by rw [admitSocket, hmodify]; rfl, (b.modify hs rfl).ensureListener port,
    (t.modify hnot hs rfl id).ensureListener port, (ensureListener_rest _ port).1,
    (ensureListener_rest _ port).2.1⟩

theorem refuse_spec (b : Booked w (h :: rest)) (t : Tidy w) (port : Nat) :
    ∃ w', w.refuse h port = some w' ∧ Booked w' rest ∧ Tidy w' ∧
      w'.retiring = w.retiring ++ [h] ∧ w'.ownerIsn = w.ownerIsn := by
  obtain ⟨s, hs⟩ := b.socket (h := h) (.head _)
  have hnot := (b.not_mem (.head _)).1
  obtain ⟨w₁, hmodify, heq, -⟩ := modify_spec hs fun s ↦ { s with state := .closed }
  have b₁ : Booked w₁ (h :: rest) := by
    rw [heq]
    exact b.modify (f := fun s ↦ { s with state := .closed }) hs rfl
  have t₁ : Tidy w₁ := by
    rw [heq]
    exact t.modify (f := fun s ↦ { s with state := .closed }) hnot hs rfl nofun
  obtain ⟨hretire, b₂⟩ := b₁.retire
  have t₂ : Tidy { w₁ with retiring := w₁.retiring ++ [h] } := ⟨t₁.listening, t₁.blank, t₁.unique⟩
  refine ⟨_, by rw [refuse, hmodify]; dsimp only [bind, Option.bind]; rw [hretire],
    b₂.ensureListener port, t₂.ensureListener port, (ensureListener_rest _ port).1.trans ?_,
    (ensureListener_rest _ port).2.1.trans ?_⟩
  · rw [heq]
  · rw [heq]

end Handshakes

end Hole.Tun
