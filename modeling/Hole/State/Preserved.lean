import Hole.State.Backups

/-!
# What an update leaves of a state file

`Backups` says what an update can do to the folder, call by call. Here is what follows for the file
that was at the name: it is given up unread in two cells of the table only (`unread_preserved`), and
an update is all or nothing (`all_or_nothing`).
-/

namespace Hole.State.Backups

open Effect Files

variable {σ ρ : Type}

/-! ### What is left of what was there -/

/-- A file apart from the number of its names. -/
def Node.data (x : Node) : Node := { x with links := 0 }

/-- Every name but the file's own stands for what it stood for, and no file was written to. -/
structure Extends (file : FileName) (s t : Shelf) : Prop where
  names : ∀ n ≠ file, ∀ i, s.names n = some i → t.names n = some i
  data : ∀ i < s.next, (t.node i).data = (s.node i).data
  next : s.next ≤ t.next

section Extends

variable {place : Place} {file : FileName} {s t v : Shelf} {i : Nat} {n b : FileName}

theorem Extends.trans (h : Extends file s t) (h' : Extends file t v) : Extends file s v where
  names n hn i hi := h'.names n hn i (h.names n hn i hi)
  data i hi := (h'.data i (Nat.lt_of_lt_of_le hi h.next)).trans (h.data i hi)
  next := Nat.le_trans h.next h'.next

theorem Same.extends (h : Same place file s t) : Extends file s t where
  names _ _ _ hi := h.name hi
  data i hi := congrArg Node.data (h.node i hi)
  next := h.next

theorem data_recount (s : Shelf) (i : Nat) (f : Nat → Nat) (j : Nat) :
    ((s.recount i f).node j).data = (s.node j).data := by
  by_cases hj : j = i
  · subst hj
    simp [Shelf.recount, Node.data]
  · simp [Shelf.recount, hj]

theorem extends_put (s : Shelf) (file : FileName) (x : Node) : Extends file s (s.put file x) where
  names n hn i hi := by simpa [Shelf.put, hn] using hi
  data i hi := by simp [Shelf.put, Nat.ne_of_lt hi]
  next := Nat.le_succ _

theorem extends_recount (s : Shelf) (file : FileName) (i : Nat) (f : Nat → Nat) :
    Extends file s (s.recount i f) :=
  ⟨fun _ _ _ hi ↦ hi, fun j _ ↦ data_recount s i f j, Nat.le_refl _⟩

theorem extends_link (hb : s.names b = none) : Extends file s (s.link i b) where
  names n _ j hj := by
    have hn : n ≠ b := by
      rintro rfl
      rw [hb] at hj
      cases hj
    simpa [Shelf.link, Shelf.recount, hn] using hj
  data j _ := data_recount s i _ j
  next := Nat.le_refl _

theorem extends_unlink (s : Shelf) (file : FileName) (i : Nat) :
    Extends file s (s.unlink i file) where
  names n hn j hj := by simpa [Shelf.unlink, Shelf.recount, hn] using hj
  data j _ := data_recount s i (· - 1) j
  next := Nat.le_refl _

theorem extends_move (hb : s.names b = none) : Extends file s (s.move i file b) where
  names n hn j hj := by
    have hnb : n ≠ b := by
      rintro rfl
      rw [hb] at hj
      cases hj
    simpa [Shelf.move, hn, hnb] using hj
  data _ _ := rfl
  next := Nat.le_refl _

@[simp]
theorem own_publish (s : Shelf) (place : Place) (file : FileName) (bytes : Bytes) :
    (s.publish place file bytes).names file = some s.next := by
  unfold Shelf.publish
  split <;> simp [Shelf.put, Shelf.recount]

theorem names_publish (s : Shelf) (place : Place) (bytes : Bytes) (hn : n ≠ file) :
    (s.publish place file bytes).names n = s.names n := by
  unfold Shelf.publish
  split <;> simp [Shelf.put, Shelf.recount, hn]

@[simp]
theorem next_publish (s : Shelf) (place : Place) (file : FileName) (bytes : Bytes) :
    (s.publish place file bytes).next = s.next + 1 := by
  unfold Shelf.publish
  split <;> rfl

@[simp]
theorem node_publish (s : Shelf) (place : Place) (file : FileName) (bytes : Bytes) :
    (s.publish place file bytes).node s.next = ⟨.file, bytes, place.file, 1, false⟩ := by
  unfold Shelf.publish
  split <;> simp [Shelf.put, Shelf.recount]

@[simp]
theorem owner_publish (s : Shelf) (place : Place) (file : FileName) (bytes : Bytes) :
    (s.publish place file bytes).owner = s.owner := by
  unfold Shelf.publish
  split <;> rfl

theorem extends_publish (s : Shelf) (place : Place) (file : FileName) (bytes : Bytes) :
    Extends file s (s.publish place file bytes) := by
  unfold Shelf.publish
  split
  · exact (extends_recount s file _ _).trans (extends_put _ file _)
  · exact extends_put s file _

variable {bytes : Bytes}

theorem Published.extends (h : Published place file bytes s t) : Extends file s t := by
  obtain ⟨t₁, hbefore, hafter⟩ := h
  exact (hbefore.extends.trans (extends_publish t₁ place file bytes)).trans hafter.extends

/-- A backup that is taken back leaves the folder as it was. -/
theorem Same.of_takenBack (hb : s.names b = none) (h : Same place file (s.link i b) t) :
    t.names b = some i ∧ Same place file s (t.unlink i b) := by
  have hnamed : t.names b = some i := h.name (by simp [Shelf.link])
  refine ⟨hnamed, fun n ↦ ?_, fun j hj ↦ ?_, h.next, h.taken, h.left, h.owner⟩
  · by_cases hn : n = b
    · subst hn
      exact .inl (by simp [Shelf.unlink, hb])
    · have hlinked : (s.link i b).names n = s.names n := by simp [Shelf.link, hn]
      have hunlinked : (t.unlink i b).names n = t.names n := by simp [Shelf.unlink, hn]
      rw [hunlinked, ← hlinked]
      exact h.names n
  · have hnode : t.node j = (s.link i b).node j := h.node j hj
    by_cases hji : j = i
    · subst hji
      simp [Shelf.unlink, Shelf.recount, hnode, Shelf.link]
    · simp [Shelf.unlink, Shelf.recount, hnode, Shelf.link, hji]

/-- What a write that failed leaves: the folder as it was, or with a backup that the log has as
left. -/
theorem Unwritten.cases (h : Unwritten place file s t) :
    Same place file s t ∨
      ∃ t₁ t₂ i b, Same place file s t₁ ∧ t₁.names file = some i ∧ t₁.names b = none ∧
        IsBackup file b ∧ Same place file (t₁.link i b) t₂ ∧ t = t₂.warned b := by
  cases h with
  | same h => exact .inl h
  | @linked v₁ v₂ b hlinked hbefore hback =>
    obtain ⟨t₁, i, hsame, hi, hb, hbackup, rfl⟩ := hlinked
    rcases hback with ⟨t₂, j, ht₂, hj, rfl⟩ | ⟨t₂, ht₂, rfl⟩
    · obtain ⟨hnamed, hsame'⟩ := Same.of_takenBack hb (hbefore.trans ht₂)
      obtain rfl : i = j := Option.mem_unique hnamed hj
      exact .inl (hsame.trans hsame')
    · exact .inr ⟨t₁, t₂, i, b, hsame, hi, hb, hbackup, hbefore.trans ht₂, rfl⟩

theorem Unwritten.extends (h : Unwritten place file s t) : Extends file s t := by
  rcases h.cases with hsame | ⟨t₁, t₂, i, b, hsame, -, hb, -, hafter, rfl⟩
  · exact hsame.extends
  · have hlinked : Extends file s t₂ := (hsame.extends.trans (extends_link hb)).trans hafter.extends
    exact ⟨hlinked.names, hlinked.data, hlinked.next⟩

/-- The file keeps its name where a write fails. -/
theorem Unwritten.own (h : Unwritten place file s t) : t.names file = s.names file := by
  rcases h.cases with hsame | ⟨t₁, t₂, i, b, hsame, -, -, hbackup, hafter, rfl⟩
  · exact hsame.own
  · have hlinked : (t₁.link i b).names file = t₁.names file := by
      simp [Shelf.link, Shelf.recount, hbackup.ne.symm]
    exact (hafter.own.trans hlinked).trans hsame.own

theorem Wrote.extends {backUp : Bool} (h : Wrote place file bytes backUp s t) :
    Extends file s t := by
  cases h with
  | replaced hbefore _ _ hpublished => exact hbefore.extends.trans hpublished.extends
  | secured hbefore _ _ hlinked hpublished =>
    obtain ⟨t₁, i, hsame, -, hb, -, rfl⟩ := hlinked
    exact ((hbefore.extends.trans hsame.extends).trans (extends_link hb)).trans hpublished.extends

variable {schema : Schema σ} {role : Role} {passes : Nat} {decide : Loaded σ → Change σ × ρ}
  {u : Updated σ ρ}

theorem Applied.extends {chosen : Step σ} {done : UpdateOutcome × Option FileName}
    (h : Applied place file bytes chosen s done t) : Extends file s t := by
  cases h with
  | kept _ hsame => exact hsame.extends
  | stored _ hwrote => exact hwrote.extends
  | removed _ hbefore _ => exact hbefore.extends.trans (extends_unlink ..)
  | moved _ hfound =>
    obtain ⟨t₁, i, hsame, -, hb, -, rfl⟩ := hfound
    exact hsame.extends.trans (extends_move hb)

/-- No update touches a name but the file's own, or the contents of a file. -/
theorem Went.extends (h : Went place schema file role passes decide s u t) : Extends file s t := by
  cases h with
  | unseen hsame => exact hsame.extends
  | failed _ hfails => exact hfails.1.extends
  | applied _ _ hbefore happlied => exact hbefore.extends.trans happlied.extends

/-! ### No file is destroyed unread -/

/-- A read that this release acts on, or drops on purpose. -/
def Understood : Loaded σ → Prop
  | .current _ _ | .obsolete _ => True
  | .absent | .unreadable _ | .corrupt | .newer _ => False

/-- The two cells whose file is given up unread. -/
def Excepted (role : Role) (loaded : Loaded σ) (change : Change σ) : Prop :=
  (role = .config ∧ loaded = .corrupt ∧ ∃ value, change = .store value) ∨
    (role = .claim ∧ change = .remove)

/-- The file is at its own name or at that of a backup, with what it held. -/
def Preserved (file : FileName) (s t : Shelf) (i : Nat) : Prop :=
  ∃ n, (n = file ∨ IsBackup file n) ∧ t.names n = some i ∧ (t.node i).data = (s.node i).data

/-- Only in those two cells is a file that was not understood removed or written over. -/
theorem step_spares {loaded : Loaded σ} {change : Change σ} (hthere : loaded ≠ .absent)
    (hunderstood : ¬Understood loaded) (hexcepted : ¬Excepted role loaded change) :
    step role loaded change ≠ .delete ∧ ∀ value, step role loaded change ≠ .write value false := by
  cases change with
  | keep => exact ⟨nofun, nofun⟩
  | moveAside => exact ⟨nofun, nofun⟩
  | store value =>
    cases loaded with
    | absent => exact absurd rfl hthere
    | current value found => exact absurd trivial hunderstood
    | obsolete found => exact absurd trivial hunderstood
    | unreadable kind => cases role <;> exact ⟨nofun, nofun⟩
    | newer found => cases role <;> exact ⟨nofun, nofun⟩
    | corrupt =>
      cases role with
      | config => exact absurd (.inl ⟨rfl, rfl, value, rfl⟩) hexcepted
      | _ => exact ⟨nofun, nofun⟩
  | remove =>
    have hclaim : role ≠ .claim := fun hrole ↦ hexcepted (.inr ⟨hrole, rfl⟩)
    cases loaded with
    | absent => exact absurd rfl hthere
    | current value found => exact absurd trivial hunderstood
    | obsolete found => exact absurd trivial hunderstood
    | _ => cases role <;> first | exact absurd rfl hclaim | exact ⟨nofun, nofun⟩

theorem Preserved.own (hwf : Wf s) (hi : s.names file = some i) (hext : Extends file s t)
    (hown : t.names file = s.names file) : Preserved file s t i :=
  ⟨file, .inl rfl, hown.trans hi, hext.data i (hwf.bound hi)⟩

theorem Went.preserved (hwf : Wf s) (h : Went place schema file role passes decide s u t)
    (hi : s.names file = some i)
    (hseen : ∀ loaded, u.seen = some loaded →
      ¬Understood loaded ∧ ¬Excepted role loaded (decide loaded).1) :
    Preserved file s t i := by
  have hext := h.extends
  have hdata := hext.data i (hwf.bound hi)
  cases h with
  | unseen hsame => exact .own hwf hi hext hsame.own
  | failed _ hfails => exact .own hwf hi hext hfails.1.own
  | @applied loaded bytes t₁ _ outcome backup habsent _ hbefore happlied =>
    have hthere : loaded ≠ .absent := by
      intro hloaded
      rw [habsent hloaded] at hi
      cases hi
    obtain ⟨hdelete, hwrite⟩ := step_spares hthere (hseen loaded rfl).1 (hseen loaded rfl).2
    have hi₁ : t₁.names file = some i := hbefore.own.trans hi
    cases happlied with
    | kept _ hsame => exact .own hwf hi hext (hsame.own.trans hbefore.own)
    | removed hstep _ _ => exact absurd hstep hdelete
    | @stored value backUp _ hstep hwrote =>
      cases hwrote with
      | replaced _ _ halone _ =>
        cases backUp with
        | false => exact absurd hstep (hwrite value)
        | true =>
          rw [halone rfl] at hi₁
          cases hi₁
      | secured hbefore' _ _ hlinked hpublished =>
        obtain ⟨t₂, j, hsame, hj, hb, hbackup, rfl⟩ := hlinked
        obtain rfl : j = i := Option.some.inj (hj.symm.trans ((hbefore'.trans hsame).own.trans hi₁))
        have hnamed := hpublished.extends.names _ hbackup.ne j (by simp [Shelf.link])
        exact ⟨_, .inr hbackup, hnamed, hdata⟩
    | moved _ hfound =>
      obtain ⟨t₂, j, hsame, hj, hb, hbackup, rfl⟩ := hfound
      obtain rfl : j = i := Option.some.inj (hj.symm.trans (hsame.own.trans hi₁))
      exact ⟨_, .inr hbackup, by simp [Shelf.move], hdata⟩

/-- A name that stands for a file that was there did so before. -/
theorem Same.named (h : Same place file s t) (hi : i < s.next) (hn : t.names n = some i) :
    s.names n = some i := by
  rcases h.names n with hname | ⟨-, -, -, hfresh⟩
  · exact hname ▸ hn
  · exact absurd (hfresh i hn) (Nat.not_le.2 hi)

variable {backup : Option FileName}

/-- In the two cells an update that goes through leaves the file under no name. -/
theorem Went.gone (hwf : Wf s) (h : Went place schema file role passes decide s u t)
    (hi : s.names file = some i) (honly : ∀ n, s.names n = some i → n = file) {loaded : Loaded σ}
    (hseen : u.seen = some loaded) (hexcepted : Excepted role loaded (decide loaded).1) {r : ρ}
    {outcome : UpdateOutcome} (hresult : u.result = .ok (r, outcome, backup))
    (hwent : outcome = .stored ∨ outcome = .removed) : ∀ n, t.names n ≠ some i := by
  have hlt : i < s.next := hwf.bound hi
  cases h with
  | unseen _ => cases hresult
  | failed _ _ => cases hresult
  | @applied _ bytes t₁ _ _ _ _ _ hbefore happlied =>
    cases hseen
    cases hresult
    intro n hn
    cases happlied with
    | kept hleaves _ => rcases hwent with rfl | rfl <;> exact hleaves
    | moved _ _ => rcases hwent with hwent | hwent <;> cases hwent
    | @removed t₂ j _ hsame hj =>
      by_cases hnf : n = file
      · subst hnf
        simp [Shelf.unlink] at hn
      · have hn₂ : t₂.names n = some i := by simpa [Shelf.unlink, Shelf.recount, hnf] using hn
        exact hnf (honly n ((hbefore.trans hsame).named hlt hn₂))
    | @stored value backUp _ hstep hwrote =>
      have hbackUp : backUp = false := by
        rcases hexcepted with ⟨rfl, rfl, value', hchange⟩ | ⟨-, hchange⟩
        · rw [hchange] at hstep
          cases hstep
          rfl
        · rw [hchange] at hstep
          cases change_of_step_write hstep
      subst hbackUp
      cases hwrote with
      | secured _ _ hasked _ _ => cases hasked
      | replaced hbefore' _ _ hpublished =>
        obtain ⟨t₂, hsame, hafter⟩ := hpublished
        have hsame₂ : Same place file s t₂ := (hbefore.trans hbefore').trans hsame
        have hlt₂ : i < t₂.next := Nat.lt_of_lt_of_le hlt hsame₂.next
        have hn₂ : (t₂.publish place file (bytes.getD [])).names n = some i :=
          hafter.named (by rw [next_publish]; omega) hn
        by_cases hnf : n = file
        · rw [hnf, own_publish] at hn₂
          exact absurd (Option.some.inj hn₂) (Nat.ne_of_gt hlt₂)
        · rw [names_publish _ _ _ hnf] at hn₂
          exact hnf (honly n (hsame₂.named hlt hn₂))

/-! ### All or nothing -/

/-- A staged file that has its name. -/
structure Fresh (place : Place) (file : FileName) (bytes : Bytes) (t : Shelf) : Prop where
  own : ∃ i, t.names file = some i ∧ t.node i = ⟨.file, bytes, place.file, 1, false⟩
  folder : t.owner = place.folder

theorem Same.fresh (hwf : Wf s) (h : Same place file s t) (hs : Fresh place file bytes s) :
    Fresh place file bytes t := by
  obtain ⟨⟨i, hi, hnode⟩, hfolder⟩ := hs
  exact ⟨⟨i, h.own.trans hi, (h.node i (hwf.bound hi)).trans hnode⟩, h.folder hfolder⟩

theorem Published.fresh (h : Published place file bytes s t) (hs : s.owner = place.folder) :
    Fresh place file bytes t := by
  obtain ⟨t₁, hbefore, hafter⟩ := h
  have hnode : t.node t₁.next = (t₁.publish place file bytes).node t₁.next :=
    hafter.node _ (by rw [next_publish]; exact Nat.lt_succ_self _)
  exact ⟨⟨t₁.next, hafter.own.trans (own_publish ..), hnode.trans (node_publish ..)⟩,
    hafter.folder ((owner_publish ..).trans (hbefore.folder hs))⟩

theorem Wrote.fresh {backUp : Bool} (h : Wrote place file bytes backUp s t) :
    Fresh place file bytes t := by
  cases h with
  | replaced _ hfolder _ hpublished => exact hpublished.fresh hfolder
  | secured _ hfolder _ hlinked hpublished =>
    obtain ⟨t₁, i, hsame, -, -, -, rfl⟩ := hlinked
    exact hpublished.fresh (hsame.folder hfolder)

/-- A call that does not fail by itself, and can be made. -/
theorem answer_of_calm (s : Shelf) {o : Call} {c : Choice} (hc : c.fault = none) {r : Val o × Shelf}
    (hact : (s.others file c.takers).act place o = .ok r) :
    (surroundings place file).answer s o c = .ok r.1 ∧
      (surroundings place file).next s o c = r.2 := by
  simp [surroundings, Shelf.outcome, hc, hact, Except.map]

theorem mayRead_place (place : Place) : mayRead place.file 1 place.folder = true := by
  rcases place.vouched with hfile | ⟨id, hfolder, hfile⟩
  · simp [Files.mayRead, hfile]
  · simp [Files.mayRead, hfile, hfolder]

theorem run_readThrough {c : Choice}
    (h : (surroundings place file).answer s (.read file) c = .ok bytes) :
    ((readThrough schema file).run (surroundings place file) s [c]).1 =
      some (schema.classify bytes).loaded := by
  show (Prog.run (surroundings place file)
    (fromRead schema file ((surroundings place file).answer s (.read file) c)) _ []).1 = _
  rw [h]
  rfl

/-- A read whose calls do not fail finds a fresh file's bytes. -/
theorem Fresh.observed (hwf : Wf t) (h : Fresh place file bytes t) {c c' : Choice}
    (hc : c.fault = none) (hc' : c'.fault = none) :
    ((observe schema file).run (surroundings place file) t [c, c']).1 =
      some (schema.classify bytes).loaded := by
  obtain ⟨hwf₁, hsame₁⟩ := same_others place file hwf c.takers
  obtain ⟨⟨i, hi, hnode⟩, hfolder⟩ := hsame₁.fresh hwf h
  have hmade : (t.others file c.takers).made = true := hwf₁.made hi
  have hopen : (t.others file c.takers).act place (.openDir false) =
      .ok ((), t.others file c.takers) := by
    simp [Shelf.act, hmade]
  obtain ⟨hanswer, hnext⟩ := answer_of_calm t hc hopen
  obtain ⟨-, hsame₂⟩ := same_others place file hwf₁ c'.takers
  obtain ⟨⟨j, hj, hnode'⟩, hfolder'⟩ := hsame₂.fresh hwf₁ ⟨⟨i, hi, hnode⟩, hfolder⟩
  have hread : ((t.others file c.takers).others file c'.takers).act place (.read file) =
      .ok (bytes, (t.others file c.takers).others file c'.takers) := by
    simp [Shelf.act, hj, hnode', hfolder', Node.read, mayRead_place]
  obtain ⟨hanswer', -⟩ := answer_of_calm (t.others file c.takers) hc' hread
  simp only [observe, Prog.perform_bind, Prog.run, hanswer, hnext]
  exact run_readThrough hanswer'

theorem Went.refused (h : Went place schema file role passes decide s u t) {stop : Stop}
    (hresult : u.result = .error stop) :
    t.names file = s.names file ∧ (t.left = s.left → Same place file s t) := by
  cases h with
  | unseen hsame => exact ⟨hsame.own, fun _ ↦ hsame⟩
  | applied _ _ _ _ => cases hresult
  | failed _ hfails =>
    refine ⟨hfails.1.own, fun hleft ↦ ?_⟩
    rcases hfails.1.cases with hsame | ⟨t₁, t₂, i, b, hbefore, -, -, -, hafter, rfl⟩
    · exact hsame
    · have hlog : b :: t₂.left = s.left := hleft
      have hlength := congrArg List.length hlog
      rw [hafter.left] at hlength
      simp [Shelf.link, Shelf.recount, hbefore.left] at hlength

theorem Went.stored (h : Went place schema file role passes decide s u t) {r : ρ}
    (hresult : u.result = .ok (r, .stored, backup)) :
    ∃ loaded value bytes, u.seen = some loaded ∧ (decide loaded).1 = .store value ∧
      schema.encode value = some bytes ∧ Fresh place file bytes t := by
  cases h with
  | unseen _ => cases hresult
  | failed _ _ => cases hresult
  | @applied loaded bytes t₁ _ _ _ _ hencoded _ happlied =>
    cases hresult
    cases happlied with
    | kept hleaves _ => exact hleaves.elim
    | @stored value backUp _ hstep hwrote =>
      have hchange := change_of_step_write hstep
      rw [hchange] at hencoded
      simp only [Schema.encodeChange] at hencoded
      split at hencoded
      · next written hvalue =>
        cases hencoded
        exact ⟨loaded, value, written, rfl, hchange, hvalue, hwrote.fresh⟩
      · cases hencoded

theorem Went.moved (h : Went place schema file role passes decide s u t) {r : ρ}
    (hresult : u.result = .ok (r, .movedAside, backup)) :
    ∃ p i, backup = some p ∧ IsBackup file p ∧ s.names p = none ∧ s.names file = some i ∧
      t.names p = some i ∧ t.names file = none := by
  cases h with
  | unseen _ => cases hresult
  | failed _ _ => cases hresult
  | applied _ _ hbefore happlied =>
    cases hresult
    cases happlied with
    | kept hleaves _ => exact hleaves.elim
    | @moved b _ _ hfound =>
      obtain ⟨t₁, i, hsame, hi, hb, hbackup, rfl⟩ := hfound
      have hsame' := hbefore.trans hsame
      have hfree : s.names b = none := by
        rcases hsame'.names b with hname | ⟨hnone, -⟩
        · exact hname ▸ hb
        · exact hnone
      exact ⟨b, i, rfl, hbackup, hfree, hsame'.own ▸ hi, by simp [Shelf.move],
        by simp [Shelf.move, hbackup.ne.symm]⟩

end Extends

/-! ### Runs -/

/-- Files in which one byte says that they are of version 1. -/
def sampleSchema : Schema Unit where
  version := 1
  unversionedAs := none
  json :=
    { versionToken := fun bytes ↦ if bytes = [1] then some (some ['1']) else none
      fromSlice := fun bytes ↦ if bytes = [1] then some () else none
      toVecPretty := fun _ _ ↦ some [1] }
  prev := obsolete

/-- A folder of the system's. -/
def samplePlace : Place := ⟨.privileged, .privileged, vouched_privileged⟩

/-- A corrupt file, and a backup that was there before. -/
def sampleShelf : Shelf where
  made := true
  owner := .privileged
  names n := if n = ['s'] then some 0 else if n = backupName ['s'] 1 then some 1 else none
  node i := ⟨.file, [9, i.toUInt8], .privileged, 1, false⟩
  next := 2
  taken := []
  left := []

/-- Nothing happens but the call. -/
def calm : Choice := ⟨[], none⟩

theorem sampleShelf_wf : Wf sampleShelf where
  bound {n i} hi := by
    simp only [sampleShelf] at hi ⊢
    split at hi
    · cases hi
      decide
    · split at hi
      · cases hi
        decide
      · cases hi
  bare hmade := by cases hmade

/-- The caller stores the value. -/
def sampleDecide (_ : Loaded Unit) : Change Unit × Unit := (.store (), ())

theorem sample_run : ((update sampleSchema ['s'] .decision 2 sampleDecide).run
    (surroundings samplePlace ['s']) sampleShelf (List.replicate 10 calm)).1 =
      some ⟨some .corrupt, .ok ((), .stored, none)⟩ := rfl

section Runs

variable (place : Place) (schema : Schema σ) (file : FileName) (role : Role) (passes : Nat)
  (decide : Loaded σ → Change σ × ρ) (s : Shelf) (cs : List Choice)

/-- The folder where a run of an update stops. -/
def final : Shelf :=
  ((update schema file role passes decide).run (surroundings place file) s cs).2.1

variable {place schema file role passes decide s cs} {u : Updated σ ρ}

theorem went_of_run (hwf : Wf s)
    (hrun : ((update schema file role passes decide).run (surroundings place file) s cs).1 =
      some u) :
    Wf (final place schema file role passes decide s cs) ∧
      Went place schema file role passes decide s u
        (final place schema file role passes decide s cs) := by
  have hsafe : (update schema file role passes decide).Safe (surroundings place file) Wf
      (Went place schema file role passes decide s) s :=
    safe_update hwf role passes decide
  obtain ⟨hwf', hwent⟩ := hsafe.sound cs
  exact ⟨hwf', hwent u hrun⟩

/-- **A state file is not destroyed unread.** Whatever was at the name, whatever the caller chose
and however the calls went, a file that did not read as current or obsolete is still there, under
its own name or a backup's, but for a store over a corrupt file of the user's and the removal of a
claim. There it is gone once the update has gone through. -/
theorem unread_preserved (hwf : Wf s)
    (hrun : ((update schema file role passes decide).run (surroundings place file) s cs).1 = some u)
    {i : Nat} (hi : s.names file = some i) :
    ((∀ loaded, u.seen = some loaded →
        ¬Understood loaded ∧ ¬Excepted role loaded (decide loaded).1) →
      Preserved file s (final place schema file role passes decide s cs) i) ∧
    ∀ loaded r outcome backup, u.seen = some loaded → Excepted role loaded (decide loaded).1 →
      (∀ n, s.names n = some i → n = file) → u.result = .ok (r, outcome, backup) →
      outcome = .stored ∨ outcome = .removed →
      ∀ n, (final place schema file role passes decide s cs).names n ≠ some i := by
  obtain ⟨-, hwent⟩ := went_of_run hwf hrun
  refine ⟨fun hseen ↦ hwent.preserved hwf hi hseen, ?_⟩
  intro loaded r outcome backup hseen hexcepted honly hresult houtcome
  exact hwent.gone hwf hi honly hseen hexcepted hresult houtcome

theorem unread_preserved_store : Preserved ['s'] sampleShelf
      (final samplePlace sampleSchema ['s'] .decision 2 sampleDecide sampleShelf
        (List.replicate 10 calm)) 0 := by
  refine (unread_preserved sampleShelf_wf sample_run rfl).1 fun loaded hseen ↦ ?_
  cases hseen
  refine ⟨id, ?_⟩
  rintro (⟨hrole, -⟩ | ⟨hrole, -⟩) <;> cases hrole

/-- **An update is all or nothing.** An error leaves the file at its name, and the folder as it was
unless a backup could not be taken back; a store leaves an encoding of the value, which reads as
the current version; a file moved aside is at the backup's name, which was free. No other name and
no file is touched. -/
theorem all_or_nothing (hwf : Wf s)
    (hrun : ((update schema file role passes decide).run (surroundings place file) s cs).1 =
      some u) :
    Extends file s (final place schema file role passes decide s cs) ∧
    (∀ stop, u.result = .error stop →
      (final place schema file role passes decide s cs).names file = s.names file ∧
      ((final place schema file role passes decide s cs).left = s.left →
        Same place file s (final place schema file role passes decide s cs))) ∧
    (∀ r backup, u.result = .ok (r, .stored, backup) →
      ∃ loaded value bytes i value', u.seen = some loaded ∧ (decide loaded).1 = .store value ∧
        schema.encode value = some bytes ∧
        (final place schema file role passes decide s cs).names file = some i ∧
        ((final place schema file role passes decide s cs).node i).bytes = bytes ∧
        ∀ c c' : Choice, c.fault = none → c'.fault = none →
          ((observe schema file).run (surroundings place file)
            (final place schema file role passes decide s cs) [c, c']).1 =
              some (.current value' schema.version)) ∧
    ∀ r backup, u.result = .ok (r, .movedAside, backup) →
      ∃ p i, backup = some p ∧ IsBackup file p ∧ s.names p = none ∧ s.names file = some i ∧
        (final place schema file role passes decide s cs).names p = some i ∧
        (final place schema file role passes decide s cs).names file = none := by
  obtain ⟨hwf', hwent⟩ := went_of_run hwf hrun
  refine ⟨hwent.extends, fun stop hstop ↦ ?_, fun r backup hstored ↦ ?_, fun r backup hmoved ↦ ?_⟩
  · exact hwent.refused hstop
  · obtain ⟨loaded, value, bytes, hseen, hchange, hencode, hfresh⟩ := hwent.stored hstored
    obtain ⟨i, hi, hnode⟩ := hfresh.own
    obtain ⟨value', -, hclassify⟩ := Schema.classify_of_encode hencode
    refine ⟨loaded, value, bytes, i, value', hseen, hchange, hencode, hi, by rw [hnode], ?_⟩
    intro c c' hc hc'
    rw [hfresh.observed hwf' hc hc', hclassify]
    rfl
  · exact hwent.moved hmoved

theorem all_or_nothing_store :
    ∃ i value', (final samplePlace sampleSchema ['s'] .decision 2 sampleDecide sampleShelf
        (List.replicate 10 calm)).names ['s'] = some i ∧
      ((observe sampleSchema ['s']).run (surroundings samplePlace ['s'])
        (final samplePlace sampleSchema ['s'] .decision 2 sampleDecide sampleShelf
          (List.replicate 10 calm)) [calm, calm]).1 = some (.current value' 1) := by
  obtain ⟨-, -, -, i, value', -, -, -, hi, -, hobserve⟩ :=
    (all_or_nothing sampleShelf_wf sample_run).2.2.1 () none rfl
  exact ⟨i, value', hi, hobserve calm calm rfl rfl⟩

end Runs

end Hole.State.Backups
