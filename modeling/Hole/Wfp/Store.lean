import Hole.Wfp.System

/-!
# The filter store across runs

Keys are compile-time constants while the content under them changes with the server, the adapter
and the binaries, and a duplicate add reports success. What keeps the store right is that the
three lists agree: every key whose content may change is deleted in the same transaction that adds
it (`CoverSpec.WellKeyed`), and every key that is ever added is one that a sweep knows.

The invariant is `Kept`: what is stored under a key is what a builder puts there, and **the floor
of the standing cover stays** from a commit of `engageLockdown` to the first delete of a guard
drop, a disengage or a release. A transaction is followed by its working copy (`Staged`), so that
an engage that fails before its commit leaves the store as it was.
-/

namespace Hole.Wfp

open Effect FailClosed

variable {appId : String → Blob} {act : WfpAct} {w w' w'' : World} {α β : Type}

/-- A store that holds what the builders put there. -/
def Store.Ours (appId : String → Blob) (s : Store) : Prop :=
  ∀ k f, s k = some f → ∃ g : FilterSpec, g.Ours ∧ g.guid = k ∧ f = g.encode appId

/-- A store that holds the floor of the standing cover. -/
def Store.HasFloor (appId : String → Blob) (s : Store) : Prop :=
  ∀ f ∈ lockdownFloor, s f.guid = some (f.encode appId)

/-- What holds in every state. -/
structure Kept (appId : String → Blob) (w : World) : Prop where
  store : w.store.Ours appId
  txn : ∀ t, w.txn = some t → t.Ours appId
  /-- The floor of the standing cover stays. -/
  floor : w.standing = true → w.store.HasFloor appId

/-- What holds between acts. -/
structure Closed (appId : String → Blob) (w : World) : Prop extends Kept appId w where
  closed : w.txn = none

variable {s : Store}

theorem Store.Ours.set_none (h : s.Ours appId) (g : Guid) : (s.set g none).Ours appId := by
  intro k f hk
  by_cases hkg : k = g
  · rw [hkg, Store.set_self] at hk
    cases hk
  · rw [Store.set_of_ne s none hkg] at hk
    exact h k f hk

variable {f : FilterSpec}

theorem Store.Ours.set_some (h : s.Ours appId) (hf : f.Ours) :
    (s.set f.guid (some (f.encode appId))).Ours appId := by
  intro k f' hk
  by_cases hkg : k = f.guid
  · rw [hkg, Store.set_self] at hk
    exact ⟨f, hf, hkg.symm, (Option.some.inj hk).symm⟩
  · rw [Store.set_of_ne s _ hkg] at hk
    exact h k f' hk

/-- **The floor is fixed by its keys**, in a store of our filters. -/
theorem Store.Ours.eq_floor (h : s.Ours appId) (hf : f ∈ transientFloor ++ lockdownFloor)
    (hsome : (s f.guid).isSome = true) : s f.guid = some (f.encode appId) := by
  obtain ⟨f', hf'⟩ := Option.isSome_iff_exists.1 hsome
  obtain ⟨g, hg, hguid, rfl⟩ := h _ _ hf'
  rw [hf', hg.eq_floor hf hguid]

theorem Store.HasFloor.set_none (h : s.HasFloor appId) {g : Guid}
    (hg : g ∉ lockdownFloor.map (·.guid)) : (s.set g none).HasFloor appId := by
  intro f hf
  have hne : f.guid ≠ g := fun he ↦ hg (he ▸ List.mem_map_of_mem hf)
  rw [Store.set_of_ne s none hne]
  exact h f hf

/-! ### Outside a transaction -/

/-- The calls of the acts that open no transaction. A delete takes no filter of the floor, unless
the act releases the standing cover. -/
def WfpOp.isDirect (act : WfpAct) : WfpOp → Prop
  | .transactionBegin => False
  | .transactionCommit => False
  | .filterAdd _ => False
  | .filterDeleteByKey g => act.releases = true ∨ g ∉ lockdownFloor.map (·.guid)
  | _ => True

theorem isDirect_of_isIdle {o : WfpOp} (h : o.isIdle) : o.isDirect act := by
  cases o <;> trivial

/-- **One delete** outside a transaction. -/
theorem Closed.delete (h : Closed appId w) {g : Guid}
    (hg : act.releases = true ∨ g ∉ lockdownFloor.map (·.guid)) (code : Code) :
    Closed appId (w.afterDelete act g code) := by
  obtain ⟨store, txn, record, outstanding, unrecorded, lost, standing, stale, commits⟩ := w
  obtain rfl : txn = none := h.closed
  have hfloor : (standing && !act.releases) = true → store.HasFloor appId ∧
      g ∉ lockdownFloor.map (·.guid) := by
    intro hs
    obtain ⟨hs, hr⟩ := Bool.and_eq_true_iff.1 hs
    refine ⟨h.floor hs, hg.resolve_left fun hr' ↦ ?_⟩
    rw [hr'] at hr
    cases hr
  by_cases hok : code = errorSuccess
  · simp only [World.afterDelete, hok, if_true]
    exact ⟨⟨h.store.set_none g, nofun, fun hs ↦ (hfloor hs).1.set_none (hfloor hs).2⟩, rfl⟩
  · simp only [World.afterDelete, hok, if_false]
    split
    · exact ⟨⟨h.store, nofun, fun hs ↦ (hfloor hs).1⟩, rfl⟩
    · exact ⟨⟨h.store, nofun, fun hs ↦ (hfloor hs).1⟩, rfl⟩

theorem Closed.direct (h : Closed appId w) {o : WfpOp} (ho : o.isDirect act) (c : WfpChoice) :
    Closed appId (wfpNext act w o c) := by
  cases o with
  | transactionBegin => exact absurd ho not_false
  | transactionCommit => exact absurd ho not_false
  | filterAdd f => exact absurd ho not_false
  | filterDeleteByKey g => exact h.delete ho _
  | transactionAbort => exact ⟨⟨h.store, nofun, h.floor⟩, rfl⟩
  | saveWitness armed =>
    cases c <;> exact ⟨⟨h.store, h.txn, h.floor⟩, h.closed⟩
  | _ => exact h

/-- A program that opens no transaction. -/
theorem safe_direct {p : WfpM α} (hp : p.Only (WfpOp.isDirect act)) (h : Closed appId w) :
    p.Safe (wfpHost appId act) (Closed appId) (fun _ _ ↦ True) w :=
  hp.safe h (R := fun _ _ ↦ True) (fun _ ↦ trivial) (fun _ _ ↦ trivial)
    fun _ _ c ho hs ↦ ⟨hs.direct ho c, trivial⟩

/-! ### Codes are truthful -/

theorem deleteCode_cases (w : World) (g : Guid) (c : WfpChoice) :
    deleteCode w g c = errorSuccess ∨
      (deleteCode w g c = fwpEFilterNotFound ∧ w.view g = none) ∨
      classifyDeleteCode (deleteCode w g c) = .failed := by
  unfold deleteCode
  rcases hc : c.failure fwpEFilterNotFound with - | n
  · rcases hg : w.view g with - | f
    · exact .inr (.inl ⟨rfl, rfl⟩)
    · exact .inl rfl
  · refine .inr (.inr ?_)
    have hn : ¬(n = errorSuccess ∨ n = fwpEFilterNotFound) := by
      intro hn
      cases c with
      | code n' =>
        simp only [WfpChoice.failure] at hc
        split at hc
        · cases hc
        · next hne => exact hne (Option.some.inj hc ▸ hn)
      | _ => cases hc
    simp [classifyDeleteCode, not_or.1 hn]

theorem addCode_cases (w : World) (f : FwpmFilter) (c : WfpChoice) :
    (addCode w f c = errorSuccess ∧ w.view f.filterKey = none) ∨
      (addCode w f c = fwpEAlreadyExists ∧ (w.view f.filterKey).isSome = true) ∨
      (addCode w f c ≠ errorSuccess ∧ addCode w f c ≠ fwpEAlreadyExists) := by
  unfold addCode
  rcases hc : c.failure fwpEAlreadyExists with - | n
  · rcases hg : w.view f.filterKey with - | f'
    · exact .inl ⟨rfl, rfl⟩
    · exact .inr (.inl ⟨rfl, rfl⟩)
  · refine .inr (.inr ?_)
    cases c with
    | code n' =>
      simp only [WfpChoice.failure] at hc
      split at hc
      · cases hc
      · next hne => exact Option.some.inj hc ▸ not_or.1 hne
    | _ => cases hc

/-! ### Inside a transaction -/

/-- What holds in every state of an engage that began in `w₀`. -/
structure Engaging (appId : String → Blob) (w₀ w : World) : Prop extends Kept appId w where
  /-- Without a commit the store is as it was. -/
  atomic : w.commits = w₀.commits → w.store = w₀.store

/-- Nothing is committed yet. -/
structure Unchanged (w₀ w : World) : Prop where
  store : w.store = w₀.store
  standing : w.standing = w₀.standing
  commits : w.commits = w₀.commits

/-- The transaction of an engage is open, with `t` as its working copy. -/
structure Open (w₀ w : World) (t : Store) : Prop extends Unchanged w₀ w where
  txn : w.txn = some t

variable {w₀ : World} {t : Store}

theorem Open.engaging (ho : Open w₀ w t) (h : Closed appId w₀) (ht : t.Ours appId) :
    Engaging appId w₀ w where
  store := ho.store ▸ h.store
  txn t' ht' := by
    obtain rfl : t = t' := Option.mem_unique ho.txn ht'
    exact ht
  floor hs := ho.store ▸ h.floor (ho.standing ▸ hs)
  atomic _ := ho.store

theorem Open.ours (ho : Open w₀ w t) (h : Engaging appId w₀ w) : t.Ours appId := h.txn t ho.txn

theorem Open.view_eq (ho : Open w₀ w t) : w.view = t := by
  simp [World.view, ho.txn]

/-- What deletes leave of a working copy. -/
structure Deleted (gs : List Guid) (t t' : Store) (stale stale' : List Guid)
    (codes : List Code) : Prop where
  /-- Other keys are left alone. -/
  outside : ∀ k, k ∉ gs → t' k = t k
  sub : ∀ k, t' k = none ∨ t' k = t k
  /-- A key is empty, unless its delete failed. -/
  gone : ∀ k ∈ gs, k ∉ stale' → t' k = none
  /-- Failures are remembered. -/
  stale_mono : ∀ k ∈ stale, k ∈ stale'
  /-- And nothing else is. -/
  stale_eq : (∀ code ∈ codes, classifyDeleteCode code ≠ .failed) → stale' = stale
  /-- Every delete is issued. -/
  length_eq : codes.length = gs.length

/-- **One delete** inside a transaction. -/
theorem Open.delete (ho : Open w₀ w t) (hrel : act.releases = false) (g : Guid) (c : WfpChoice) :
    ∃ t', Open w₀ (wfpNext act w (.filterDeleteByKey g) c) t' ∧
      Deleted [g] t t' w.stale (wfpNext act w (.filterDeleteByKey g) c).stale
        [deleteCode w g c] := by
  show ∃ t', Open w₀ (w.afterDelete act g (deleteCode w g c)) t' ∧
    Deleted [g] t t' w.stale (w.afterDelete act g (deleteCode w g c)).stale [deleteCode w g c]
  have hview := ho.view_eq
  rcases deleteCode_cases w g c with hcode | ⟨hcode, hnone⟩ | hfailed
  · refine ⟨t.set g none, ?_, ?_⟩
    · obtain ⟨⟨hstore, hstanding, hcommits⟩, htxn⟩ := ho
      simp only [World.afterDelete, hcode, if_true, hrel, Bool.not_false, Bool.and_true,
        World.setView, htxn]
      exact ⟨⟨hstore, hstanding, hcommits⟩, rfl⟩
    · have hstale : (w.afterDelete act g (deleteCode w g c)).stale = w.stale := by
        simp only [World.afterDelete, hcode, if_true, World.setView, ho.txn]
      rw [hstale]
      refine ⟨fun k hk ↦ ?_, fun k ↦ ?_, fun k hk _ ↦ ?_, fun _ h ↦ h, fun _ ↦ rfl, rfl⟩
      · exact Store.set_of_ne t none fun he ↦ hk (List.mem_singleton.2 he)
      · by_cases hkg : k = g
        · exact .inl (hkg ▸ Store.set_self t g none)
        · exact .inr (Store.set_of_ne t none hkg)
      · exact List.mem_singleton.1 hk ▸ Store.set_self t g none
  · have hne : fwpEFilterNotFound ≠ errorSuccess := by decide
    refine ⟨t, ?_, ?_⟩
    · obtain ⟨⟨hstore, hstanding, hcommits⟩, htxn⟩ := ho
      simp only [World.afterDelete, hcode, hne, if_false, if_true, hrel, Bool.not_false,
        Bool.and_true]
      exact ⟨⟨hstore, hstanding, hcommits⟩, htxn⟩
    · have hstale : (w.afterDelete act g (deleteCode w g c)).stale = w.stale := by
        simp only [World.afterDelete, hcode, hne, if_false, if_true]
      rw [hstale]
      refine ⟨fun _ _ ↦ rfl, fun _ ↦ .inr rfl, fun k hk _ ↦ ?_, fun _ h ↦ h, fun _ ↦ rfl, rfl⟩
      rw [hview] at hnone
      exact List.mem_singleton.1 hk ▸ hnone
  · have hne : deleteCode w g c ≠ errorSuccess := by
      intro he
      rw [he] at hfailed
      cases hfailed
    have hne' : deleteCode w g c ≠ fwpEFilterNotFound := by
      intro he
      rw [he] at hfailed
      cases hfailed
    refine ⟨t, ?_, ?_⟩
    · obtain ⟨⟨hstore, hstanding, hcommits⟩, htxn⟩ := ho
      simp only [World.afterDelete, hne, hne', if_false, hrel, Bool.not_false, Bool.and_true]
      exact ⟨⟨hstore, hstanding, hcommits⟩, htxn⟩
    · have hstale : (w.afterDelete act g (deleteCode w g c)).stale = g :: w.stale := by
        simp only [World.afterDelete, hne, hne', if_false]
      rw [hstale]
      refine ⟨fun _ _ ↦ rfl, fun _ ↦ .inr rfl, fun k hk hns ↦ ?_,
        fun _ h ↦ .tail _ h, fun hall ↦ ?_, rfl⟩
      · exact absurd (List.mem_singleton.1 hk ▸ (.head _)) hns
      · exact absurd hfailed (hall _ (List.mem_singleton.2 rfl))

variable {gs : List Guid} {codes : List Code}

theorem Deleted.cons {g : Guid} {t₁ t₂ : Store} {stale₀ stale₁ stale₂ : List Guid} {code : Code}
    (h : Deleted [g] t t₁ stale₀ stale₁ [code]) (h' : Deleted gs t₁ t₂ stale₁ stale₂ codes) :
    Deleted (g :: gs) t t₂ stale₀ stale₂ (code :: codes) where
  outside k hk := by
    obtain ⟨hkg, hk⟩ := not_or.1 (List.mem_cons.not.1 hk)
    rw [h'.outside k hk, h.outside k fun hm ↦ hkg (List.mem_singleton.1 hm)]
  sub k := by
    rcases h'.sub k with hk | hk
    · exact .inl hk
    · rw [hk]
      exact h.sub k
  gone k hk hns := by
    rcases List.mem_cons.1 hk with rfl | hk
    · have hnone := h.gone k (List.mem_singleton.2 rfl) fun hm ↦ hns (h'.stale_mono k hm)
      rcases h'.sub k with hk' | hk'
      · exact hk'
      · exact hk'.trans hnone
    · exact h'.gone k hk hns
  stale_mono k hk := h'.stale_mono k (h.stale_mono k hk)
  stale_eq hall := by
    rw [h'.stale_eq fun c hc ↦ hall c (.tail _ hc)]
    exact h.stale_eq fun c hc ↦ hall c (List.mem_singleton.1 hc ▸ (.head _))
  length_eq := congrArg (· + 1) h'.length_eq

theorem Deleted.ours {t' : Store} {stale stale' : List Guid}
    (h : Deleted gs t t' stale stale' codes) (ht : t.Ours appId) : t'.Ours appId := by
  intro k f hk
  rcases h.sub k with hnone | heq
  · rw [hnone] at hk
    cases hk
  · exact ht k f (heq ▸ hk)

theorem safe_deleteKeys (hw₀ : Closed appId w₀) (hrel : act.releases = false) (ho : Open w₀ w t)
    (ht : t.Ours appId) :
    (deleteKeys gs).Safe (wfpHost appId act) (Engaging appId w₀)
      (fun codes w' ↦ ∃ t', Open w₀ w' t' ∧ Deleted gs t t' w.stale w'.stale codes) w := by
  induction gs generalizing w t with
  | nil =>
    refine ⟨ho.engaging hw₀ ht, t, ho, ?_⟩
    exact ⟨fun _ _ ↦ rfl, fun _ ↦ .inr rfl, nofun, fun _ h ↦ h, fun _ ↦ rfl, rfl⟩
  | cons g gs ih =>
    refine ⟨ho.engaging hw₀ ht, fun c ↦ ?_⟩
    obtain ⟨t₁, ho₁, hd₁⟩ := ho.delete hrel g c
    refine (ih ho₁ (hd₁.ours ht)).bind fun codes w₂ hI₂ ⟨t₂, ho₂, hd₂⟩ ↦ ?_
    exact ⟨hI₂, t₂, ho₂, hd₁.cons hd₂⟩

/-- A verdict without a failure read no failure code. -/
theorem not_failed_of_firstDeleteFailure (labels : List String)
    (hlen : codes.length = labels.length) (h : firstDeleteFailure (labels.zip codes) = none) :
    ∀ code ∈ codes, classifyDeleteCode code ≠ .failed := by
  intro code hcode hfailed
  have hmem : code ∈ (labels.zip codes).map Prod.snd := by
    rwa [List.map_snd_zip (Nat.le_of_eq hlen)]
  obtain ⟨⟨label, code'⟩, hp, rfl⟩ := List.mem_map.1 hmem
  have hnone := List.findSome?_eq_none_iff.1 h _ hp
  simp [hfailed] at hnone

variable {policy : StaleKeyPolicy}

/-- The refresh at the head of an engage: under the strict policy no key is left stale. -/
theorem safe_issuePreDeletes (hw₀ : Closed appId w₀) (hrel : act.releases = false)
    (ho : Open w₀ w t) (ht : t.Ours appId) (hstale : w.stale = []) :
    (issuePreDeletes gs policy).Safe (wfpHost appId act) (Engaging appId w₀)
      (fun r w' ↦ ∃ t', Open w₀ w' t' ∧ t'.Ours appId ∧ (∀ k, k ∉ gs → t' k = t k) ∧
        (w'.stale = [] → ∀ k ∈ gs, t' k = none) ∧
        (r.isOk = true → policy = .fail → w'.stale = [])) w := by
  refine (safe_deleteKeys hw₀ hrel ho ht).bind fun codes w₁ hI₁ ⟨t₁, ho₁, hd⟩ ↦ ?_
  refine ⟨hI₁, t₁, ho₁, hd.ours ht, hd.outside, fun hs k hk ↦ hd.gone k hk (by simp [hs]), ?_⟩
  intro hok hpolicy
  rw [← hstale]
  refine hd.stale_eq (not_failed_of_firstDeleteFailure (gs.map preDeleteLabel) ?_ ?_)
  · rw [hd.length_eq, List.length_map]
  · rcases hfirst : firstDeleteFailure ((gs.map preDeleteLabel).zip codes) with - | e
    · rfl
    · rw [preDeleteVerdict, hfirst, hpolicy] at hok
      cases hok

theorem Open.setView (ho : Open w₀ w t) (t' : Store) : Open w₀ (w.setView t') t' := by
  obtain ⟨⟨hstore, hstanding, hcommits⟩, htxn⟩ := ho
  simp only [World.setView, htxn]
  exact ⟨⟨hstore, hstanding, hcommits⟩, rfl⟩

theorem stale_setView (w : World) (s : Store) : (w.setView s).stale = w.stale := by
  rcases w with ⟨store, - | t, record, outstanding, unrecorded, lost, standing, stale, commits⟩
  · rfl
  · rfl

/-- What adds leave of a working copy. -/
structure Added (appId : String → Blob) (fs : List FilterSpec) (t t' : Store) : Prop where
  outside : ∀ k, k ∉ fs.map (·.guid) → t' k = t k
  /-- A filter goes in where its key was empty, or where the key fixes it. -/
  exact : ∀ f ∈ fs, t f.guid = none ∨ f ∈ transientFloor ++ lockdownFloor →
    t' f.guid = some (f.encode appId)

/-- **One add** inside a transaction. -/
theorem Open.add (ho : Open w₀ w t) (act : WfpAct) (policy : StaleKeyPolicy) (ht : t.Ours appId)
    (hf : f.Ours) (c : WfpChoice) :
    ∃ t', Open w₀ (wfpNext act w (.filterAdd (f.encode appId)) c) t' ∧ t'.Ours appId ∧
      (wfpNext act w (.filterAdd (f.encode appId)) c).stale = w.stale ∧
      ((addVerdict f policy (addCode w (f.encode appId) c)).isOk = true →
        Added appId [f] t t') := by
  have hview : w.view (f.encode appId).filterKey = t f.guid := by rw [ho.view_eq]; rfl
  rcases addCode_cases w (f.encode appId) c with ⟨hcode, -⟩ | ⟨hcode, hsome⟩ | ⟨hne, hne'⟩
  · refine ⟨t.set f.guid (some (f.encode appId)), ?_⟩
    have hnext : wfpNext act w (.filterAdd (f.encode appId)) c =
        w.setView (t.set f.guid (some (f.encode appId))) := by
      rw [← ho.view_eq]
      exact if_pos hcode
    rw [hnext]
    refine ⟨ho.setView _, ht.set_some hf, stale_setView w _, fun _ ↦ ⟨fun k hk ↦ ?_, ?_⟩⟩
    · exact Store.set_of_ne t _ fun he ↦ hk (List.mem_singleton.2 he)
    · intro f' hf' _
      obtain rfl := List.mem_singleton.1 hf'
      exact Store.set_self t _ _
  · have hnext : wfpNext act w (.filterAdd (f.encode appId)) c = w := if_neg (by rw [hcode]; decide)
    rw [hnext]
    refine ⟨t, ho, ht, rfl, fun _ ↦ ⟨fun _ _ ↦ rfl, fun f' hf' h ↦ ?_⟩⟩
    obtain rfl := List.mem_singleton.1 hf'
    rw [hview] at hsome
    rcases h with hnone | hfloor
    · rw [hnone] at hsome
      cases hsome
    · exact ht.eq_floor hfloor hsome
  · have hnext : wfpNext act w (.filterAdd (f.encode appId)) c = w := if_neg hne
    rw [hnext]
    refine ⟨t, ho, ht, rfl, fun hok ↦ ?_⟩
    simp [addVerdict, okOrExists, wfpCheck, hne, hne', Except.isOk, Except.toBool] at hok

/-- The conditions that `add_filter` writes are the encoded ones. -/
theorem safe_filterConditions {condition : Condition} (hI : Engaging appId w₀ w) :
    (filterConditions condition).Safe (wfpHost appId act) (Engaging appId w₀)
      (fun r w' ↦ w' = w ∧ ∀ cs, r = .ok cs → cs = condition.encode appId) w := by
  cases condition with
  | appId path =>
    have hget : (Prog.perform (WfpOp.getAppId path)).Safe (wfpHost appId act) (Engaging appId w₀)
        (fun a w' ↦ w' = w ∧ ∀ blob, (a : Except Code Blob) = .ok blob → blob = appId path) w := by
      refine ⟨hI, fun c ↦ ⟨hI, rfl, ?_⟩⟩
      show ∀ blob, (if c.toCode = errorSuccess then Except.ok (appId path)
        else Except.error c.toCode : Except Code Blob) = .ok blob → blob = appId path
      intro blob h
      split at h
      · exact (Except.ok.inj h).symm
      · cases h
    refine hget.bind ?_
    rintro (code | blob) w₁ hI₁ ⟨rfl, hblob⟩
    · exact ⟨hI₁, rfl, nofun⟩
    · refine ⟨hI₁, rfl, fun cs hcs ↦ ?_⟩
      rw [← Except.ok.inj hcs, hblob blob rfl]
      rfl
  | loopbackNet family => cases family <;> exact ⟨hI, rfl, fun cs hcs ↦ (Except.ok.inj hcs).symm⟩
  | _ => exact ⟨hI, rfl, fun cs hcs ↦ (Except.ok.inj hcs).symm⟩

theorem safe_addFilter (hw₀ : Closed appId w₀) (ho : Open w₀ w t) (ht : t.Ours appId)
    (hf : f.Ours) :
    (addFilter policy f).Safe (wfpHost appId act) (Engaging appId w₀)
      (fun r w' ↦ ∃ t', Open w₀ w' t' ∧ t'.Ours appId ∧ w'.stale = w.stale ∧
        (r.isOk = true → Added appId [f] t t')) w := by
  have hI := ho.engaging hw₀ ht
  refine safe_andThen (safe_filterConditions hI) ?_ ?_
  · rintro e w₁ - ⟨rfl, -⟩
    exact ⟨t, ho, ht, rfl, nofun⟩
  · rintro conditions w₁ - ⟨rfl, hconditions⟩
    obtain rfl := hconditions _ rfl
    refine ⟨hI, fun c ↦ ?_⟩
    obtain ⟨t', ho', ht', hstale, hadded⟩ := ho.add act policy ht hf c
    exact ⟨ho'.engaging hw₀ ht', t', ho', ht', hstale, hadded⟩

/-- The filters of a spec, in order. Their keys are distinct, so an add finds its key as the
deletes left it. -/
theorem safe_addFilters {fs : List FilterSpec} (hw₀ : Closed appId w₀) (ho : Open w₀ w t)
    (ht : t.Ours appId) (hfs : ∀ f ∈ fs, f.Ours) (hnodup : (fs.map (·.guid)).Nodup) :
    (addFilters policy fs).Safe (wfpHost appId act) (Engaging appId w₀)
      (fun r w' ↦ ∃ t', Open w₀ w' t' ∧ t'.Ours appId ∧ w'.stale = w.stale ∧
        (r.isOk = true → Added appId fs t t')) w := by
  induction fs generalizing w t with
  | nil => exact ⟨ho.engaging hw₀ ht, t, ho, ht, rfl, fun _ ↦ ⟨fun _ _ ↦ rfl, nofun⟩⟩
  | cons f fs ih =>
    obtain ⟨hf, hnodup⟩ := List.nodup_cons.1 hnodup
    refine safe_andThen (safe_addFilter hw₀ ho ht (hfs f (.head _))) ?_ ?_
    · rintro e w₁ - ⟨t₁, ho₁, ht₁, hstale₁, -⟩
      exact ⟨t₁, ho₁, ht₁, hstale₁, nofun⟩
    rintro ⟨⟩ w₁ - ⟨t₁, ho₁, ht₁, hstale₁, hadded⟩
    have h₁ := hadded rfl
    refine (ih ho₁ ht₁ (fun g hg ↦ hfs g (.tail _ hg)) hnodup).mono ?_
    rintro r w₂ - ⟨t₂, ho₂, ht₂, hstale₂, hadded₂⟩
    refine ⟨t₂, ho₂, ht₂, hstale₂.trans hstale₁, fun hok ↦ ?_⟩
    have h₂ := hadded₂ hok
    constructor
    · intro k hk
      obtain ⟨hkf, hk⟩ := not_or.1 (List.mem_cons.not.1 hk)
      rw [h₂.outside k hk, h₁.outside k fun hm ↦ hkf (by simpa using hm)]
    · intro g hg hempty
      rcases List.mem_cons.1 hg with rfl | hg
      · rw [h₂.outside g.guid hf]
        exact h₁.exact g (List.mem_singleton.2 rfl) hempty
      · have hne : g.guid ∉ [f].map (·.guid) := by
          intro hm
          have hguid : g.guid = f.guid := List.mem_singleton.1 hm
          exact hf (List.mem_map.2 ⟨g, hg, hguid⟩)
        refine h₂.exact g hg (hempty.imp_left fun hnone ↦ ?_)
        rw [h₁.outside g.guid hne, hnone]

/-- What a spec puts under each key. -/
def CoverSpec.installed (appId : String → Blob) (spec : CoverSpec) : Store := fun k ↦
  (spec.filters.find? (·.guid = k)).map (·.encode appId)

variable {spec : CoverSpec}

theorem installed_of_mem (hnodup : (spec.filters.map (·.guid)).Nodup) (hf : f ∈ spec.filters) :
    spec.installed appId f.guid = some (f.encode appId) := by
  have hfind : spec.filters.find? (·.guid = f.guid) = some f := by
    obtain ⟨g, hg⟩ : ∃ g, spec.filters.find? (·.guid = f.guid) = some g := by
      rw [← Option.isSome_iff_exists, List.find?_isSome]
      exact ⟨f, hf, by simp⟩
    have hguid : g.guid = f.guid := by simpa using List.find?_some hg
    rw [hg, List.inj_on_of_nodup_map hnodup (List.mem_of_find?_eq_some hg) hf hguid]
  rw [CoverSpec.installed, hfind]
  rfl

theorem installed_of_not_mem {k : Guid} (hk : k ∉ spec.filters.map (·.guid)) :
    spec.installed appId k = none := by
  have hfind : spec.filters.find? (·.guid = k) = none := by
    refine List.find?_eq_none.2 fun f hf hguid ↦ hk ?_
    rw [← of_decide_eq_true hguid]
    exact List.mem_map_of_mem hf
  rw [CoverSpec.installed, hfind]
  rfl

/-- The working copy of a transaction that is ready to be committed. -/
structure Staged (appId : String → Blob) (spec : CoverSpec) (keys : List Guid)
    (floor : List FilterSpec) (s t : Store) (stale : List Guid) : Prop where
  outside : ∀ k, k ∉ keys → t k = s k
  floor : ∀ f ∈ floor, t f.guid = some (f.encode appId)
  /-- Without a stale key the cover is the spec's. -/
  exact : stale = [] → ∀ k ∈ keys, t k = spec.installed appId k
  /-- The strict policy leaves no stale key. -/
  strict : spec.staleKey = .fail → stale = []

theorem safe_beginTransaction (h : Closed appId w) :
    beginTransaction.Safe (wfpHost appId act) (Engaging appId w)
      (fun r w' ↦ Unchanged w w' ∧ (r.isOk = true → Open w w' w.store ∧ w'.stale = [])) w := by
  have hI : Engaging appId w w := ⟨h.toKept, fun _ ↦ rfl⟩
  refine ⟨hI, fun c ↦ ?_⟩
  show Engaging appId w (wfpNext act w .transactionBegin c) ∧
    Unchanged w (wfpNext act w .transactionBegin c) ∧
    ((wfpCheck c.toCode "FwpmTransactionBegin0").isOk = true →
      Open w (wfpNext act w .transactionBegin c) w.store ∧
        (wfpNext act w .transactionBegin c).stale = [])
  by_cases hc : c.toCode = errorSuccess
  · have hnext : wfpNext act w .transactionBegin c = { w with txn := some w.store, stale := [] } :=
      if_pos hc
    have ho : Open w { w with txn := some w.store, stale := [] } w.store := ⟨⟨rfl, rfl, rfl⟩, rfl⟩
    rw [hnext]
    exact ⟨ho.engaging h h.store, ho.toUnchanged, fun _ ↦ ⟨ho, rfl⟩⟩
  · have hnext : wfpNext act w .transactionBegin c = w := if_neg hc
    rw [hnext, wfpCheck, if_neg hc]
    exact ⟨hI, ⟨rfl, rfl, rfl⟩, (by rintro ⟨⟩)⟩

/-- A call without an effect. -/
theorem safe_idle {I : World → Prop} {o : WfpOp} (ho : o.isIdle) (hI : I w) :
    (Prog.perform o).Safe (wfpHost appId act) I (fun _ w' ↦ w' = w) w := by
  refine ⟨hI, fun c ↦ ?_⟩
  cases o <;> first | exact ⟨hI, rfl⟩ | exact absurd ho not_false

variable {keys : List Guid} {floor : List FilterSpec}

/-- **The transaction of an engage**, up to its commit. -/
theorem safe_stageCover (hspec : spec.WellKeyed keys floor)
    (hfloor : ∀ f ∈ floor, f ∈ transientFloor ++ lockdownFloor) (hrel : act.releases = false)
    (h : Closed appId w) :
    (stageCover spec).Safe (wfpHost appId act) (Engaging appId w)
      (fun r w' ↦ Unchanged w w' ∧ (r.isOk = true →
        ∃ t, Open w w' t ∧ t.Ours appId ∧
          Staged appId spec keys floor w.store t w'.stale)) w := by
  refine safe_andThen (safe_beginTransaction h) (fun e w' _ hw' ↦ ⟨hw'.1, nofun⟩) ?_
  rintro ⟨⟩ w₁ - ⟨-, hopen⟩
  obtain ⟨ho₁, hstale₁⟩ := hopen rfl
  refine safe_andThen (safe_issuePreDeletes h hrel ho₁ h.store hstale₁) ?_ ?_
  · rintro e w₂ - ⟨t₂, ho₂, -⟩
    exact ⟨ho₂.toUnchanged, nofun⟩
  rintro ⟨⟩ w₂ hI₂ ⟨t₂, ho₂, ht₂, houtside, hgone, hstrict⟩
  have hadd {o : WfpOp} (ho : o.isIdle) (f : o.Ans → Except RoutingError Unit) :
      (do let a ← Prog.perform o; pure (f a) : WfpM _).Safe (wfpHost appId act) (Engaging appId w)
        (fun _ w' ↦ w' = w₂) w₂ :=
    (safe_idle ho hI₂).bind fun _ w' _ hw' ↦ by subst hw'; exact ⟨hI₂, rfl⟩
  refine safe_andThen (hadd (o := .providerAdd) trivial _) ?_ ?_
  · rintro e w' - rfl
    exact ⟨ho₂.toUnchanged, nofun⟩
  rintro ⟨⟩ w' - rfl
  refine safe_andThen (hadd (o := .subLayerAdd) trivial _) ?_ ?_
  · rintro e w' - rfl
    exact ⟨ho₂.toUnchanged, nofun⟩
  rintro ⟨⟩ w' - rfl
  refine (safe_addFilters h ho₂ ht₂ hspec.ours hspec.nodup).mono ?_
  rintro r w₃ - ⟨t₃, ho₃, ht₃, hstale₃, hadded⟩
  refine ⟨ho₃.toUnchanged, fun hok ↦ ⟨t₃, ho₃, ht₃, ?_⟩⟩
  have hadded := hadded hok
  rw [hstale₃]
  constructor
  · intro k hk
    have hk₁ : k ∉ spec.filters.map (·.guid) := by
      intro hm
      obtain ⟨f, hf, rfl⟩ := List.mem_map.1 hm
      exact hk (hspec.filter_keys f hf)
    rw [hadded.outside k hk₁, houtside k fun hm ↦ hk (hspec.preDelete_keys k hm)]
  · exact fun f hf ↦ hadded.exact f (hspec.floor_subset f hf) (.inr (hfloor f hf))
  · intro hs k hk
    by_cases hm : k ∈ spec.filters.map (·.guid)
    · obtain ⟨f, hf, rfl⟩ := List.mem_map.1 hm
      rw [installed_of_mem hspec.nodup hf]
      refine hadded.exact f hf ?_
      rcases hspec.fresh f hf with hf' | hf'
      · exact .inr (hfloor f hf')
      · exact .inl (hgone hs f.guid hf')
    · rw [installed_of_not_mem hm, hadded.outside k hm]
      exact hgone hs k ((hspec.rest k hk).resolve_left hm)
  · exact fun hfail ↦ hstrict rfl hfail

/-- A commit of a staged transaction. -/
theorem Open.commit (ho : Open w₀ w t) (ht : t.Ours appId)
    (hfloor : w₀.standing = true ∨ act.arms = true → t.HasFloor appId) :
    Engaging appId w₀ (w.commit act) where
  store := by
    show w.view.Ours appId
    rwa [ho.view_eq]
  txn := nofun
  floor hs := by
    show w.view.HasFloor appId
    rw [ho.view_eq]
    refine hfloor ?_
    rw [← ho.standing]
    exact Bool.or_eq_true_iff.1 hs
  atomic hc := by
    have hne : w.commits + 1 = w.commits := hc.trans ho.commits.symm
    omega

/-- What a committed engage leaves. -/
structure Committed (appId : String → Blob) (spec : CoverSpec) (keys : List Guid) (w : World) :
    Prop where
  closed : w.txn = none
  exact : w.stale = [] → ∀ k ∈ keys, w.store k = spec.installed appId k
  strict : spec.staleKey = .fail → w.stale = []

/-- The calls after a commit change neither the filters nor what is known of the transaction. -/
structure Same (w w' : World) : Prop where
  store : w'.store = w.store
  txn : w'.txn = w.txn
  standing : w'.standing = w.standing
  stale : w'.stale = w.stale
  commits : w'.commits = w.commits

theorem Engaging.same (h : Engaging appId w₀ w) (hs : Same w w') : Engaging appId w₀ w' where
  store := hs.store ▸ h.store
  txn t ht := h.txn t (hs.txn ▸ ht)
  floor hst := hs.store ▸ h.floor (hs.standing ▸ hst)
  atomic hc := hs.store.trans (h.atomic (hs.commits ▸ hc))

theorem Committed.same (h : Committed appId spec keys w) (hs : Same w w') :
    Committed appId spec keys w' where
  closed := hs.txn.trans h.closed
  exact hst := hs.store ▸ h.exact (hs.stale ▸ hst)
  strict hf := hs.stale.trans (h.strict hf)

theorem safe_same {p : WfpM α} (hp : p.Only fun o ↦ o.isIdle ∨ ∃ b, o = .saveWitness b)
    (h : Engaging appId w₀ w) :
    p.Safe (wfpHost appId act) (Engaging appId w₀) (fun _ w' ↦ Same w w') w := by
  refine hp.safe h (fun _ ↦ ⟨rfl, rfl, rfl, rfl, rfl⟩) ?_ ?_
  · intro w w' w'' h h'
    exact ⟨h'.store.trans h.store, h'.txn.trans h.txn, h'.standing.trans h.standing,
      h'.stale.trans h.stale, h'.commits.trans h.commits⟩
  · intro o w c ho hw
    have hsame : Same w (wfpNext act w o c) := by
      rcases ho with ho | ⟨b, rfl⟩
      · cases o <;> first | exact ⟨rfl, rfl, rfl, rfl, rfl⟩ | exact absurd ho not_false
      · cases c <;> exact ⟨rfl, rfl, rfl, rfl, rfl⟩
    exact ⟨hw.same hsame, hsame⟩

/-- **An engage**: what its commit establishes, or the store as it was. -/
theorem safe_installCover {commit : WfpM (Except RoutingError Unit)}
    (hspec : spec.WellKeyed keys floor) (hfloor : ∀ f ∈ floor, f ∈ transientFloor ++ lockdownFloor)
    (hrel : act.releases = false) (h : Closed appId w)
    (hcommit : ∀ w₁ t, Open w w₁ t → t.Ours appId →
      Staged appId spec keys floor w.store t w₁.stale →
      commit.Safe (wfpHost appId act) (Engaging appId w) (fun r w' ↦ r.isOk = true →
      Committed appId spec keys w') w₁) :
    (installCover spec commit).Safe (wfpHost appId act) (Engaging appId w)
      (fun r w' ↦ w'.txn = none ∧ (r.isOk = true → Committed appId spec keys w')) w := by
  have hI : Engaging appId w w := ⟨h.toKept, fun _ ↦ rfl⟩
  refine (safe_idle (o := .engineOpen) trivial hI).bind fun (rc : Code) w₁ _ hw₁ ↦ ?_
  subst hw₁
  rcases wfpCheck rc "FwpmEngineOpen0" with e | u
  · exact ⟨hI, h.closed, nofun⟩
  have hbody : (andThen (stageCover spec) fun _ ↦ commit).Safe (wfpHost appId act)
      (Engaging appId w₁) (fun r w' ↦ r.isOk = true → Committed appId spec keys w') w₁ := by
    refine safe_andThen (safe_stageCover hspec hfloor hrel h) (fun _ _ _ _ ↦ nofun) ?_
    rintro ⟨⟩ w₂ - ⟨-, hstaged⟩
    obtain ⟨t, ho, ht, hst⟩ := hstaged rfl
    exact hcommit w₂ t ho ht hst
  refine hbody.bind ?_
  rintro (e | ⟨⟩) w₂ hI₂ hw₂
  · refine ⟨hI₂, fun c ↦ ?_⟩
    have habort : Engaging appId w₁ { w₂ with txn := none } :=
      ⟨⟨hI₂.store, nofun, hI₂.floor⟩, hI₂.atomic⟩
    refine (safe_idle (o := .engineClose) trivial habort).bind fun _ w₃ hI₃ hw₃ ↦ ?_
    subst hw₃
    exact ⟨hI₃, rfl, nofun⟩
  · exact ⟨hI₂, (hw₂ rfl).closed, hw₂⟩

/-- The commit of a staged transaction. -/
theorem safe_commit (ho : Open w₀ w t) (hw₀ : Closed appId w₀) (ht : t.Ours appId)
    (hst : Staged appId spec keys floor w₀.store t w.stale)
    (hfloor : w₀.standing = true ∨ act.arms = true → t.HasFloor appId) :
    commitTransaction.Safe (wfpHost appId act) (Engaging appId w₀)
      (fun r w' ↦ r.isOk = true → Committed appId spec keys w') w := by
  have hcommitted : Committed appId spec keys (w.commit act) := by
    refine ⟨rfl, fun hs k hk ↦ ?_, hst.strict⟩
    show w.view k = _
    rw [ho.view_eq]
    exact hst.exact hs k hk
  refine (safe_commitTransaction (ho.engaging hw₀ ht) (ho.commit ht hfloor)).mono ?_
  rintro r w' - rfl hok
  rw [if_pos hok]
  exact hcommitted

/-- The keys of the transient cover are none of the standing one's. -/
theorem not_mem_transientKeys {k : Guid} (hk : k ∈ lockdownKeys) : k ∉ transientKeys := fun hk' ↦
  (List.nodup_append.1 nodup_keys).2.2 k hk' k hk rfl

theorem lockdownFloor_keys (hf : f ∈ lockdownFloor) : f.guid ∈ lockdownKeys :=
  mem_lockdownKeys.2 (.inl (List.mem_map_of_mem hf))

/-- **The transient engage.** -/
theorem safe_engage (act : WfpAct) (serverIp : IpAddr) (resolverIp : Option IpAddr)
    (hrel : act.releases = false) (harms : act.arms = false) (h : Closed appId w) :
    (engage serverIp resolverIp).Safe (wfpHost appId act) (Engaging appId w)
      (fun r w' ↦ w'.txn = none ∧ (r.isOk = true →
        Committed appId (buildCoverSpec serverIp resolverIp) transientKeys w')) w := by
  refine safe_installCover (wellKeyed_cover serverIp resolverIp)
    (fun f hf ↦ List.mem_append_left _ hf) hrel h fun w₁ t ho ht hst ↦ ?_
  refine safe_commit ho h ht hst fun hs f hf ↦ ?_
  rw [hst.outside _ (not_mem_transientKeys (lockdownFloor_keys hf))]
  rcases hs with hs | hs
  · exact h.floor hs f hf
  · rw [harms] at hs
    cases hs

/-- **The standing engage.** -/
theorem safe_engageStanding (act : WfpAct) (serverIp : IpAddr) (tunLuid : BitVec 64)
    {appIds : List String} (hlen : appIds.length ≤ maxAppidBinaries) (hrel : act.releases = false)
    (h : Closed appId w) :
    (engageLockdown serverIp tunLuid appIds).Safe (wfpHost appId act) (Engaging appId w)
      (fun r w' ↦ w'.txn = none ∧ (r.isOk = true →
        Committed appId (buildLockdownSpec serverIp tunLuid appIds) lockdownKeys w')) w := by
  refine safe_installCover (wellKeyed_lockdown serverIp tunLuid hlen)
    (fun f hf ↦ List.mem_append_right _ hf) hrel h fun w₁ t ho ht hst ↦ ?_
  have hsave : (do
      let _ ← Prog.perform (WfpOp.saveWitness true)
      pure (.ok ()) : WfpM (Except RoutingError Unit)).Only
        fun o ↦ o.isIdle ∨ ∃ b, o = .saveWitness b :=
    ⟨.inr ⟨true, rfl⟩, fun _ ↦ trivial⟩
  have hrecord : commitAndRecord.Safe (wfpHost appId act) (Engaging appId w) (fun r w' ↦
      r.isOk = true →
        Committed appId (buildLockdownSpec serverIp tunLuid appIds) lockdownKeys w') w₁ := by
    refine safe_andThen (safe_commit ho h ht hst fun _ ↦ hst.floor) (fun _ _ _ _ ↦ nofun) ?_
    rintro ⟨⟩ w₂ hI₂ hw₂
    exact (safe_same hsave hI₂).mono fun _ _ _ hs _ ↦ (hw₂ rfl).same hs
  refine safe_andThen hrecord (fun _ _ _ _ ↦ nofun) ?_
  rintro ⟨⟩ w₂ hI₂ hw₂
  exact (safe_same (only_verifyBoottimeTwins fun _ ↦ .inl) hI₂).mono
    fun _ _ _ hs _ ↦ (hw₂ rfl).same hs

/-! ### Runs -/

theorem closed_start : Closed appId World.start := ⟨⟨nofun, nofun, nofun⟩, rfl⟩

theorem Kept.crash (h : Kept appId w) : Closed appId w.crash := ⟨⟨h.store, nofun, h.floor⟩, rfl⟩

/-- A reboot takes boot-time filters only, and none of the floor is one. -/
theorem Kept.reboot (h : Kept appId w) (gone : List Guid) : Closed appId (w.reboot gone) where
  store k f hk := h.store k f (Option.filter_eq_some_iff.1 hk).1
  txn := nofun
  floor hs f hf := by
    have hflags : (f.encode appId).flags = filterFlags .persistent := by
      show filterFlags f.lifetime = _
      rw [(guid_of_lockdownFloor hf).2]
    show (w.store f.guid).filter _ = _
    rw [h.floor hs f hf]
    refine Option.filter_some_pos ?_
    have hne : filterFlags .persistent ≠ filterFlags .bootTime := by decide
    simp [hflags, hne]
  closed := rfl

/-- **One act** keeps the store right, wherever it is cut. -/
theorem closed_step {e : WfpAct × List WfpChoice} (h : Closed appId w) :
    Closed appId ((wfpMachine appId).step w e) := by
  refine Machine.step_of_safe (J := Kept appId) h ?_ fun w' h' ↦ h'.crash
  intro p hp
  obtain ⟨act, cs⟩ := e
  have hdirect {p : WfpM Unit} (hp : p.Only (WfpOp.isDirect act)) :
      p.Safe (wfpHost appId act) (Kept appId) (fun _ w' ↦ Closed appId w') w :=
    ((safe_direct hp h).mono fun _ _ hc _ ↦ hc).weaken fun _ hc ↦ hc.toKept
  have hidle {o : WfpOp} (ho : o.isIdle) : o.isDirect act := isDirect_of_isIdle ho
  have htransient (g : Guid) (hg : g ∈ transientKeys) : g ∉ lockdownFloor.map (·.guid) := by
    intro hm
    obtain ⟨f, hf, rfl⟩ := List.mem_map.1 hm
    exact not_mem_transientKeys (lockdownFloor_keys hf) hg
  cases act with
  | engage serverIp resolverIp =>
    cases hp
    refine ((safe_engage _ _ _ rfl rfl h).weaken fun _ hI ↦ hI.toKept).bind fun _ w' hI hw' ↦ ?_
    exact ⟨hI, ⟨hI, hw'.1⟩⟩
  | engageLockdown serverIp tunLuid appIds =>
    by_cases hlen : appIds.length ≤ maxAppidBinaries
    · obtain rfl := Option.some.inj ((if_pos hlen).symm.trans hp)
      refine ((safe_engageStanding _ _ _ hlen rfl h).weaken fun _ hI ↦ hI.toKept).bind
        fun _ w' hI hw' ↦ ?_
      exact ⟨hI, ⟨hI, hw'.1⟩⟩
    · cases (if_neg hlen).symm.trans hp
  | dropCover kind =>
    cases hp
    refine hdirect (only_dropCover (fun _ ↦ hidle) fun g hg ↦ ?_)
    cases kind with
    | transient => exact .inr (htransient g hg)
    | lockdown => exact .inl rfl
  | detach =>
    cases hp
    exact hdirect ⟨trivial, fun _ ↦ trivial⟩
  | recoverCover =>
    cases hp
    exact hdirect (only_recoverCover (fun _ ↦ hidle) fun g hg ↦ .inr (htransient g hg))
  | disengageLockdown =>
    cases hp
    have hsweep (witness : ArmingWitness) :
        (disengageLockdown witness).Only (WfpOp.isDirect .disengageLockdown) :=
      only_disengageLockdown (fun _ ↦ hidle) fun _ _ ↦ .inl rfl
    exact hdirect ((only_sweepWithWitness (fun _ ↦ hidle) (fun _ ↦ trivial) hsweep).bind
      fun _ ↦ Prog.only_pure _)
  | releaseAll =>
    cases hp
    have hsweep (witness : ArmingWitness) :
        (releaseAll witness).Only (WfpOp.isDirect .releaseAll) :=
      only_releaseAll (fun _ ↦ hidle) fun _ _ ↦ .inl rfl
    exact hdirect ((only_sweepWithWitness (fun _ ↦ hidle) (fun _ ↦ trivial) hsweep).bind
      fun _ ↦ Prog.only_pure _)
  | reclaimStaleTunPermit tunName =>
    cases hp
    have htun (v : Family) : Lockdown.tun v ∉ lockdownFloor.map (·.guid) := by
      cases v <;> decide
    refine hdirect (only_reclaimStaleTunPermit (fun _ ↦ hidle) fun g hg ↦ .inr ?_)
    simp only [pair, List.mem_cons, List.not_mem_nil, or_false] at hg
    rcases hg with rfl | rfl
    · exact htun .v4
    · exact htun .v6
  | reboot gone =>
    cases hp
    exact ⟨h.toKept, h.toKept.reboot gone⟩
  | crash =>
    cases hp
    exact ⟨h.toKept, h.toKept.crash⟩

/-- What is right about the store of a host, and about the engages that start from it. -/
structure StoreSound (appId : String → Blob) (w : World) : Prop where
  /-- Every filter lives under a key that a sweep knows, with the lifetime the sweep knows. -/
  listed : ∀ k f, w.store k = some f →
    ∃ s ∈ sweptTransientKeys ++ sweptLockdownKeys, s.guid = k ∧ f.flags = filterFlags s.lifetime
  /-- A standing engage that returns `Ok` leaves exactly its own filters. -/
  standing_exact : ∀ serverIp tunLuid appIds, appIds.length ≤ maxAppidBinaries →
    ∀ cs w' rest, (engageLockdown serverIp tunLuid appIds).run
        (wfpHost appId (.engageLockdown serverIp tunLuid appIds)) w cs =
      (some (.ok ()), w', rest) →
    ∀ k ∈ lockdownKeys, w'.store k = (buildLockdownSpec serverIp tunLuid appIds).installed appId k
  /-- So does a transient one, where none of its deletes failed. -/
  transient_exact : ∀ serverIp resolverIp cs w' rest,
    (engage serverIp resolverIp).run (wfpHost appId (.engage serverIp resolverIp)) w cs =
      (some (.ok ()), w', rest) → w'.stale = [] →
    ∀ k ∈ transientKeys, w'.store k = (buildCoverSpec serverIp resolverIp).installed appId k
  /-- Without a commit a standing engage leaves the store as it was, wherever it stops. -/
  standing_atomic : ∀ serverIp tunLuid appIds, appIds.length ≤ maxAppidBinaries →
    ∀ cs r w' rest, (engageLockdown serverIp tunLuid appIds).run
        (wfpHost appId (.engageLockdown serverIp tunLuid appIds)) w cs = (r, w', rest) →
    w'.commits = w.commits → w'.store = w.store
  /-- So does a transient one. -/
  transient_atomic : ∀ serverIp resolverIp cs r w' rest,
    (engage serverIp resolverIp).run (wfpHost appId (.engage serverIp resolverIp)) w cs =
      (r, w', rest) → w'.commits = w.commits → w'.store = w.store
  /-- From a commit of a standing engage to the first delete of a guard drop, a disengage or a
  release, the block-all pair and the loopback permits are there. -/
  floor : w.standing = true → ∀ f ∈ lockdownFloor, w.store f.guid = some (f.encode appId)

theorem Closed.storeSound (h : Closed appId w) : StoreSound appId w where
  listed k f hk := by
    obtain ⟨g, hg, rfl, rfl⟩ := h.store k f hk
    obtain ⟨s, hs, hguid, hlife⟩ := hg.swept
    refine ⟨s, hs, hguid, ?_⟩
    rw [hlife]
    rfl
  standing_exact serverIp tunLuid appIds hlen cs w' rest hrun := by
    have hsound := ((safe_engageStanding (.engageLockdown serverIp tunLuid appIds) serverIp
      tunLuid hlen rfl h).sound cs).2 (.ok ()) (by rw [hrun])
    rw [hrun] at hsound
    have hcommitted := hsound.2 rfl
    exact hcommitted.exact (hcommitted.strict rfl)
  transient_exact serverIp resolverIp cs w' rest hrun hstale := by
    have hsound := ((safe_engage (.engage serverIp resolverIp) serverIp resolverIp rfl rfl
      h).sound cs).2 (.ok ()) (by rw [hrun])
    rw [hrun] at hsound
    exact (hsound.2 rfl).exact hstale
  standing_atomic serverIp tunLuid appIds hlen cs r w' rest hrun := by
    have hsound := ((safe_engageStanding (.engageLockdown serverIp tunLuid appIds) serverIp
      tunLuid hlen rfl h).sound cs).1
    rw [hrun] at hsound
    exact hsound.atomic
  transient_atomic serverIp resolverIp cs r w' rest hrun := by
    have hsound := ((safe_engage (.engage serverIp resolverIp) serverIp resolverIp rfl rfl
      h).sound cs).1
    rw [hrun] at hsound
    exact hsound.atomic
  floor := h.floor

/-- **The store of the covers is right in every run.** -/
theorem storeSound_of_run (appId : String → Blob) (es : List (WfpAct × List WfpChoice)) :
    StoreSound appId ((wfpMachine appId).exec World.start es) :=
  Closed.storeSound (Machine.exec_of_step (fun _ _ h ↦ closed_step h) es closed_start)

end Hole.Wfp
