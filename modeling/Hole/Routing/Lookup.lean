import Hole.Net.IpText
import Hole.Routing.Recover

/-!
# The deletes in front of a gateway lookup

`clear_stale_server_bypass` goes over the groups of the record as `recover_groups` does, but it
neither remembers what it issued nor narrows the other groups by what was confirmed. Two groups of
one server that list its bypass and would delete it by the same command therefore have it deleted
twice. `lookup_once_iff` says that nothing else goes wrong: without two such groups each delete is
issued once, and no group of the record that is written lists a bypass that was confirmed gone.
-/

namespace Hole.Routing

open Effect
open Prog (hasTrace_bind hasTrace_pure)

variable {plat : Platform} {dest : IpAddr} {g : StaleRecord}

/-- The group is of the server that is looked up, and lists its bypass. -/
def StaleRecord.ListsBypass (dest : IpAddr) (g : StaleRecord) : Prop :=
  g.serverIp = dest ∧ .serverBypass ∈ g.installed

instance : Decidable (g.ListsBypass dest) := inferInstanceAs (Decidable (_ ∧ _))

/-- The command of the group's own bypass delete, if it has one. -/
def StaleRecord.bypassDelete (plat : Platform) (g : StaleRecord) : Option Argv :=
  (platformBypassTeardownCommand plat g.toRouteIdentity).map (·.toArgv)

/-- The delete that a lookup issues for a group. -/
def StaleRecord.lookupDelete (plat : Platform) (dest : IpAddr) (g : StaleRecord) : Option Argv :=
  if g.ListsBypass dest then g.bypassDelete plat else none

/-- No two groups that list the server's bypass would delete it by the same command. -/
def NoSharedBypass (plat : Platform) (dest : IpAddr) (st : RouteState) : Prop :=
  (st.primary :: st.stale).Pairwise fun g h ↦ g.ListsBypass dest → h.ListsBypass dest →
    ∀ a, g.bypassDelete plat = some a → h.bypassDelete plat ≠ some a

/-- No delete of the trace is issued twice, and what was confirmed gone is written, and is listed by
no group that would delete it by the same command. -/
structure OneDeletePerRoute (plat : Platform) (t : List (Exchange RouteOp.Ans)) : Prop where
  once : (issued t).Nodup
  recorded : confirmed t ≠ [] → written t ≠ []
  /-- A confirmed delete is out of every group. -/
  narrowed : ∀ a ∈ confirmed t, ∀ st ∈ written t, ∀ g ∈ st.groups,
    g.bypassDelete plat = some a → .serverBypass ∉ g.installed

/-- A bypass delete names its server. -/
theorem serverIp_of_bypassDelete {g h : StaleRecord} {a : Argv} (hg : g.bypassDelete plat = some a)
    (hh : h.bypassDelete plat = some a) : g.serverIp = h.serverIp := by
  have hinj {ip ip' : IpAddr} (heq : ip.display = ip'.display) : ip = ip' := by
    have hread := IpAddr.read_display ip
    rw [heq, IpAddr.read_display] at hread
    exact (Option.some.inj hread).symm
  have happend {ip ip' : IpAddr} {s : String} (heq : ip.display ++ s = ip'.display ++ s) :
      ip = ip' := by
    have htext : ip.display.toList ++ s.toList = ip'.display.toList ++ s.toList := by
      rw [← String.toList_append, heq, String.toList_append]
    exact hinj (String.toList_injective (List.append_cancel_right htext))
  obtain ⟨c, hc, rfl⟩ := Option.map_eq_some_iff.1 hg
  obtain ⟨c', hc', hargv⟩ := Option.map_eq_some_iff.1 hh
  unfold platformBypassTeardownCommand at hc hc'
  split at hc
  · cases hc
  split at hc'
  · cases hc'
  cases hc
  cases hc'
  obtain ⟨⟨tun, ip, iface, gw, form⟩, ids⟩ := g
  obtain ⟨⟨tun', ip', iface', gw', form'⟩, ids'⟩ := h
  cases plat with
  | macos =>
    cases ip <;> cases ip' <;> simp only [Argv.mk.injEq, List.cons.injEq, true_and, and_true,
      reduceCtorEq, and_false, String.reduceEq] at hargv
    · exact hinj hargv.symm
    · exact hinj hargv.symm
  | windows =>
    cases ip <;> cases ip' <;> cases form <;> cases form' <;>
      simp only [netshRoute, Argv.mk.injEq, List.cons.injEq, true_and, and_true, reduceCtorEq,
        and_false, String.reduceEq, false_and, List.cons_append, List.nil_append] at hargv
    · exact hinj hargv.1.symm
    all_goals exact happend hargv.1.symm

/-! ### The loop over the groups -/

variable {t : List (Exchange RouteOp.Ans)}

theorem lookupDelete_eq_some {a : Argv} :
    g.lookupDelete plat dest = some a ↔ g.ListsBypass dest ∧ g.bypassDelete plat = some a := by
  unfold StaleRecord.lookupDelete
  split
  · next h => rw [and_iff_right h]
  · next h => exact iff_of_false nofun fun h' ↦ h h'.1

/-- What a lookup does for one group, by the delete it issues. -/
structure GroupLookup (plat : Platform) (dest : IpAddr) (g : StaleRecord)
    (t : List (Exchange RouteOp.Ans)) (g' : StaleRecord) (changed : Bool) : Prop where
  issued_eq : issued t = (g.lookupDelete plat dest).toList
  written_eq : written t = []
  changed_iff : changed = true ↔ confirmed t ≠ []
  identity_eq : g'.toRouteIdentity = g.toRouteIdentity
  sub : g'.installed ⊆ g.installed
  out : confirmed t ≠ [] → .serverBypass ∉ g'.installed
  kept : confirmed t = [] → g' = g

theorem groupLookup_of_hasTrace {g' : StaleRecord} {changed : Bool}
    (h : (clearGroup plat dest g).HasTrace t (g', changed)) :
    GroupLookup plat dest g t g' changed := by
  have hnone (hdel : g.lookupDelete plat dest = none) (ht : t = []) (hg' : g' = g)
      (hch : changed = false) : GroupLookup plat dest g t g' changed := by
    subst ht hg' hch
    exact ⟨by rw [hdel]; rfl, rfl, iff_of_false (by rintro ⟨⟩) (· rfl), rfl, List.Subset.refl _,
      fun hne ↦ absurd rfl hne, fun _ ↦ rfl⟩
  unfold clearGroup at h
  split at h
  · next hdest =>
    obtain ⟨t₁, t₂, ⟨ids, ch⟩, rfl, h₁, h₂⟩ := hasTrace_bind.1 h
    obtain ⟨rfl, heq⟩ := hasTrace_pure.1 h₂
    cases heq
    rw [List.append_nil] at hnone ⊢
    unfold runStaleBypassDelete at h₁
    split at h₁
    · next hlists =>
      have hlookup : g.lookupDelete plat dest = g.bypassDelete plat := if_pos ⟨hdest, hlists⟩
      split at h₁
      · next hcmd =>
        obtain ⟨rfl, heq⟩ := hasTrace_pure.1 h₁
        cases heq
        exact hnone (by rw [hlookup, StaleRecord.bypassDelete, hcmd]; rfl) rfl rfl rfl
      · next cmd hcmd =>
        obtain ⟨t₃, t₄, gone, rfl, h₃, h₄⟩ := hasTrace_bind.1 h₁
        obtain ⟨hi, hc, hw⟩ := hasTrace_runTeardownCommand h₃
        have hdel : g.lookupDelete plat dest = some cmd.toArgv := by
          rw [hlookup, StaleRecord.bypassDelete, hcmd]
          rfl
        cases gone with
        | true =>
          obtain ⟨rfl, heq⟩ := hasTrace_pure.1 h₄
          cases heq
          rw [List.append_nil]
          exact ⟨by rw [hi, hdel]; rfl, hw, by simp [hc], rfl, (List.filter_sublist).subset,
            fun _ ↦ by simp, fun hnil ↦ by simp [hc] at hnil⟩
        | false =>
          obtain ⟨rfl, heq⟩ := hasTrace_pure.1 h₄
          cases heq
          rw [List.append_nil]
          exact ⟨by rw [hi, hdel]; rfl, hw, by simp [hc], rfl, List.Subset.refl _,
            fun hne ↦ by simp [hc] at hne, fun _ ↦ rfl⟩
    · next hlists =>
      obtain ⟨rfl, heq⟩ := hasTrace_pure.1 h₁
      cases heq
      exact hnone (if_neg fun hl ↦ hlists hl.2) rfl rfl rfl
  · next hdest =>
    obtain ⟨rfl, heq⟩ := hasTrace_pure.1 h
    obtain ⟨rfl, rfl⟩ := Prod.mk.inj heq
    exact hnone (if_neg fun hl ↦ hdest hl.1) rfl rfl rfl

/-- What a lookup does for the groups, if it issues no delete twice. -/
structure GroupsLookup (plat : Platform) (dest : IpAddr) (gs : List StaleRecord)
    (t : List (Exchange RouteOp.Ans)) (gs' : List StaleRecord) (changed : Bool) : Prop where
  issued_eq : issued t = gs.filterMap (·.lookupDelete plat dest)
  written_eq : written t = []
  changed_iff : changed = true ↔ confirmed t ≠ []
  /-- A delete that some group is left with is not confirmed. -/
  left : (issued t).Nodup → ∀ g' ∈ gs', ∀ a, g'.lookupDelete plat dest = some a →
    a ∈ issued t ∧ a ∉ confirmed t

theorem groupsLookup_of_hasTrace {gs gs' : List StaleRecord} {changed : Bool}
    (h : (clearGroups plat dest gs).HasTrace t (gs', changed)) :
    GroupsLookup plat dest gs t gs' changed := by
  induction gs generalizing t gs' changed with
  | nil =>
    obtain ⟨rfl, heq⟩ := hasTrace_pure.1 h
    cases heq
    exact ⟨rfl, rfl, iff_of_false (by rintro ⟨⟩) (· rfl), (by rintro _ _ ⟨⟩)⟩
  | cons g gs ih =>
    obtain ⟨t₁, _, ⟨g', ch₁⟩, rfl, h₁, hrest⟩ := hasTrace_bind.1 h
    obtain ⟨t₂, _, ⟨gs₂, ch₂⟩, rfl, h₂, hend⟩ := hasTrace_bind.1 hrest
    obtain ⟨rfl, heq⟩ := hasTrace_pure.1 hend
    cases heq
    have hg := groupLookup_of_hasTrace h₁
    have hgs := ih h₂
    have hissued : issued (t₁ ++ (t₂ ++ [])) = issued t₁ ++ issued t₂ := by simp
    have hconf : confirmed (t₁ ++ (t₂ ++ [])) = confirmed t₁ ++ confirmed t₂ := by simp
    have hlookup {a : Argv} (ha : g'.lookupDelete plat dest = some a) : confirmed t₁ = [] := by
      by_contra hne
      exact hg.out hne (lookupDelete_eq_some.1 ha).1.2
    refine ⟨?_, ?_, ?_, ?_⟩
    · rw [hissued, hg.issued_eq, hgs.issued_eq, List.filterMap_cons]
      cases g.lookupDelete plat dest <;> rfl
    · rw [written_append, written_append, hg.written_eq, hgs.written_eq]
      rfl
    · rw [hconf, Bool.or_eq_true, hg.changed_iff, hgs.changed_iff]
      simp only [ne_eq, List.append_eq_nil_iff, not_and_or]
    · intro hnodup x hx a ha
      rw [hissued] at hnodup ⊢
      rw [hconf, List.mem_append, List.mem_append, not_or]
      obtain ⟨-, hnodup₂, hapart⟩ := List.nodup_append.1 hnodup
      rcases List.mem_cons.1 hx with rfl | hx
      · have hnil := hlookup ha
        obtain rfl := hg.kept hnil
        have hmem : a ∈ issued t₁ := by
          rw [hg.issued_eq, ha]
          exact List.mem_singleton_self a
        refine ⟨.inl hmem, ?_, fun hc ↦ ?_⟩
        · rw [hnil]
          exact List.not_mem_nil
        · exact hapart a hmem a (confirmed_subset_issued t₂ hc) rfl
      · obtain ⟨hmem, hnot⟩ := hgs.left hnodup₂ x hx a ha
        refine ⟨.inr hmem, fun hc ↦ ?_, hnot⟩
        exact hapart a (confirmed_subset_issued t₁ hc) a hmem rfl

/-! ### The lookup -/

theorem nodup_lookupDeletes {gs : List StaleRecord} :
    (gs.filterMap (·.lookupDelete plat dest)).Nodup ↔
      gs.Pairwise fun g h ↦ g.ListsBypass dest → h.ListsBypass dest →
        ∀ a, g.bypassDelete plat = some a → h.bypassDelete plat ≠ some a := by
  rw [List.Nodup, List.pairwise_filterMap]
  refine List.Pairwise.iff fun g h ↦ ?_
  simp only [lookupDelete_eq_some]
  constructor
  · rintro hne hg hh a ha ha'
    exact hne a ⟨hg, ha⟩ a ⟨hh, ha'⟩ rfl
  · rintro hne a ⟨hg, ha⟩ _ ⟨hh, ha'⟩ rfl
    exact hne hg hh a ha ha'

/-- What a lookup issues and writes, given the record it reads. -/
theorem lookup_of_hasTrace {st : RouteState} {u : Unit}
    (h : (clearStaleServerBypass plat dest).HasTrace (⟨.read, .records st⟩ :: t) u) :
    issued t = (st.primary :: st.stale).filterMap (·.lookupDelete plat dest) ∧
      ∃ gs' : List StaleRecord,
        ((issued t).Nodup → ∀ g' ∈ gs', ∀ a, g'.lookupDelete plat dest = some a →
          a ∈ issued t ∧ a ∉ confirmed t) ∧
        (confirmed t ≠ [] → written t ≠ []) ∧
        ∀ st' ∈ written t, ∀ g ∈ st'.groups, g ∈ gs' := by
  obtain ⟨t₀, t₁, found, heq, h₀, h₁⟩ := hasTrace_bind.1 h
  obtain rfl := Prog.hasTrace_perform.1 h₀
  obtain ⟨hfound, rfl⟩ := List.cons.inj heq
  obtain rfl : Found.records st = found := by
    cases hfound
    rfl
  obtain ⟨t₂, _, ⟨own, ch₁⟩, rfl, h₂, hrest⟩ := hasTrace_bind.1 h₁
  obtain ⟨t₃, t₄, ⟨stale, ch₂⟩, rfl, h₃, hend⟩ := hasTrace_bind.1 hrest
  -- the primary group is gone over as if it were the first of the stale ones
  have hall : (clearGroups plat dest (st.primary :: st.stale)).HasTrace (t₂ ++ (t₃ ++ []))
      (own :: stale, ch₁ || ch₂) :=
    hasTrace_bind.2 ⟨t₂, _, _, rfl, h₂, hasTrace_bind.2 ⟨t₃, [], _, rfl, h₃, .pure _⟩⟩
  have hgs := groupsLookup_of_hasTrace hall
  have hown := (groupLookup_of_hasTrace h₂).identity_eq
  rw [List.append_nil] at hgs
  have hlast : issued t₄ = [] ∧ confirmed t₄ = [] ∧ (ch₁ || ch₂ → written t₄ ≠ []) ∧
      ∀ st' ∈ written t₄, ∀ g ∈ st'.groups, g ∈ own :: stale := by
    dsimp only at hend
    split at hend
    · obtain ⟨hi, hc, hw⟩ := hasTrace_tryWrite hend
      refine ⟨hi, hc, fun _ ↦ by simp [hw], fun st' hst' g hg ↦ ?_⟩
      rw [hw, List.mem_singleton] at hst'
      subst hst'
      rcases List.mem_append.1 hg with hg | hg
      · exact .tail _ (List.mem_filter.1 hg).1
      · obtain rfl := List.mem_singleton.1 hg
        refine List.mem_cons.2 (.inl ?_)
        exact congrArg (StaleRecord.mk · own.installed) hown.symm
    · next hch =>
      obtain ⟨rfl, -⟩ := hasTrace_pure.1 hend
      exact ⟨rfl, rfl, fun h ↦ absurd h hch, nofun⟩
  obtain ⟨hi₄, hc₄, hw₄, hsub₄⟩ := hlast
  have hissued : issued (t₂ ++ (t₃ ++ t₄)) = issued (t₂ ++ t₃) := by simp [hi₄]
  have hconf : confirmed (t₂ ++ (t₃ ++ t₄)) = confirmed (t₂ ++ t₃) := by simp [hc₄]
  have hwritten : written (t₂ ++ (t₃ ++ t₄)) = written t₄ := by
    rw [← List.append_assoc, written_append, hgs.written_eq, List.nil_append]
  rw [hissued, hconf, hwritten]
  exact ⟨hgs.issued_eq, _, hgs.left, fun hne ↦ hw₄ (hgs.changed_iff.2 hne), hsub₄⟩

/-- **A lookup issues each delete once exactly if no two groups share it**, whatever its outcomes:
it then narrows all the groups that a confirmed delete is named by. -/
theorem lookup_once_iff {st : RouteState} {u : Unit}
    (h : (clearStaleServerBypass plat dest).HasTrace (⟨.read, .records st⟩ :: t) u) :
    OneDeletePerRoute plat t ↔ NoSharedBypass plat dest st := by
  obtain ⟨hissued, gs', hleft, hrecorded, hsub⟩ := lookup_of_hasTrace h
  have hnodup : (issued t).Nodup ↔ NoSharedBypass plat dest st := by
    rw [hissued, nodup_lookupDeletes]
    rfl
  refine ⟨fun hone ↦ hnodup.1 hone.once, fun hno ↦ ⟨hnodup.2 hno, hrecorded, ?_⟩⟩
  intro a ha st' hst' g hg hdel hlists
  have hmem : a ∈ issued t := confirmed_subset_issued t ha
  rw [hissued] at hmem
  obtain ⟨g₀, -, hg₀⟩ := List.mem_filterMap.1 hmem
  obtain ⟨⟨hdest, -⟩, hdel₀⟩ := lookupDelete_eq_some.1 hg₀
  -- a delete names its server, so the group is one that the lookup is about
  have hserver : g.serverIp = dest := (serverIp_of_bypassDelete hdel hdel₀).trans hdest
  exact (hleft (hnodup.2 hno) g (hsub st' hst' g hg) a
    (lookupDelete_eq_some.2 ⟨⟨hserver, hlists⟩, hdel⟩)).2 ha

/-- How the calls of a lookup that finds `st` are answered: every delete is confirmed. -/
def lookupAnswers (st : RouteState) (n : Nat) : (o : RouteOp) → o.Ans
  | .read => Found.records st
  | o => firstFails (n + 1) o

/-- The trace of a lookup that finds `st`, from the read on. -/
def lookupTrace (st : RouteState) : List (Exchange RouteOp.Ans) :=
  (Prog.answered (lookupAnswers st) 0
    (clearStaleServerBypass .macos (IpAddr.ofOctets 203 0 113 7))).1.tail

theorem hasTrace_lookupTrace (st : RouteState) :
    (clearStaleServerBypass .macos (IpAddr.ofOctets 203 0 113 7)).HasTrace
      (⟨.read, .records st⟩ :: lookupTrace st) () :=
  Prog.hasTrace_answered (lookupAnswers st) 0 _

/-- The record of a session that was torn down, with what an earlier one left: another server's
bypass, or one of its own. -/
def retained (serverIp : IpAddr) : RouteState :=
  ⟨sampleIdentity "utun4", [RouteId.serverBypass],
    [⟨{ sampleIdentity "utun3" with serverIp := serverIp }, [RouteId.serverBypass]⟩]⟩

/-- Groups of two servers share no bypass delete. -/
theorem lookup_once_retained :
    OneDeletePerRoute .macos (lookupTrace (retained (IpAddr.ofOctets 203 0 113 8))) :=
  (lookup_once_iff (hasTrace_lookupTrace _)).2 (by unfold NoSharedBypass; decide)

/-- Groups of one server share their bypass delete, and a lookup issues it twice. -/
theorem lookup_deletes_twice :
    (clearStaleServerBypass .macos (IpAddr.ofOctets 203 0 113 7)).HasTrace
        (⟨.read, .records (retained (IpAddr.ofOctets 203 0 113 7))⟩ ::
          lookupTrace (retained (IpAddr.ofOctets 203 0 113 7))) () ∧
      ¬OneDeletePerRoute .macos (lookupTrace (retained (IpAddr.ofOctets 203 0 113 7))) :=
  ⟨hasTrace_lookupTrace _, fun h ↦ absurd h.once (by decide)⟩

end Hole.Routing
